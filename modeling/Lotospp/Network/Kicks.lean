import Lotospp.Common.ReadTokens
import Lotospp.Network.Invariant

/-!
# Lines after a kick

`User::kick` closes the connection of a session that has used up its attempts
or has quit, but `User::uRead` goes on with the rest of the packet.  What keeps
a kicked session silent is that it has no open connection any more: later
packets are not given to it.  So no line follows a kick as long as no carriage
return follows it in its packet.
-/

namespace Lotospp
namespace Network

open Text Effect Common Commands

/-- The connections that a kick has closed, among the observations. -/
def kickedIn (obs : List Obs) : List Nat :=
  obs.filterMap fun observation =>
    match observation with
    | .kicked connection => some connection
    | _ => none

theorem mem_kickedIn
    {connection : Nat}
    {obs : List Obs} :
    connection ∈ kickedIn obs ↔ .kicked connection ∈ obs := by
  simp only [kickedIn, List.mem_filterMap]
  constructor
  · rintro ⟨observation, shown, same⟩
    cases observation with
    | kicked other =>
        obtain rfl := Option.some.inj same
        exact shown
    | _ => exact absurd same (by simp)
  · exact fun shown => ⟨_, shown, rfl⟩

/-- What `User::uRead` does with a complete line. -/
def handling (env : Env) (handed : Handed) : CoreM Unit :=
  if (handed.core.users handed.user).level = .login then do
    login env handed.user handed.line
    let user ← user handed.user
    Prog.when (user.level = .login) (prompt env handed.user)
  else parseLine env handed.user

/-- The line closes the connection of its own session with `User::kick`. -/
def Kicks (env : Env) (handed : Handed) : Prop :=
  ∃ connection ∈ (handed.core.users handed.user).client,
    connection ∈ kickedIn ((handling env handed).run handed.core).obs

instance (env : Env) (handed : Handed) : Decidable (Kicks env handed) :=
  inferInstanceAs (Decidable (∃ connection ∈ _, connection ∈ _))

/-- A kick leaves the user without an open connection. -/
theorem Kicks.closes
    {env : Env}
    {handed : Handed}
    (kicks : Kicks env handed) :
    ∃ connection, (handed.core.users handed.user).client = some connection ∧
      ((lineOutcome env handed.user handed.line handed.core).2.connections
        connection).state ≠ .open := by
  obtain ⟨connection, client, shown⟩ := kicks
  obtain ⟨obs, ran, follows⟩ :=
    Runs.handOver env handed.user handed.line handed.core
  rw [handling, ran] at shown
  exact ⟨connection, client, follows.kicked connection (mem_kickedIn.mp shown)⟩

/-! ## The condition -/

/-- An ordinary carriage return is read from the bytes, before a terminal type
cuts them off. -/
inductive HoldsReturn : Bytes → Prop
  /-- It is the first byte. -/
  | here {rest : Bytes} : HoldsReturn (cr :: rest)
  /-- It follows an ordinary byte. -/
  | text
      {byte : UInt8}
      {rest : Bytes}
      (isText : byte ≠ telcmdIAC)
      (later : HoldsReturn rest) :
      HoldsReturn (byte :: rest)
  /-- It follows a telnet command. -/
  | command
      {bytes : Bytes}
      {command : TeloptCommand}
      {size : Nat}
      (front : bytes.head? = some telcmdIAC)
      (decoded : decodeCommand bytes = some (command, size))
      (whole : ¬ Truncates bytes command size)
      (later : HoldsReturn (bytes.drop size)) :
      HoldsReturn bytes

theorem not_holdsReturn_nil : ¬ HoldsReturn [] := by
  intro holds
  cases holds with
  | command front => exact absurd front (by simp)

/-- A packet is not too long to be read, and can be counted together with the
pending bytes. -/
def Obs.Sized : Obs → Prop
  | .packet _ pending data =>
      data.length < maxSize ∧ pending.length + data.length < 2 ^ 31
  | _ => True

/-- All packets have such a size, and no carriage return follows a line in its
packet that kicks its session. -/
structure Conforms (env : Env) (past : List Obs) : Prop where
  /-- The packets are not too long. -/
  sized : ∀ observation ∈ past, Obs.Sized observation
  /-- No line follows in the packet. -/
  last : ∀ handed ∈ handedIn past, Kicks env handed →
    ¬ HoldsReturn handed.rest

theorem Conforms.of_append
    {env : Env}
    {past more : List Obs}
    (conforms : Conforms env (past ++ more)) : Conforms env past where
  sized observation shown :=
    conforms.sized observation (List.mem_append_left more shown)
  last handed inside := by
    apply conforms.last handed
    rw [handedIn_append]
    exact List.mem_append_left _ inside

/-- No line of a session follows one that has kicked it. -/
def Silenced (env : Env) (lines : List Handed) : Prop :=
  ∀ before handed after, lines = before ++ handed :: after →
    Kicks env handed → ∀ later ∈ after, later.user ≠ handed.user

/-- Only the last line may kick its session. -/
def OnlyLast (env : Env) (lines : List Handed) : Prop :=
  ∃ before rest, lines = before ++ rest ∧ rest.length ≤ 1 ∧
    ∀ handed ∈ before, ¬ Kicks env handed

theorem OnlyLast.of_calm
    {env : Env}
    {lines : List Handed}
    (calm : ∀ handed ∈ lines, ¬ Kicks env handed) : OnlyLast env lines :=
  ⟨lines, [], by simp, by simp, calm⟩

theorem OnlyLast.append
    {env : Env}
    {lines : List Handed}
    (calm : ∀ handed ∈ lines, ¬ Kicks env handed)
    (last : Handed) : OnlyLast env (lines ++ [last]) :=
  ⟨lines, [last], rfl, by simp, calm⟩

/-- After a line that kicks nothing follows. -/
theorem OnlyLast.after
    {env : Env}
    {before after : List Handed}
    {handed : Handed}
    (only : OnlyLast env (before ++ handed :: after))
    (kicks : Kicks env handed) : after = [] := by
  obtain ⟨calm, rest, same, short, noKick⟩ := only
  rcases List.append_eq_append_iff.mp same with
    ⟨more, calm_eq, after_eq⟩ | ⟨more, -, rest_eq⟩
  · cases more with
    | nil =>
        rw [List.nil_append] at after_eq
        rw [← after_eq] at short
        exact List.length_eq_zero_iff.mp (by simpa using short)
    | cons first more =>
        obtain ⟨rfl, -⟩ := List.cons.inj after_eq
        exact absurd kicks (noKick handed (by simp [calm_eq]))
  · rw [rest_eq] at short
    exact List.length_eq_zero_iff.mp (by
      simp only [List.length_append, List.length_cons] at short
      omega)

/-- The lines of a packet follow those of earlier packets. -/
theorem Silenced.append
    {env : Env}
    {me : Nat}
    {lines new : List Handed}
    (silenced : Silenced env lines)
    (others : ∀ handed ∈ lines, Kicks env handed → handed.user ≠ me)
    (mine : ∀ handed ∈ new, handed.user = me)
    (only : OnlyLast env new) : Silenced env (lines ++ new) := by
  intro before handed after split kicks later inside
  rcases List.append_eq_append_iff.mp split.symm with
    ⟨more, lines_eq, after_eq⟩ | ⟨more, before_eq, new_eq⟩
  · cases more with
    | nil =>
        rw [List.nil_append] at after_eq
        rw [← after_eq] at only
        have none : after = [] := @OnlyLast.after env [] after handed only kicks
        rw [none] at inside
        exact absurd inside List.not_mem_nil
    | cons first more =>
        obtain ⟨rfl, rfl⟩ := List.cons.inj after_eq
        have isKicked := others handed (by simp [lines_eq]) kicks
        rcases List.mem_append.mp inside with earlier | isNew
        · exact silenced before handed more lines_eq kicks later earlier
        · rw [mine later isNew]
          exact Ne.symm isKicked
  · rw [new_eq] at only
    rw [only.after kicks] at inside
    exact absurd inside List.not_mem_nil

/-! ## While a session reads -/

section Reading

variable (env : Env) (start : Core) (me connection : Nat) (lines : List Handed)

/-- A session reads a packet: nobody else has got an open connection since, and
once a line has kicked the session, no carriage return is left. -/
structure Watching
    (todo : Bytes)
    (core : Core)
    (past : List Obs) : Prop where
  /-- The pointers are in order. -/
  session : Session core me connection
  /-- No user has joined. -/
  nextUser : core.nextUser = start.nextUser
  /-- The other users had their open connections before. -/
  others : ∀ user, user ≠ me → Online core user → Online start user
  /-- The lines of the packet. -/
  turn : ∃ new, handedIn past = lines ++ new ∧
    (∀ handed ∈ new, handed.user = me) ∧
    (Conforms env past →
      (∀ handed ∈ new, ¬ Kicks env handed) ∨
        OnlyLast env new ∧ ¬ Online core me ∧ ¬ HoldsReturn todo)

/-- The session that has been taken over is the user of the protocol. -/
def IsTarget (abort : Abort) (core : Core) (user : Nat) : Prop :=
  abort = .stage .swapped ∧ (core.protocols connection).user = some user

/-- A session has thrown: nobody else has got an open connection, except a
session that has been taken over, and only the last line may have kicked the
session. -/
structure Thrown
    (abort : Abort)
    (core : Core)
    (past : List Obs) : Prop where
  /-- No user has joined. -/
  nextUser : core.nextUser = start.nextUser
  /-- The other users had their open connections before. -/
  others : ∀ user, user ≠ me → Online core user →
    Online start user ∨ IsTarget connection abort core user
  /-- The lines of the packet. -/
  turn : ∃ new, handedIn past = lines ++ new ∧
    (∀ handed ∈ new, handed.user = me) ∧
    (Conforms env past → OnlyLast env new)

end Reading

section Watching

variable {env : Env} {start core reached : Core} {me connection : Nat}
variable {lines : List Handed} {todo left : Bytes} {past obs : List Obs}

/-- A step without a line. -/
theorem Watching.quiet
    (watching : Watching env start me connection lines todo core past)
    (session : Session reached me connection)
    (stays : core.Near reached me)
    (nextUser : reached.nextUser = core.nextUser)
    (noLine : NoLine obs)
    (less : HoldsReturn left → HoldsReturn todo) :
    Watching env start me connection lines left reached (past ++ obs) where
  session := session
  nextUser := nextUser.trans watching.nextUser
  others user different online :=
    watching.others user different (.of_near stays online)
  turn := by
    obtain ⟨new, handed_eq, mine, conforms⟩ := watching.turn
    refine ⟨new, ?_, mine, fun conformsAfter => ?_⟩
    · rw [handedIn_append, handed_eq, show handedIn obs = [] from noLine,
        List.append_nil]
    · rcases conforms conformsAfter.of_append with calm | ⟨only, offline, none⟩
      · exact .inl calm
      · exact .inr ⟨only, fun online => offline (.of_near stays online),
          fun holds => none (less holds)⟩

/-- The user changes without a line. -/
theorem Watching.setUser
    {change : User → User}
    (watching : Watching env start me connection lines todo core past)
    (keeps : User.Keeps change)
    (noLine : NoLine obs)
    (less : HoldsReturn left → HoldsReturn todo) :
    Watching env start me connection lines left (core.setUser me change)
      (past ++ obs) :=
  watching.quiet (watching.session.setUser keeps) (.setUser keeps core me) rfl
    noLine less

/-- A session may throw at any time. -/
theorem Watching.thrown
    (watching : Watching env start me connection lines todo core past)
    (abort : Abort) :
    Thrown env start me connection lines abort core past where
  nextUser := watching.nextUser
  others user different online :=
    .inl (watching.others user different online)
  turn := by
    obtain ⟨new, handed_eq, mine, conforms⟩ := watching.turn
    refine ⟨new, handed_eq, mine, fun conformsNow => ?_⟩
    rcases conforms conformsNow with calm | ⟨only, -⟩
    · exact .of_calm calm
    · exact only

theorem settle_keeps (env : Env) (command : TeloptCommand) :
    User.Keeps (command.settle env) :=
  (command.settle_negotiates env).keeps

theorem incomplete_keeps (buffer : TeloptBuffer) :
    User.Keeps buffer.incomplete := by
  intro user
  unfold TeloptBuffer.incomplete
  split <;> rfl

/-- A line leaves the session watched, or has been thrown. -/
theorem Watching.line
    {handed : Handed}
    (watching : Watching env start me connection lines (cr :: handed.rest)
      handed.core past)
    (isMe : handed.user = me)
    {before after : List Obs}
    (noLine : NoLine before)
    (noLineAfter : NoLine after)
    {follow : List Obs}
    (follows : Follows handed.core follow
      (lineOutcome env me handed.line handed.core).2) :
    match lineOutcome env me handed.line handed.core with
    | (.ok _, reached) =>
        Watching env start me connection lines handed.rest reached
          (past ++ (before ++ [.handed handed] ++ after))
    | (.error abort, reached) =>
        Thrown env start me connection lines abort reached
          (past ++ (before ++ [.handed handed] ++ after)) := by
  obtain ⟨new, handed_eq, mine, conforms⟩ := watching.turn
  have shown : handedIn (past ++ (before ++ [.handed handed] ++ after)) =
      lines ++ (new ++ [handed]) := by
    simp only [handedIn_append, handed_eq, show handedIn before = [] from noLine,
      show handedIn after = [] from noLineAfter]
    simp [handedIn]
  have mineToo : ∀ other ∈ new ++ [handed], other.user = me := by
    intro other inside
    rcases List.mem_append.mp inside with earlier | isLast
    · exact mine other earlier
    · rw [List.mem_singleton.mp isLast, isMe]
  -- a kick before has left no carriage return
  have calm : Conforms env past → ∀ other ∈ new, ¬ Kicks env other := by
    intro conformsNow
    rcases conforms conformsNow with calm | ⟨-, -, none⟩
    · exact calm
    · exact absurd .here none
  have closes := @Kicks.closes env handed
  rw [isMe] at closes
  have effect := lineOutcome_effect env me handed.line handed.core
  have session := watching.session.line effect follows
  have concerns := effect.concerns
  generalize lineOutcome env me handed.line handed.core = outcome at *
  obtain ⟨val, reached⟩ := outcome
  rcases concerns with ⟨stays, -⟩ |
    ⟨taken, other, held, stays, -, client, found, same⟩
  · have others : ∀ user, user ≠ me → Online reached user →
        Online start user := fun user different online =>
      watching.others user different (.of_near stays.toNear online)
    have nextUser := follows.nextUser.trans watching.nextUser
    cases val with
    | error abort =>
        exact ⟨nextUser, fun user different online =>
          .inl (others user different online), new ++ [handed], shown, mineToo,
          fun conformsNow => .append (calm conformsNow.of_append) handed⟩
    | ok value =>
        rcases session with ⟨sessionAfter, -⟩ | ⟨isSwapped, -⟩
        · refine ⟨sessionAfter, nextUser, others, new ++ [handed], shown, mineToo,
            fun conformsNow => ?_⟩
          have calmBefore := calm conformsNow.of_append
          by_cases kicks : Kicks env handed
          · refine .inr ⟨.append calmBefore handed, ?_, ?_⟩
            · rintro ⟨open_, client, isOpen⟩
              obtain ⟨closed, clientBefore, notOpen⟩ := closes kicks
              rw [stays.client, clientBefore] at client
              obtain rfl := Option.some.inj client
              exact notOpen isOpen
            · refine conformsNow.last handed ?_ kicks
              rw [shown]
              simp
          · refine .inl fun other inside => ?_
            rcases List.mem_append.mp inside with earlier | isLast
            · exact calmBefore other earlier
            · rwa [List.mem_singleton.mp isLast]
        · exact absurd isSwapped (by simp)
  · obtain ⟨rfl, rfl⟩ := Prod.mk.inj same
    have isHeld : held = connection := by
      rw [stays.client, watching.session.client] at client
      exact (Option.some.inj client).symm
    subst isHeld
    refine ⟨follows.nextUser.trans watching.nextUser, ?_, new ++ [handed], shown,
      mineToo, fun conformsNow => .append (calm conformsNow.of_append) handed⟩
    intro user different online
    by_cases isOther : user = other
    · refine .inr ⟨rfl, ?_⟩
      rw [Core.protocols_takenOver, if_pos rfl, isOther]
    · refine .inl (watching.others user different (.of_near stays.toNear ?_))
      exact .of_takenOver (Core.findSession_some found).1 different isOther online

end Watching

/-- The rule of a session that reads while it is watched. -/
theorem watching_rule
    (env : Env)
    (start : Core)
    (me connection : Nat)
    (lines : List Handed) :
    ReadRule env me (Watching env start me connection lines)
      (Watching env start me connection lines)
      (Watching env start me connection lines [])
      (fun _ => Watching env start me connection lines [])
      (fun abort _ => Thrown env start me connection lines abort) where
  text := by
    intro byte rest core past isText watching
    obtain ⟨before, after, ran, follows, followsLine⟩ :=
      run_ordinary env me byte rest core
    rw [ran]
    cases complete : handedOf me byte rest core with
    | none =>
        have edits := byteOutcome_edits env complete
        have noLine : NoLine (.text me byte :: (before ++
            (Option.toList none).map .handed ++ after)) := by
          change handedIn (before ++ [] ++ after) = []
          simp [handedIn_of_plain follows.plain,
            handedIn_of_plain followsLine.plain]
        have watchingAfter := watching.quiet (watching.session.edits edits)
          (.edits edits) (by obtain ⟨_, _, -, same⟩ := edits; rw [same]; rfl)
          noLine (HoldsReturn.text isText)
        generalize byteOutcome env me byte core = outcome at *
        obtain ⟨abort | value, reached⟩ := outcome
        · exact watchingAfter.thrown abort
        · exact watchingAfter
    | some handed =>
        obtain ⟨rfl, line, eq, outcome_eq⟩ := byteOutcome_line env complete
        rw [takenAt_of_handed complete] at follows followsLine
        rw [outcome_eq] at followsLine ⊢
        have isMe : handed.user = me := congrArg Handed.user eq
        have rest_eq : handed.rest = rest := congrArg Handed.rest eq
        have edits : core.Edits handed.core me := by
          rw [show handed.core = core.ended me handed.line from
            congrArg Handed.core eq]
          exact Core.edits_ended line
        have watchingAt := watching.quiet (watching.session.edits edits)
          (.edits edits) follows.nextUser (show NoLine [] from rfl)
          (id : HoldsReturn (cr :: rest) → HoldsReturn (cr :: rest))
        rw [List.append_nil, ← rest_eq] at watchingAt
        have noLine : NoLine (.text me cr :: before) := by
          change handedIn before = []
          exact handedIn_of_plain follows.plain
        have watchingAfter := watchingAt.line isMe noLine
          (handedIn_of_plain followsLine.plain) followsLine
        rw [rest_eq] at watchingAfter
        generalize lineOutcome env me handed.line handed.core = outcome at *
        obtain ⟨abort | value, reached⟩ := outcome
        · exact watchingAfter
        · exact watchingAfter
  enter := fun watching => watching
  leave := fun _ _ watching => watching
  command := by
    intro todo core past command size front decoded whole watching obs after
      follows _ _
    refine watching.setUser (settle_keeps env command) ?_
      (HoldsReturn.command front decoded whole)
    change handedIn (obs ++ [_]) = []
    rw [handedIn_append, handedIn_of_plain follows.plain]
    rfl
  notice := by
    intro todo core past _ _ watching obs follows
    exact watching.setUser (fun _ => by rfl) (handedIn_of_plain follows.plain)
      fun holds => holds
  incomplete := by
    intro core past buffer _ _ _ watching
    exact watching.setUser (incomplete_keeps buffer) rfl fun holds =>
      absurd holds not_holdsReturn_nil
  done := fun watching => watching
  stuck := by
    intro todo core past _ watching
    have still : ∀ obs, NoLine obs →
        Watching env start me connection lines [] core (past ++ obs) :=
      fun obs noLine => watching.quiet watching.session
        (Core.Local.refl core me).toNear rfl noLine fun holds =>
          absurd holds not_holdsReturn_nil
    refine ⟨still _ rfl, fun obs idle => (still _ ?_).thrown .hang⟩
    change NoLine obs
    exact ReadRule.noLine_of_idle idle
  cut := by
    intro todo core past command size _ _ _ watching obs incidental
    have noLine : NoLine obs := ReadRule.noLine_of_incidental incidental
    exact watching.setUser (settle_keeps env command) noLine fun holds =>
      absurd holds not_holdsReturn_nil
  noticeLost := by
    intro core past _ watching obs incidental
    have noLine : NoLine obs := ReadRule.noLine_of_incidental incidental
    exact watching.setUser (fun _ => by rfl) noLine fun holds => holds
  endLost := by
    intro core past watching
    have still := watching.quiet watching.session
      (Core.Local.refl core me).toNear rfl
      (show NoLine [.text me 0] from rfl) fun holds => holds
    exact ⟨still, still.thrown .undefined⟩

/-- A session is watched while it reads a packet, as long as what has been
observed is allowed, and packets are only allowed when they can be read and
counted. -/
theorem Session.watches
    {me connection : Nat}
    {reader : Reader}
    {past : List Obs}
    (session : Session reader.core me connection)
    (env : Env)
    (data : Bytes)
    (allowed : List Obs → Prop)
    (closed : ∀ {past more}, allowed (past ++ more) → allowed past)
    (counted : allowed (past ++ [.packet me reader.buffer.pending data]) →
      data.length < maxSize ∧
        reader.buffer.pending.length + data.length < 2 ^ 31)
    (fits : allowed past → ReadRule.Fits reader.buffer) :
    ((uRead env me data).run reader).Ends past
      (fun _ after pastAfter => allowed pastAfter →
        Watching env reader.core me connection (handedIn past) []
            after.core pastAfter ∧ ReadRule.Fits after.buffer)
      fun abort after pastAfter => allowed pastAfter →
        Thrown env reader.core me connection (handedIn past) abort
          after.core pastAfter := by
  have watching : ∀ todo pending,
      Watching env reader.core me connection (handedIn past) todo
        reader.core (past ++ [.packet me pending data]) := by
    intro todo pending
    refine ⟨session, rfl, fun _ _ online => online, [], ?_, by simp,
      fun _ => .inl (by simp)⟩
    simp [handedIn]
  exact (watching_rule env reader.core me connection (handedIn past)).uRead_while
    allowed closed counted fits (fun _ => watching _ _)
    (fun _ _ => watching _ _) fun _ _ => watching _ _

/-! ## The handler -/

/-- The handler has ended the session: it is offline, nobody has got an open
connection, and the session that has been taken over has none. -/
structure Ended
    (me connection : Nat)
    (abort : Abort)
    (core reached : Core) : Prop where
  /-- The pointers are in order. -/
  linked : Linked reached
  /-- No user has joined. -/
  nextUser : reached.nextUser = core.nextUser
  /-- The identifiers are counted from where they were. -/
  count : reached.autoID.count = core.autoID.count
  /-- The users are the same but for being alive and having a client. -/
  users : ∀ user, ∃ alive client, reached.users user =
    { core.users user with alive := alive, client := client }
  /-- The session is offline. -/
  offline : ¬ Online reached me
  /-- The others had their open connections before. -/
  others : ∀ user, user ≠ me → Online reached user →
    Online core user ∧ ¬ IsTarget connection abort core user

/-- The handler of an abandoned login ends the session. -/
theorem ended_abandoned
    {core : Core}
    {me connection : Nat}
    (session : Session core me connection) :
    Ended me connection (.stage .disconnect) core (abandoned core me) := by
  obtain ⟨linked, shrinks⟩ := session.abandoned
  obtain ⟨-, nextUser, -, -, autoID⟩ :=
    destroyed_rest (core.disconnected me) me
  obtain ⟨connections, eq⟩ := core.disconnected_eq me
  refine ⟨linked, ?_, ?_, fun user => ?_, ?_, fun user _ online => ⟨?_, ?_⟩⟩
  · rw [abandoned, nextUser, eq]
  · rw [abandoned, autoID, eq]
    rfl
  · obtain ⟨alive, client, same, -⟩ := shrinks.users user
    exact ⟨alive, client, same⟩
  · rintro ⟨held, client, -⟩
    rw [abandoned, users_destroyed, if_pos rfl] at client
    exact absurd client (by simp)
  · exact .of_shrinks shrinks online
  · rintro ⟨isSwapped, -⟩
    exact absurd isSwapped (by simp)

/-- The handler of a takeover ends both sessions. -/
theorem ended_swapped
    {core : Core}
    {me other connection : Nat}
    (session : Session core me connection)
    (found : core.findSession me = some other) :
    Ended me connection (.stage .swapped)
      (core.takenOver me other connection)
      (swapped core me other connection) := by
  obtain ⟨different, -, -⟩ := Core.findSession_some found
  have users := users_destroyed (core.takenOver me other connection) other
  obtain ⟨connections, nextUser, -, -, autoID⟩ :=
    destroyed_rest (core.takenOver me other connection) other
  have gone : ∀ user, user = me ∨ user = other →
      ¬ Online (swapped core me other connection) user := by
    rintro user isGone ⟨held, client, -⟩
    rw [swapped, users] at client
    rcases isGone with rfl | rfl
    · rw [if_neg (Ne.symm different),
        core.users_takenOver connection different, if_pos rfl] at client
      exact absurd client (by simp)
    · rw [if_pos rfl] at client
      exact absurd client (by simp)
  refine ⟨(session.swapped found).1, nextUser, ?_, fun user => ?_,
    gone me (.inl rfl), fun user _ online => ?_⟩
  · rw [swapped, autoID]
    rfl
  · obtain ⟨alive, client, same, -⟩ :=
      (Shrinks.destroyed (core.takenOver me other connection) other).users user
    exact ⟨alive, client, same⟩
  · have notOther : user ≠ other := fun isOther =>
      gone user (.inr isOther) online
    refine ⟨?_, fun isTarget => notOther ?_⟩
    · obtain ⟨held, client, isOpen⟩ := online
      rw [swapped, users, if_neg notOther] at client
      rw [swapped, connections] at isOpen
      exact ⟨held, client, isOpen⟩
    · have target := isTarget.2
      rw [Core.protocols_takenOver, if_pos rfl] at target
      exact (Option.some.inj target).symm

/-- The handler ends the session that has thrown a stage. -/
theorem Left.ended
    {core : Core}
    {me connection : Nat}
    {stage : UserStage}
    (left : Left (fun _ => True) (fun _ => True) me connection (.stage stage)
      core) :
    ∃ reached, (catchStage connection (.stage stage)).run core =
        ⟨.ok (), reached, []⟩ ∧
      Ended me connection (.stage stage) core reached := by
  rcases left with ⟨session, -, stages⟩ |
    ⟨isSwapped, before, other, session, found, -, rfl⟩
  · obtain rfl := stages stage rfl
    exact ⟨_, run_catchStage_disconnect session,
      ended_abandoned session⟩
  · rw [isSwapped]
    exact ⟨_, run_catchStage_swapped session found,
      ended_swapped session found⟩

/-! ## The server -/

/-- What keeps kicked sessions silent: they have no open connection any more.
The pending bytes of the others can be counted, and there are none of users
that have not joined. -/
structure Hushed (env : Env) (server : Server) (lines : List Handed) : Prop where
  /-- No line has followed a kick. -/
  silenced : Silenced env lines
  /-- Who has been kicked is offline, and has joined before. -/
  offline : ∀ handed ∈ lines, Kicks env handed →
    handed.user < server.core.nextUser ∧ ¬ Online server.core handed.user
  /-- The pending bytes are in their buffers. -/
  fits : ∀ user, Online server.core user →
    ReadRule.Fits (server.buffers user)
  /-- Who has not joined has no pending bytes. -/
  unused : ∀ user, server.core.nextUser ≤ user → server.buffers user = {}

section Hushed

variable {env : Env} {server : Server} {reached : Core} {lines : List Handed}

/-- Sessions may have ended. -/
theorem Hushed.shrinks
    (hushed : Hushed env server lines)
    (shrinks : Shrinks server.core reached)
    (nextUser : reached.nextUser = server.core.nextUser) :
    Hushed env { server with core := reached } lines where
  silenced := hushed.silenced
  offline handed inside kicks := by
    obtain ⟨joined, offline⟩ := hushed.offline handed inside kicks
    exact ⟨nextUser ▸ joined, fun online => offline (.of_shrinks shrinks online)⟩
  fits user online := hushed.fits user (.of_shrinks shrinks online)
  unused user later := hushed.unused user (nextUser ▸ later)

/-- A session joins. -/
theorem Hushed.joined
    (hushed : Hushed env server lines)
    (connection autoId : Nat)
    (autoID : AutoID) :
    Hushed env { server with
      core := Network.joined server.core connection autoId autoID } lines := by
  have nextUser : (Network.joined server.core connection autoId
      autoID).nextUser = server.core.nextUser + 1 := rfl
  have before : ∀ user, user ≠ server.core.nextUser →
      Online (Network.joined server.core connection autoId autoID) user →
        Online server.core user := by
    rintro user different ⟨held, client, isOpen⟩
    rw [users_joined, if_neg different] at client
    exact ⟨held, client, isOpen⟩
  refine ⟨hushed.silenced, fun handed inside kicks => ?_,
    fun user online => ?_, fun user later => ?_⟩
  · obtain ⟨joined, offline⟩ := hushed.offline handed inside kicks
    refine ⟨?_, fun online => offline (before _ (by omega) online)⟩
    rw [nextUser]
    omega
  · by_cases isNew : user = server.core.nextUser
    · have none := hushed.unused user (le_of_eq isNew.symm)
      simp only at none ⊢
      rw [none]
      exact ⟨Nat.le_refl _, Nat.two_pow_pos 31⟩
    · exact hushed.fits user (before user isNew online)
  · exact hushed.unused user (by
      simp only [nextUser] at later
      omega)

/-- A session has read a packet, in which only the last line may have kicked
it, and then it is offline. -/
theorem Hushed.read
    {me : Nat}
    {reader : Reader}
    {new : List Handed}
    (hushed : Hushed env server lines)
    (online : Online server.core me)
    (joined : me < server.core.nextUser)
    (nextUser : reader.core.nextUser = server.core.nextUser)
    (others : ∀ user, user ≠ me → Online reader.core user →
      Online server.core user)
    (mine : ∀ handed ∈ new, handed.user = me)
    (only : OnlyLast env new)
    (offline : (∀ handed ∈ new, ¬ Kicks env handed) ∨ ¬ Online reader.core me)
    (fits : Online reader.core me → ReadRule.Fits reader.buffer) :
    Hushed env (server.read me reader) (lines ++ new) := by
  have notMe : ∀ handed ∈ lines, Kicks env handed → handed.user ≠ me := by
    rintro handed inside kicks rfl
    exact (hushed.offline handed inside kicks).2 online
  refine ⟨hushed.silenced.append notMe mine only,
    fun handed inside kicks => ?_, fun user isOnline => ?_,
    fun user later => ?_⟩
  · change _ < reader.core.nextUser ∧ ¬ Online reader.core _
    rw [nextUser]
    rcases List.mem_append.mp inside with earlier | isNew
    · obtain ⟨joinedBefore, offlineBefore⟩ :=
        hushed.offline handed earlier kicks
      exact ⟨joinedBefore, fun isOnline => offlineBefore
        (others _ (notMe handed earlier kicks) isOnline)⟩
    · rw [mine handed isNew]
      exact ⟨joined, offline.resolve_left fun calm =>
        calm handed isNew kicks⟩
  · change Online reader.core user at isOnline
    by_cases isMe : user = me
    · subst isMe
      simpa [Server.read] using fits isOnline
    · simpa [Server.read, isMe] using
        hushed.fits user (others user isMe isOnline)
  · have atLeast : server.core.nextUser ≤ user := nextUser ▸ later
    have different : user ≠ me := by omega
    simpa [Server.read, different] using hushed.unused user atLeast

end Hushed

/-- The pointers are in order, and as long as the condition is met, kicked
sessions are silent. -/
def Guarded (env : Env) (server : Server) (past : List Obs) : Prop :=
  Linked server.core ∧
    (Conforms env past → Hushed env server (handedIn past))

/-- How the server ends that goes down. -/
def EndsSilenced (env : Env) (past : List Obs) : Prop :=
  Conforms env past → Silenced env (handedIn past)

section Guarded

variable {env : Env} {server : Server} {past : List Obs}

theorem Guarded.ends
    (guarded : Guarded env server past) : EndsSilenced env past :=
  fun conforms => (guarded.2 conforms).silenced

/-- Sessions may have ended, with some output. -/
theorem Guarded.shrinks
    {reached : Core}
    {obs : List Obs}
    (guarded : Guarded env server past)
    (linked : Linked reached)
    (shrinks : Shrinks server.core reached)
    (nextUser : reached.nextUser = server.core.nextUser)
    (plain : ∀ observation ∈ obs, observation.Plain) :
    Guarded env { server with core := reached } (past ++ obs) := by
  refine ⟨linked, fun conforms => ?_⟩
  rw [handedIn_append, handedIn_of_plain plain, List.append_nil]
  exact (guarded.2 conforms.of_append).shrinks shrinks nextUser

/-- Whoever enters keeps the guard. -/
theorem Guarded.enters
    {connection : Nat}
    {entered : Core}
    {obs : List Obs}
    (guarded : Guarded env server past)
    (isOpen : (server.core.connections connection).state = .open)
    (enters : Enters connection server.core entered obs) :
    Guarded env { server with core := entered } (past ++ obs) := by
  refine ⟨guarded.1.enters isOpen enters, fun conforms => ?_⟩
  rw [handedIn_append, handedIn_of_plain enters.plain, List.append_nil]
  have hushed := guarded.2 conforms.of_append
  cases enters with
  | known => exact hushed
  | first new constructed =>
      exact (hushed.shrinks (.seen server.core connection) rfl).joined _ _ _

/-- The handler deals with what the session has thrown. -/
theorem Guarded.catches
    {me connection : Nat}
    {abort : Abort}
    {reader : Reader}
    {after : List Obs}
    (guarded : Guarded env server past)
    (session : Session server.core me connection)
    (isOpen : (server.core.connections connection).state = .open)
    (earlier : Conforms env after → Conforms env past)
    (left : Left (fun _ => True) (fun _ => True) me connection abort
      reader.core)
    (thrown : Conforms env after →
      Thrown env server.core me connection (handedIn past) abort
        reader.core after) :
    ((catchStage connection abort).run reader.core).Ends after
      (fun _ core => Guarded env (server.read me ⟨core, reader.buffer⟩))
      fun _ _ => EndsSilenced env := by
  -- the handler takes the session offline
  have ends : ∀ core, core.nextUser = reader.core.nextUser →
      ¬ Online core me → (∀ user, user ≠ me → Online core user →
        Online reader.core user ∧
          ¬ IsTarget connection abort reader.core user) →
      Conforms env after →
        Hushed env (server.read me ⟨core, reader.buffer⟩) (handedIn after) := by
    intro core nextUser offline others conforms
    obtain ⟨joins, onlines, new, handed_eq, mine, only⟩ := thrown conforms
    rw [handed_eq]
    refine (guarded.2 (earlier conforms)).read
      ⟨connection, session.client, isOpen⟩ session.joined
      (nextUser.trans joins) (fun user different online => ?_) mine
      (only conforms) (.inr offline) fun online => absurd online offline
    obtain ⟨onlineBefore, notTarget⟩ := others user different online
    exact (onlines user different onlineBefore).resolve_right notTarget
  have silenced : EndsSilenced env after := by
    intro conforms
    obtain ⟨-, -, new, handed_eq, mine, only⟩ := thrown conforms
    have hushed := guarded.2 (earlier conforms)
    rw [handed_eq]
    refine hushed.silenced.append ?_ mine (only conforms)
    rintro handed inside kicks rfl
    exact (hushed.offline handed inside kicks).2
      ⟨connection, session.client, isOpen⟩
  by_cases isStage : ∃ stage, abort = .stage stage
  · obtain ⟨stage, rfl⟩ := isStage
    obtain ⟨reached, ran, ended⟩ := left.ended
    rw [ran, Run.ends_ok, List.append_nil]
    exact ⟨ended.linked, ends _ ended.nextUser ended.offline ended.others⟩
  · rw [run_catchStage_other (not_exists.mp isStage), Run.ends_error,
      List.append_nil]
    exact silenced

/-- A session reads a packet, and the handler deals with what it throws. -/
theorem Guarded.reads
    {me connection : Nat}
    {data : Bytes}
    (guarded : Guarded env server past)
    (session : Session server.core me connection)
    (isOpen : (server.core.connections connection).state = .open)
    (nonempty : data ≠ []) :
    ((uRead env me data).run ⟨server.core, server.buffers me⟩).Ends past
      (fun _ reader => Guarded env (server.read me reader))
      fun abort reader after =>
        ((catchStage connection abort).run reader.core).Ends after
          (fun _ core => Guarded env (server.read me ⟨core, reader.buffer⟩))
          fun _ _ => EndsSilenced env := by
  have earlier : ((uRead env me data).run
      ⟨server.core, server.buffers me⟩).Ends past
      (fun _ _ after => Conforms env after → Conforms env past)
      fun _ _ after => Conforms env after → Conforms env past :=
    Run.ends_of_forall _ (fun _ _ _ conforms => conforms.of_append)
      fun _ _ _ conforms => conforms.of_append
  have linked := @TraceInvariant.reads env _ (linked_invariant env).traces
    server past me connection data session isOpen nonempty trivial
  have watches := @Session.watches me connection
    ⟨server.core, server.buffers me⟩ past session env data (Conforms env)
    Conforms.of_append
    (fun conforms => conforms.sized
      (.packet me (server.buffers me).pending data) (by simp))
    fun conforms => (guarded.2 conforms).fits me
      ⟨connection, session.client, isOpen⟩
  refine ((linked.and watches).and earlier).mono ?_ ?_
  · rintro _ reader after ⟨⟨⟨linkedAfter, -⟩, watched⟩, prefixed⟩
    refine ⟨linkedAfter, fun conforms => ?_⟩
    obtain ⟨watching, fits⟩ := watched conforms
    obtain ⟨new, handed_eq, mine, turns⟩ := watching.turn
    have turn := turns conforms
    change Hushed env (server.read me reader) (handedIn after)
    rw [handed_eq]
    refine (guarded.2 (prefixed conforms)).read
      ⟨connection, session.client, isOpen⟩ session.joined watching.nextUser
      watching.others mine ?_ (turn.imp id fun kicked => kicked.2.1)
      fun _ => fits
    exact turn.elim .of_calm fun kicked => kicked.1
  · rintro abort reader after ⟨⟨left, thrown⟩, prefixed⟩
    exact guarded.catches session isOpen prefixed left thrown

/-- A packet arrives. -/
theorem Guarded.receives
    (guarded : Guarded env server past)
    (connection : Nat)
    (data : Bytes) :
    ((receive env connection data).run server).Ends past
      (fun _ => Guarded env) fun _ _ => EndsSilenced env := by
  have shrunk : ∀ core, Linked core → Shrinks server.core core →
      core.nextUser = server.core.nextUser →
        Guarded env { server with core := core } past := by
    intro core linked shrinks nextUser
    have after := guarded.shrinks linked shrinks nextUser
      (show ∀ observation ∈ [], Obs.Plain observation by simp)
    rwa [List.append_nil] at after
  refine receive_ends guarded.1 ?_ ?_ ?_ ?_
  · intro _
    exact shrunk _ (guarded.1.closeConnection connection)
      (.closeConnection server.core connection) (by simp)
  · intro _
    exact (guarded.shrinks (guarded.1.seen connection)
      (.seen server.core connection) rfl (by simp [Obs.Plain])).ends
  · exact fun entered obs enters isOpen => guarded.enters isOpen enters
  · intro entered obs me enters isOpen session nonempty
    exact (guarded.enters isOpen enters).reads session (enters.isOpen isOpen)
      nonempty

/-- Whatever happens. -/
theorem Guarded.reacts
    (guarded : Guarded env server past)
    (event : Event) :
    ((react env event).run server).Ends past
      (fun _ => Guarded env) fun _ _ => EndsSilenced env := by
  cases event with
  | accept =>
      rw [react, inServer, Prog.run_zoom, run_acceptConnection]
      exact guarded.shrinks guarded.1.accepted (.accepted guarded.1) rfl
        (by simp [Obs.Plain])
  | packet connection data => exact guarded.receives connection data
  | closeRequest connection =>
      rw [react, inServer, Prog.run_zoom, Prog.run_modify, Run.ends_ok]
      exact guarded.shrinks (guarded.1.closeConnection connection)
        (.closeConnection server.core connection) (by simp) (by simp)
  | closeTask connection pendingWrite =>
      obtain ⟨obs, ran, plain⟩ :=
        run_closeConnectionTask connection pendingWrite server.core
      rw [react, inServer, Prog.run_zoom, ran]
      refine guarded.shrinks (guarded.1.closedDown connection pendingWrite)
        (.closedDown connection pendingWrite guarded.1) ?_ plain
      obtain ⟨users, protocols, connections, eq, -⟩ :=
        @closedDown_eq server.core connection pendingWrite
      rw [eq]
  | deleteProtocol protocol =>
      rw [react, inServer, Prog.run_zoom, run_deleteProtocolTask, Run.ends_ok]
      refine guarded.shrinks (guarded.1.deleted protocol)
        (.deleted server.core protocol) ?_ (by simp)
      unfold deleted
      split <;> rfl

end Guarded

/-- The server is guarded, unless it is down. -/
def World.Guards (env : Env) (world : World) : Prop :=
  (world.down = none → Guarded env world.server world.trace) ∧
    EndsSilenced env world.trace

/-- One event keeps the guard. -/
theorem World.guards_step
    {env : Env}
    {world : World}
    (guards : world.Guards env)
    (event : Event) : (world.step env event).Guards env := by
  unfold World.step
  split
  · exact guards
  · rename_i up
    have reacts := (guards.1 up).reacts event
    simp only
    generalize (react env event).run world.server = ran at reacts ⊢
    obtain ⟨abort | value, server, obs⟩ := ran
    · exact ⟨fun isUp => absurd isUp (by simp), reacts⟩
    · exact ⟨fun _ => reacts, Guarded.ends reacts⟩

/-- Nobody has been kicked at the start. -/
theorem World.guards_start (env : Env) (rows : List Database.Row) :
    (World.start rows).Guards env := by
  have guarded : Guarded env (World.start rows).server [] := by
    refine ⟨linked_start rows, fun _ => ⟨?_, by simp [handedIn], ?_,
      fun _ _ => rfl⟩⟩
    · intro before handed after split
      simp [handedIn] at split
    · exact fun _ _ => ⟨Nat.le_refl _, Nat.two_pow_pos 31⟩
  exact ⟨fun _ => guarded, guarded.ends⟩

theorem World.guards_after
    (env : Env)
    (rows : List Database.Row)
    (events : List Event) : (World.after env rows events).Guards env :=
  World.after_keeps (World.Guards env) (World.guards_start env rows)
    (fun event guards => World.guards_step guards event) events

/-- In every run in which no carriage return follows a line in its packet that
kicks its session, no line of a session follows one that has kicked it. -/
theorem silenced_after
    (env : Env)
    (rows : List Database.Row)
    (events : List Event)
    (conforms : Conforms env (World.after env rows events).trace) :
    Silenced env (handedIn (World.after env rows events).trace) :=
  (World.guards_after env rows events).2 conforms

/-- Ann registers and quits; what she sends then is not read. -/
def annQuits : List Event :=
  [.accept, .packet 0 (lit "ann\rsecret\rsecret\r\r"), .packet 0 (lit "quit\r"),
    .packet 0 (lit "say hi\r")]

instance : (observation : Obs) → Decidable (Obs.Sized observation)
  | .packet _ pending data =>
      inferInstanceAs (Decidable (data.length < maxSize ∧
        pending.length + data.length < 2 ^ 31))
  | .wrote _ _ => .isTrue trivial
  | .nullConnection _ => .isTrue trivial
  | .dangling _ => .isTrue trivial
  | .text _ _ => .isTrue trivial
  | .telopt _ _ => .isTrue trivial
  | .consumed _ _ _ _ => .isTrue trivial
  | .handed _ => .isTrue trivial
  | .kicked _ => .isTrue trivial
  | .draw _ => .isTrue trivial

theorem conforms_ann :
    Conforms (Env.testing [])
      (World.after (Env.testing []) [] annQuits).trace where
  sized := by decide +kernel
  last := by
    have last : ∀ handed ∈
        handedIn (World.after (Env.testing []) [] annQuits).trace,
        Kicks (Env.testing []) handed → handed.rest = [] := by
      decide +kernel
    intro handed inside kicks
    rw [last handed inside kicks]
    exact not_holdsReturn_nil

/-- Ann's session is silent once she has quit. -/
theorem silenced_after_ann :
    Silenced (Env.testing [])
      (handedIn (World.after (Env.testing []) [] annQuits).trace) :=
  silenced_after (Env.testing []) [] annQuits conforms_ann

/-- Ann quits and goes on in the same packet. -/
def annGoesOn : List Event :=
  [.accept, .packet 0 (lit "ann\rsecret\rsecret\r\r"),
    .packet 0 (lit "quit\rsay hi\r")]

/-- The lines that are read. -/
def annLinesOn : List Handed :=
  handedIn (World.after (Env.testing []) [] annGoesOn).trace

/-- A line that follows `quit` in its packet is given to the command line. -/
theorem line_after_quit :
    ¬ ∀ env rows events,
      Silenced env (handedIn (World.after env rows events).trace) := by
  intro always
  have silenced : Silenced (Env.testing []) annLinesOn :=
    always (Env.testing []) [] annGoesOn
  obtain ⟨goesOn, kicks, same⟩ : ∃ goesOn : 5 < annLinesOn.length,
      Kicks (Env.testing []) annLinesOn[4] ∧
        annLinesOn[5].user = annLinesOn[4].user := by
    decide +kernel
  have quits : 4 < annLinesOn.length := Nat.lt_of_succ_lt goesOn
  refine silenced (annLinesOn.take 4) annLinesOn[4] (annLinesOn.drop 5) ?_ kicks
    annLinesOn[5] ?_ same
  · rw [← List.drop_eq_getElem_cons quits, List.take_append_drop]
  · rw [List.drop_eq_getElem_cons goesOn]
    exact List.mem_cons_self

end Network
end Lotospp
