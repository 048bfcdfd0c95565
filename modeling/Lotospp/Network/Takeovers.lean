import Lotospp.Common.Credentials
import Lotospp.Network.Invariant

/-!
# Takeovers

A session that enters the right password while another listed session has its
name takes that one over: `User::uConnect` attaches it to the new connection
and throws.  The handler in `Telnet::parsePacket` then deletes the user of the
protocol, which by now is the session that has been taken over.
-/

namespace Lotospp
namespace Network

open Text Effect Common Commands

/-- Another listed user has exactly the name of this one. -/
def SameName (core : Core) (me other : Nat) : Prop :=
  other ≠ me ∧ other ∈ core.listUser.map Prod.snd ∧
    (core.users me).name = (core.users other).name

instance (core : Core) (me other : Nat) : Decidable (SameName core me other) :=
  inferInstanceAs (Decidable (_ ∧ _ ∧ _))

/-- The account can be read again: the query finds no row, or one whose level
is converted. -/
def Reloads (env : Env) (me : Nat) (core : Core) : Prop :=
  ∀ row ∈ (core.db.select env.dbFails (core.users me).name).1,
    fromInteger UserLevel.table env.userLevelEnd row.level ≠ none

/-! ## What a right password does -/

section RightPassword

variable {env : Env} {me connection : Nat} {line : Bytes} {core : Core}

/-- A right password admits the session, if the account can be read again. -/
theorem lineOutcome_right (right : RightPassword env me line core) :
    lineOutcome env me line core =
      match loadOutcome env me (core.users me).name false core with
      | (.error abort, core) => (.error abort, core)
      | (.ok _, core) => connectOutcome me (core.admitted me) := by
  obtain ⟨⟨level, stage⟩, long, password, cached, nonempty, matching⟩ := right
  obtain ⟨first, others, rfl⟩ := List.exists_cons_of_ne_nil nonempty
  rw [lineOutcome, if_pos level, loginOutcome, stage]
  simp only
  rw [pwdOutcome, if_neg (not_lt.mpr long), Option.mem_def.mp cached]
  exact if_pos matching

theorem listUser_load (userName : Bytes) (preload : Bool) :
    (loadOutcome env me userName preload core).2.listUser = core.listUser := by
  apply @loadOutcome_intro env me userName preload core
    fun now => now.listUser = core.listUser
  · rfl
  · exact fun _ _ same => same
  · exact fun _ _ same => same

/-- Reading the account again leaves the session that is found. -/
theorem findSession_reloaded (userName : Bytes) (preload : Bool) :
    ((loadOutcome env me userName preload core).2.admitted me).findSession me =
      core.findSession me := by
  have listUser := @listUser_load env me core userName preload
  have stays := Core.Local.load env me userName preload core
  obtain ⟨password, level, credentials⟩ :=
    credentials_load env me core userName preload
  generalize (loadOutcome env me userName preload core).2 = reached at *
  have mine : (reached.users me).name = (core.users me).name :=
    congrArg Credentials.name credentials
  have name : ∀ user, ((reached.admitted me).users user).name =
      (core.users user).name := by
    intro user
    rw [Core.admitted, Core.setUser_forall User.name (fun _ => by rfl)]
    by_cases isMe : user = me
    · rw [isMe, mine]
    · rw [stays.others user isMe]
  unfold Core.findSession
  simp only [name]
  rw [show (reached.admitted me).listUser = core.listUser from listUser]

theorem findSession_eq_none_iff :
    core.findSession me = none ↔ ∀ other, ¬ SameName core me other := by
  simp only [Core.findSession, List.find?_eq_none, decide_eq_true_eq, SameName,
    not_and]
  exact ⟨fun apart other different inside => apart other inside different,
    fun apart other inside different => apart other different inside⟩

theorem sameName_of_findSession
    {other : Nat}
    (found : core.findSession me = some other) : SameName core me other :=
  Core.findSession_some found

/-- If the account can be read again, the session enters the command line or
takes over. -/
theorem loadOutcome_reloads (reloads : Reloads env me core) :
    ∃ found, (loadOutcome env me (core.users me).name false core).1 =
      .ok found := by
  unfold loadOutcome
  simp only
  cases answer : (core.db.select env.dbFails (core.users me).name).1 with
  | none => exact ⟨false, rfl⟩
  | some row =>
      have converts := reloads row answer
      cases level : fromInteger UserLevel.table env.userLevelEnd row.level with
      | none => exact absurd level converts
      | some value => exact ⟨true, by simp [level]⟩

/-- Otherwise the line ends with an exception. -/
theorem loadOutcome_refuses (refuses : ¬ Reloads env me core) :
    (loadOutcome env me (core.users me).name false core).1 =
      .error .enumConversion := by
  unfold Reloads at refuses
  push Not at refuses
  obtain ⟨row, answer, level⟩ := refuses
  unfold loadOutcome
  simp only [Option.mem_def.mp answer, level]
  rfl

/-- The line throws when the account cannot be read again. -/
theorem lineOutcome_refuses
    (right : RightPassword env me line core)
    (refuses : ¬ Reloads env me core) :
    (lineOutcome env me line core).1 = .error .enumConversion := by
  have throws := loadOutcome_refuses refuses
  rw [lineOutcome_right right]
  generalize loadOutcome env me (core.users me).name false core = loaded
    at throws ⊢
  obtain ⟨val, reached⟩ := loaded
  subst throws
  rfl

/-- The line enters the command line when nobody else has the name. -/
theorem lineOutcome_alone
    (right : RightPassword env me line core)
    (reloads : Reloads env me core)
    (alone : ∀ other, ¬ SameName core me other) :
    (lineOutcome env me line core).1 = .ok () := by
  obtain ⟨found, ok⟩ := loadOutcome_reloads reloads
  have same := @findSession_reloaded env me core (core.users me).name false
  rw [findSession_eq_none_iff.mpr alone] at same
  rw [lineOutcome_right right]
  generalize loadOutcome env me (core.users me).name false core = loaded
    at ok same ⊢
  obtain ⟨val, reached⟩ := loaded
  simp only at ok same
  subst ok
  simp only [connectOutcome, same]

/-- The line takes a session over when another one has the name. -/
theorem lineOutcome_switches
    {rival : Nat}
    (session : Session core me connection)
    (right : RightPassword env me line core)
    (reloads : Reloads env me core)
    (same : SameName core me rival) :
    ∃ before other, Session before me connection ∧
      before.findSession me = some other ∧ SameName core me other ∧
      lineOutcome env me line core =
        (.error (.stage .swapped), before.takenOver me other connection) := by
  obtain ⟨found, ok⟩ := loadOutcome_reloads reloads
  obtain ⟨other, isOther⟩ : ∃ other, core.findSession me = some other := by
    rw [← Option.ne_none_iff_exists']
    exact fun alone => findSession_eq_none_iff.mp alone rival same
  have search := @findSession_reloaded env me core (core.users me).name false
  rw [isOther] at search
  rw [lineOutcome_right right]
  cases loaded : loadOutcome env me (core.users me).name false core with
  | mk val reached =>
      rw [loaded] at ok search
      simp only at ok search
      subst ok
      have sessionAfter : Session (reached.admitted me) me connection :=
        (session.loaded loaded).setUser fun _ => by rfl
      refine ⟨reached.admitted me, other, sessionAfter, search,
        sameName_of_findSession isOther, ?_⟩
      simp only [connectOutcome, search, sessionAfter.client]

end RightPassword

/-! ## What becomes of a packet -/

/-- A line of the connection's session has returned. -/
def Returned (env : Env) (connection : Nat) (handed : Handed) : Prop :=
  Session handed.core handed.user connection ∧
    (lineOutcome env handed.user handed.line handed.core).1 = .ok ()

/-- All lines but the last have returned, and that one has thrown. -/
def Threw
    (env : Env)
    (connection : Nat)
    (lines : List Handed)
    (thrown : Handed → Prop) : Prop :=
  ∃ before last, lines = before ++ [last] ∧
    (∀ handed ∈ before, Returned env connection handed) ∧
    Session last.core last.user connection ∧ thrown last

/-- A line that has not returned is the last one. -/
theorem Threw.last
    {env : Env}
    {connection : Nat}
    {lines : List Handed}
    {thrown : Handed → Prop}
    {handed : Handed}
    (threw : Threw env connection lines thrown)
    (inside : handed ∈ lines)
    (notReturned : ¬ Returned env connection handed) :
    Session handed.core handed.user connection ∧ thrown handed := by
  obtain ⟨before, last, rfl, returned, session, throws⟩ := threw
  rcases List.mem_append.mp inside with earlier | atEnd
  · exact absurd (returned handed earlier) notReturned
  · obtain rfl := List.mem_singleton.mp atEnd
    exact ⟨session, throws⟩

/-- How a packet ends, by the lines that were handed over. -/
inductive PacketEnd
    (env : Env)
    (connection : Nat)
    (lines : List Handed) : Except Abort Unit → Core → Prop
  /-- All lines have returned. -/
  | returned
      {val : Except Abort Unit}
      {core : Core}
      (returned : ∀ handed ∈ lines, Returned env connection handed) :
      PacketEnd env connection lines val core
  /-- The last line has abandoned the login. -/
  | abandoned
      {core : Core}
      (threw : Threw env connection lines fun last =>
        (lineOutcome env last.user last.line last.core).1 =
          .error (.stage .disconnect)) :
      PacketEnd env connection lines (.ok ()) core
  /-- The last line has taken a session over, and the handler has destroyed
  it. -/
  | switched
      {core : Core}
      (threw : Threw env connection lines fun last =>
        ∃ before other, Session before last.user connection ∧
          before.findSession last.user = some other ∧
          lineOutcome env last.user last.line last.core =
            (.error (.stage .swapped),
              before.takenOver last.user other connection) ∧
          core = swapped before last.user other connection) :
      PacketEnd env connection lines (.ok ()) core
  /-- The last line has thrown an exception that is not caught. -/
  | escaped
      {abort : Abort}
      {core : Core}
      (noStage : ∀ stage, abort ≠ .stage stage)
      (threw : Threw env connection lines fun last =>
        (lineOutcome env last.user last.line last.core).1 = .error abort) :
      PacketEnd env connection lines (.error abort) core

/-- The lines so far have returned. -/
def AllReturned
    (env : Env)
    (me connection : Nat)
    (core : Core)
    (lines : List Handed) : Prop :=
  Session core me connection ∧ ∀ handed ∈ lines, Returned env connection handed

/-- The session has thrown: between lines, or with its last line. -/
def HasThrown
    (env : Env)
    (me connection : Nat)
    (abort : Abort)
    (core : Core)
    (lines : List Handed) : Prop :=
  AllReturned env me connection core lines ∧
      (∀ stage, abort ≠ .stage stage) ∨
    Threw env connection lines fun last => last.user = me ∧
      lineOutcome env me last.line last.core = (.error abort, core) ∧
      ∃ obs, Follows last.core obs core

/-- A session that reads: its lines return until one throws. -/
theorem allReturned_reads (env : Env) (me connection : Nat) :
    ReadInvariant env me (AllReturned env me connection)
      (HasThrown env me connection) where
  negotiates := by
    rintro core past change changes ⟨session, returned⟩
    exact ⟨session.setUser changes.keeps, returned⟩
  notices := by
    rintro core past due ⟨session, returned⟩
    exact ⟨session.setUser fun _ => by rfl, returned⟩
  faults := by
    rintro abort core past fault holds
    refine .inl ⟨holds, ?_⟩
    rintro stage rfl
    rcases fault with fault | fault | fault <;> exact absurd fault (by simp)
  takes := by
    rintro byte rest core past ⟨session, returned⟩
    cases complete : handedOf me byte rest core with
    | none =>
        have edits := byteOutcome_edits env complete
        have sessionAfter := session.edits edits
        have noStage := @byteOutcome_noStage env me byte rest core complete
        simp only [Option.toList_none, List.append_nil]
        generalize byteOutcome env me byte core = outcome at *
        obtain ⟨abort | value, reached⟩ := outcome
        · exact .inl ⟨⟨sessionAfter, returned⟩, fun stage same =>
            absurd (congrArg Except.error same) (noStage stage)⟩
        · exact ⟨sessionAfter, returned⟩
    | some handed =>
        obtain ⟨-, line, eq, outcome_eq⟩ := byteOutcome_line env complete
        obtain ⟨-, obs, follows⟩ := byteOutcome_follows env me byte core
        rw [takenAt_of_handed complete, outcome_eq] at follows
        have isMe : handed.user = me := congrArg Handed.user eq
        have core_eq : handed.core = core.ended me handed.line :=
          congrArg Handed.core eq
        have sessionAt := session.edits (Core.edits_ended line)
        rw [← core_eq] at sessionAt
        have ends := sessionAt.line
          (lineOutcome_effect env me handed.line handed.core) follows
        rw [outcome_eq]
        simp only [Option.toList_some]
        cases outcome : lineOutcome env me handed.line handed.core with
        | mk val reached =>
            rw [outcome] at ends follows
            cases val with
            | error abort =>
                exact .inr ⟨past, handed, rfl, returned, isMe ▸ sessionAt, isMe,
                  outcome, obs, follows⟩
            | ok value =>
                rcases ends with ⟨sessionAfter, -⟩ | ⟨isSwapped, -⟩
                · refine ⟨sessionAfter, fun other inside => ?_⟩
                  rcases List.mem_append.mp inside with earlier | isLast
                  · exact returned other earlier
                  · obtain rfl := List.mem_singleton.mp isLast
                    rw [Returned, isMe, outcome]
                    exact ⟨sessionAt, rfl⟩
                · exact absurd isSwapped (by simp)

/-- The handler deals with what the session has thrown. -/
theorem HasThrown.catches
    {env : Env}
    {me connection : Nat}
    {abort : Abort}
    {core : Core}
    {past : List Obs}
    (thrown : HasThrown env me connection abort core (handedIn past)) :
    ((catchStage connection abort).run core).Ends past
      (fun _ core past =>
        PacketEnd env connection (handedIn past) (.ok ()) core)
      fun abort core past =>
        PacketEnd env connection (handedIn past) (.error abort) core := by
  rcases thrown with ⟨⟨-, returned⟩, noStage⟩ |
    ⟨before, last, lines, returned, session, rfl, outcome, obs, follows⟩
  · rw [run_catchStage_other noStage, Run.ends_error, List.append_nil]
    exact .returned returned
  · have effect := lineOutcome_effect env last.user last.line last.core
    rw [outcome] at effect
    rcases session.line effect follows with ⟨sessionAfter, stages⟩ |
      ⟨isSwapped, taken, other, sessionBefore, found, -, rfl⟩
    · by_cases isStage : ∃ stage, abort = .stage stage
      · obtain ⟨stage, rfl⟩ := isStage
        obtain rfl := stages stage rfl
        rw [run_catchStage_disconnect sessionAfter, Run.ends_ok,
          List.append_nil]
        exact .abandoned ⟨before, last, lines, returned, session,
          congrArg Prod.fst outcome⟩
      · rw [run_catchStage_other (not_exists.mp isStage), Run.ends_error,
          List.append_nil]
        exact .escaped (not_exists.mp isStage) ⟨before, last, lines, returned,
          session, congrArg Prod.fst outcome⟩
    · obtain rfl : abort = .stage .swapped := by simpa using isSwapped
      rw [run_catchStage_swapped sessionBefore found, Run.ends_ok,
        List.append_nil]
      exact .switched ⟨before, last, lines, returned, session, taken, other,
        sessionBefore, found, outcome, rfl⟩

/-- How a packet of a connection ends. -/
theorem packetEnd_receive
    {server : Server}
    (linked : Linked server.core)
    (env : Env)
    (connection : Nat)
    (data : Bytes) :
    PacketEnd env connection
      (handedIn ((receive env connection data).run server).obs)
      ((receive env connection data).run server).val
      ((receive env connection data).run server).state.core := by
  have ends : ((receive env connection data).run server).Ends []
      (fun _ server past =>
        PacketEnd env connection (handedIn past) (.ok ()) server.core)
      fun abort server past =>
        PacketEnd env connection (handedIn past) (.error abort)
          server.core := by
    have quiet : ∀ {obs : List Obs} {val core},
        (∀ observation ∈ obs, observation.Plain) →
          PacketEnd env connection (handedIn obs) val core := by
      intro obs val core plain
      rw [handedIn_of_plain plain]
      exact .returned (by simp)
    refine receive_ends linked ?_ ?_ ?_ ?_
    · exact fun _ => quiet (by simp)
    · exact fun _ => quiet (by simp [Obs.Plain])
    · exact fun entered obs enters _ => quiet enters.plain
    · intro entered obs me enters _ session _
      have start : AllReturned env me connection entered
          (handedIn ([] ++ obs)) := by
        rw [List.nil_append, handedIn_of_plain enters.plain]
        exact ⟨session, by simp⟩
      have read := (allReturned_reads env me connection).uRead data
        ⟨entered, server.buffers me⟩ ([] ++ obs) start
      exact read.mono (fun _ _ _ after => .returned after.2)
        fun _ _ _ thrown => thrown.catches
  generalize (receive env connection data).run server = ran at ends ⊢
  obtain ⟨abort | value, reached, obs⟩ := ran
  · exact ends
  · exact ends

/-! ## Sessions that are taken over -/

/-- The old session goes on with the new connection: it is alive and listed,
the protocol and it point to each other, the new user has been destroyed, and
no other protocol points to the session or to a destroyed user. -/
structure Resumed (core : Core) (me other connection : Nat) : Prop where
  /-- The session is alive. -/
  alive : (core.users other).alive
  /-- The session is listed. -/
  listed : other ∈ core.listUser.map Prod.snd
  /-- The new connection's protocol is the session's client. -/
  client : (core.users other).client = some connection
  /-- The session is the user of that protocol. -/
  user : (core.protocols connection).user = some other
  /-- The new user has been destroyed. -/
  destroyed : ¬ (core.users me).alive
  /-- Other protocols point to live users, and not to the session. -/
  elsewhere : ∀ protocol, protocol ≠ connection →
    ∀ user ∈ (core.protocols protocol).user,
      user ≠ other ∧ (core.users user).alive

/-- The line takes the session over: `User::login` throws, and the session is
the user of the protocol. -/
def IsTakenOver
    (env : Env)
    (connection : Nat)
    (handed : Handed)
    (other : Nat) : Prop :=
  let run := (login env handed.user handed.line).run handed.core
  run.val = .error (.stage .swapped) ∧
    (run.state.protocols connection).user = some other

/-- What a right password does in a packet: if the packet returns, a session
that is logged in under the name has been resumed; and no session that hangs
in the login is taken over. -/
def SwitchesSessions
    (env : Env)
    (connection : Nat)
    (run : Run Abort Server Obs Unit) : Prop :=
  ∀ handed ∈ handedIn run.obs,
    RightPassword env handed.user handed.line handed.core →
      (run.val = .ok () → ∀ other, SameName handed.core handed.user other →
        (handed.core.users other).level ≠ .login →
          Resumed run.state.core handed.user other connection) ∧
      ∀ other, IsTakenOver env connection handed other →
        (handed.core.users other).level ≠ .login

/-- A right password runs into the outcome of its line. -/
theorem run_login_right
    {env : Env}
    {handed : Handed}
    (right : RightPassword env handed.user handed.line handed.core) :
    ((login env handed.user handed.line).run handed.core).val =
        (lineOutcome env handed.user handed.line handed.core).1 ∧
      ((login env handed.user handed.line).run handed.core).state =
        (lineOutcome env handed.user handed.line handed.core).2 := by
  obtain ⟨obs, ran, -⟩ := Runs.login env handed.user handed.line handed.core
  rw [ran, lineOutcome, if_pos right.1.1]
  exact ⟨rfl, rfl⟩

/-- The session that has been taken over is destroyed. -/
theorem alive_swapped (core : Core) (me other connection : Nat) :
    ((swapped core me other connection).users other).alive = false := by
  rw [swapped, users_destroyed, if_pos rfl]

/-- A packet with a right password that takes a session over does not switch
the sessions as it should. -/
theorem PacketEnd.not_switches
    {env : Env}
    {connection rival : Nat}
    {run : Run Abort Server Obs Unit}
    {handed : Handed}
    (ended : PacketEnd env connection (handedIn run.obs) run.val run.state.core)
    (inside : handed ∈ handedIn run.obs)
    (right : RightPassword env handed.user handed.line handed.core)
    (reloads : Reloads env handed.user handed.core)
    (same : SameName handed.core handed.user rival) :
    ¬ SwitchesSessions env connection run := by
  intro switches
  obtain ⟨resumes, levels⟩ := switches handed inside right
  have throws : ∀ held, Session handed.core handed.user held →
      ∃ (before : Core) (other : Nat),
        SameName handed.core handed.user other ∧
        lineOutcome env handed.user handed.line handed.core =
          (.error (.stage .swapped), before.takenOver handed.user other held) := by
    intro held session
    obtain ⟨before, other, -, -, sameOther, outcome⟩ :=
      lineOutcome_switches session right reloads same
    exact ⟨before, other, sameOther, outcome⟩
  -- so it is the last line of the packet
  have notReturned : ¬ Returned env connection handed := by
    rintro ⟨session, ok⟩
    obtain ⟨before, other, -, outcome⟩ := throws connection session
    rw [outcome] at ok
    exact absurd ok (by simp)
  generalize val_eq : run.val = val at *
  generalize core_eq : run.state.core = core at *
  cases ended with
  | returned returned => exact notReturned (returned handed inside)
  | abandoned threw =>
      obtain ⟨session, abandoned⟩ := threw.last inside notReturned
      obtain ⟨before, other, -, outcome⟩ := throws connection session
      rw [outcome] at abandoned
      exact absurd abandoned (by simp)
  | escaped noStage threw =>
      obtain ⟨session, escaped⟩ := threw.last inside notReturned
      obtain ⟨before, other, -, outcome⟩ := throws connection session
      rw [outcome] at escaped
      exact noStage .swapped (Except.error.inj escaped).symm
  | switched threw =>
      obtain ⟨session, before, other, -, found, outcome, rfl⟩ :=
        threw.last inside notReturned
      obtain ⟨beforeToo, otherToo, sameOther, outcomeToo⟩ :=
        throws connection session
      rw [outcome] at outcomeToo
      have states := congrArg Prod.snd outcomeToo
      have users :=
        congrArg (fun core : Core => (core.protocols connection).user) states
      simp only [Core.protocols_takenOver, if_true, Option.some.injEq] at users
      subst users
      have taken : IsTakenOver env connection handed other := by
        obtain ⟨val, state⟩ := run_login_right right
        rw [IsTakenOver, val, state, outcome]
        exact ⟨rfl, by simp [Core.protocols_takenOver]⟩
      have resumed := resumes rfl other sameOther (levels other taken)
      exact absurd resumed.alive (by simp [alive_swapped])

/-- A packet in which no right password meets another session of the name
switches no sessions. -/
theorem PacketEnd.switches
    {env : Env}
    {connection : Nat}
    {run : Run Abort Server Obs Unit}
    (ended : PacketEnd env connection (handedIn run.obs) run.val run.state.core)
    (unrivalled : ∀ handed ∈ handedIn run.obs,
      RightPassword env handed.user handed.line handed.core →
        Reloads env handed.user handed.core →
          ∀ other, ¬ SameName handed.core handed.user other) :
    SwitchesSessions env connection run := by
  intro handed inside right
  have alone := unrivalled handed inside right
  refine ⟨fun returns other same _ => ?_, fun other taken => ?_⟩
  · -- the account cannot be read again, so the packet does not return
    have refuses : ¬ Reloads env handed.user handed.core :=
      fun reloads => alone reloads other same
    have throws := lineOutcome_refuses right refuses
    have notReturned : ¬ Returned env connection handed := by
      rintro ⟨-, ok⟩
      rw [throws] at ok
      exact absurd ok (by simp)
    generalize run.val = val at *
    generalize run.state.core = core at *
    subst returns
    cases ended with
    | returned returned => exact absurd (returned handed inside) notReturned
    | abandoned threw =>
        obtain ⟨-, abandoned⟩ := threw.last inside notReturned
        rw [throws] at abandoned
        exact absurd abandoned (by simp)
    | switched threw =>
        obtain ⟨-, before, other, -, -, outcome, -⟩ :=
          threw.last inside notReturned
        rw [outcome] at throws
        exact absurd throws (by simp)
  · obtain ⟨val, -⟩ := run_login_right right
    have throws := val.symm.trans taken.1
    by_cases reloads : Reloads env handed.user handed.core
    · rw [lineOutcome_alone right reloads (alone reloads)] at throws
      exact absurd throws (by simp)
    · rw [lineOutcome_refuses right reloads] at throws
      exact absurd throws (by simp)

/-- In every state of a run, a packet switches the sessions as it should if and
only if no right password in it meets another session of the name, once the
account has been read again. -/
theorem switchesSessions_iff
    (env : Env)
    (rows : List Database.Row)
    (events : List Event)
    (connection : Nat)
    (data : Bytes) :
    SwitchesSessions env connection
        ((receive env connection data).run
          (World.after env rows events).server) ↔
      ∀ handed ∈ handedIn ((receive env connection data).run
          (World.after env rows events).server).obs,
        RightPassword env handed.user handed.line handed.core →
          Reloads env handed.user handed.core →
            ∀ other, ¬ SameName handed.core handed.user other := by
  have ended := packetEnd_receive (linked_after env rows events) env connection
    data
  refine ⟨fun switches handed inside right reloads other same => ?_,
    ended.switches⟩
  exact ended.not_switches inside right reloads same switches

/-- Ann is logged in, and her name is entered once more. -/
def annReturns : List Event :=
  [.accept, .packet 0 (lit "ann\rsecret\rsecret\r\r"), .accept,
    .packet 1 (lit "ann\r")]

/-- When Ann enters her password, and the account cannot be read again, her old
session is destroyed. -/
theorem oldSession_destroyed :
    ¬ ∀ env rows events connection data,
      SwitchesSessions env connection ((receive env connection data).run
        (World.after env rows events).server) := by
  intro always
  have switches := always (Env.testing [5]) [] annReturns 1 (lit "secret\r")
  obtain ⟨handed, inside, right, same, level⟩ :
      ∃ handed ∈ handedIn ((receive (Env.testing [5]) 1 (lit "secret\r")).run
          (World.after (Env.testing [5]) [] annReturns).server).obs,
        RightPassword (Env.testing [5]) handed.user handed.line handed.core ∧
          SameName handed.core handed.user 0 ∧
            (handed.core.users 0).level ≠ .login := by
    decide +kernel
  have returns : ((receive (Env.testing [5]) 1 (lit "secret\r")).run
      (World.after (Env.testing [5]) [] annReturns).server).val = .ok () := by
    decide +kernel
  have alive := ((switches handed inside right).1 returns 0 same level).alive
  revert alive
  decide +kernel

end Network
end Lotospp
