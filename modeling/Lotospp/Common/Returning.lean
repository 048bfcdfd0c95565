import Lotospp.Common.Answers
import Lotospp.Common.EditedLines

/-!
# Packets that return

`User::uRead` returns, or throws a stage, as long as nothing that it meets
makes it run on, read behind its input or throw something else: this depends
on what has been observed before, since a line is typed over many packets.
-/

namespace Lotospp
namespace Common

open Text Effect Commands Strings

/-! ## What has been typed -/

/-- The text that a user has typed, among the observations. -/
def typedBy (me : Nat) (obs : List Obs) : Bytes :=
  obs.flatMap fun observation =>
    match observation with
    | .text user byte => if user = me then [byte] else []
    | _ => []

@[simp] theorem typedBy_append (me : Nat) (obs more : List Obs) :
    typedBy me (obs ++ more) = typedBy me obs ++ typedBy me more :=
  List.flatMap_append

theorem typedBy_of_plain
    {obs : List Obs}
    (me : Nat)
    (plain : ∀ observation ∈ obs, observation.Plain) :
    typedBy me obs = [] := by
  rw [typedBy, List.flatMap_eq_nil_iff]
  intro observation shown
  have isPlain := plain observation shown
  cases observation <;> first | rfl | exact isPlain.elim

/-- An ordinary byte has been typed by its user. -/
theorem typedBy_ordinary
    {user me : Nat}
    {byte : UInt8}
    {before after : List Obs}
    (plain : ∀ observation ∈ before, observation.Plain)
    (plainAfter : ∀ observation ∈ after, observation.Plain)
    (lines : List Handed) :
    typedBy user (.text me byte :: (before ++ lines.map .handed ++ after)) =
      if me = user then [byte] else [] := by
  have quiet : typedBy user (lines.map .handed) = [] := by
    simp [typedBy, List.flatMap_map]
  rw [← List.singleton_append, typedBy_append, typedBy_append, typedBy_append,
    typedBy_of_plain user plain, quiet, typedBy_of_plain user plainAfter]
  simp [typedBy]

/-- The user edits the line that the editor keeps of the text. -/
structure TypesLine (user : User) (typed : Bytes) : Prop where
  /-- The options have been negotiated. -/
  started : user.stage ≠ .new
  /-- The position is in the line. -/
  inside : user.Inside
  /-- The line is the one that is kept. -/
  kept : user.kept = keptAfter [] typed

/-- What matters of a user while it types. -/
def User.typing (user : User) : UserStage × Bytes × Nat :=
  (user.stage, user.text, user.tbpos)

theorem TypesLine.of_typing
    {user other : User}
    {typed : Bytes}
    (types : TypesLine user typed)
    (same : other.typing = user.typing) : TypesLine other typed := by
  simp only [User.typing, Prod.mk.injEq] at same
  obtain ⟨stage, text, tbpos⟩ := same
  refine ⟨stage ▸ types.started, ?_, ?_⟩
  · rw [User.Inside, text, tbpos]
    exact types.inside
  · rw [User.kept, text, tbpos, ← User.kept]
    exact types.kept

/-- What a line does to the other users. -/
theorem LineEffect.typing_others
    {env : Env}
    {me : Nat}
    {line : Bytes}
    {core : Core}
    {outcome : Except Abort Unit × Core}
    (effect : LineEffect env me line core outcome)
    {user : Nat}
    (different : user ≠ me) :
    (outcome.2.users user).typing = (core.users user).typing := by
  rcases effect.concerns with ⟨stays, -⟩ |
    ⟨before, other, connection, stays, -, client, found, rfl⟩
  · rw [stays.others user different]
  · have apart := (Core.findSession_some found).1
    rw [before.users_takenOver connection apart, if_neg different]
    split
    · rename_i isOther
      rw [← isOther, ← stays.others user different]
      rfl
    · rw [stays.others user different]

/-! ## The condition -/

/-- There is room in an `int` for the text with what session code prints around
it. -/
def Printable (text : Bytes) : Prop :=
  text.length + 64 < 2 ^ 31

instance (text : Bytes) : Decidable (Printable text) :=
  inferInstanceAs (Decidable (_ < _))

/-- Nothing that is observed next keeps session code from returning: packets
can be read and counted, commands are known, cut nothing off and can be
printed, no line grows to 2^31 bytes, lines can be answered and printed, and
identifiers are free. -/
def Obs.Smooth (env : Env) (past : List Obs) : Obs → Prop
  | .packet me pending data => Obs.Tame (.packet me pending data)
  | .telopt me pending =>
      Obs.Tame (.telopt me pending) ∧ ¬ Stuck pending ∧ Printable pending
  | .text me byte =>
      (keptAfter [] (typedBy me past ++ [byte])).length < 2 ^ 31
  | .handed line =>
      Answerable env line.user line.line line.core ∧ Printable line.line
  | .draw autoID => autoID.Free
  | _ => True

instance (env : Env) (past : List Obs) :
    (observation : Obs) → Decidable (observation.Smooth env past)
  | .packet me pending data =>
      inferInstanceAs (Decidable (Obs.Tame (.packet me pending data)))
  | .telopt me pending =>
      inferInstanceAs
        (Decidable
          (Obs.Tame (.telopt me pending) ∧ ¬ Stuck pending ∧
            Printable pending))
  | .text me byte =>
      inferInstanceAs (Decidable
        ((keptAfter [] (typedBy me past ++ [byte])).length < 2 ^ 31))
  | .handed line =>
      inferInstanceAs
        (Decidable
          (Answerable env line.user line.line line.core ∧
            Printable line.line))
  | .draw autoID => inferInstanceAs (Decidable autoID.Free)
  | .wrote _ _ => .isTrue trivial
  | .nullConnection _ => .isTrue trivial
  | .dangling _ => .isTrue trivial
  | .consumed _ _ _ _ => .isTrue trivial
  | .kicked _ => .isTrue trivial

/-- Session code can print what it takes from a client: the terminal type that
it finds in the pending bytes, and what it says of a line, to the speaker and
to the others. -/
def Obs.Prints : Obs → Prop
  | .telopt _ pending =>
      ∀ termType, termType <:+: pending →
        Countable (lit "Terminal type: " ++ cStr termType ++ lit "\n")
  | .handed line =>
      ∀ said, said <:+: cleanString line.line →
        Countable (lit "You say: " ++ cStr said ++ lit "\n") ∧
          Countable (cStr (line.core.users line.user).name ++ lit " say: " ++
            cStr said ++ lit "\n")
  | _ => True

/-- A part of a printable text. -/
theorem Printable.part
    {text part : Bytes}
    (printable : Printable text)
    (inside : part <:+: text) : (cStr part).length + 64 < 2 ^ 31 :=
  (Nat.add_le_add_right
    ((length_cStr_le part).trans inside.length_le) 64).trans_lt printable

/-- What is smooth can be printed, as long as the names are short. -/
theorem Obs.Smooth.prints
    {env : Env}
    {past : List Obs}
    {observation : Obs}
    (smooth : observation.Smooth env past)
    (short : ∀ line, observation = .handed line →
      (line.core.users line.user).name.length ≤ maxUsernameLen) :
    observation.Prints := by
  cases observation with
  | telopt me pending =>
      intro termType inside
      have room := smooth.2.2.part inside
      have around : (lit "Terminal type: ").length + (lit "\n").length = 16 := by
        decide +kernel
      simp only [Countable, List.length_append]
      omega
  | handed line =>
      intro said inside
      have room : (cStr said).length + 64 < 2 ^ 31 := by
        refine Printable.part ?_ inside
        rw [Printable, length_cleanString]
        exact smooth.2
      have name : (cStr (line.core.users line.user).name).length ≤ 12 :=
        (length_cStr_le _).trans (short line rfl)
      have around : (lit "You say: ").length + (lit "\n").length = 10 ∧
          (lit " say: ").length + (lit "\n").length = 7 := by
        decide +kernel
      simp only [Countable, List.length_append]
      omega
  | _ => trivial

/-- All that is observed after the past is smooth. -/
def SmoothAfter (env : Env) : (past obs : List Obs) → Prop
  | _, [] => True
  | past, observation :: obs =>
      observation.Smooth env past ∧ SmoothAfter env (past ++ [observation]) obs

instance decidableSmoothAfter (env : Env) :
    (past obs : List Obs) → Decidable (SmoothAfter env past obs)
  | _, [] => .isTrue trivial
  | past, observation :: obs =>
      have := decidableSmoothAfter env (past ++ [observation]) obs
      inferInstanceAs (Decidable
        (observation.Smooth env past ∧
          SmoothAfter env (past ++ [observation]) obs))

theorem smoothAfter_append (env : Env) (past obs more : List Obs) :
    SmoothAfter env past (obs ++ more) ↔
      SmoothAfter env past obs ∧ SmoothAfter env (past ++ obs) more := by
  induction obs generalizing past with
  | nil => simp [SmoothAfter]
  | cons observation obs inductionHypothesis =>
      simp only [List.cons_append, SmoothAfter, inductionHypothesis]
      rw [and_assoc, List.append_assoc, List.singleton_append]

/-- All that has been observed is smooth. -/
def SmoothPast (env : Env) (past : List Obs) : Prop :=
  SmoothAfter env [] past

instance (env : Env) (past : List Obs) : Decidable (SmoothPast env past) :=
  decidableSmoothAfter env [] past

namespace SmoothPast

variable {env : Env} {past more : List Obs} {observation : Obs}

theorem of_append (smooth : SmoothPast env (past ++ more)) :
    SmoothPast env past :=
  ((smoothAfter_append env [] past more).mp smooth).1

/-- What is observed next is smooth. -/
theorem next (smooth : SmoothPast env (past ++ observation :: more)) :
    observation.Smooth env past :=
  ((smoothAfter_append env [] past (observation :: more)).mp smooth).2.1

theorem handed
    {line : Handed}
    (smooth : SmoothPast env past)
    (inside : .handed line ∈ past) :
    Answerable env line.user line.line line.core ∧ Printable line.line := by
  obtain ⟨before, after, rfl⟩ := List.append_of_mem inside
  exact smooth.next

end SmoothPast

/-! ## A byte -/

section Byte

variable {me : Nat} {core : Core}

/-- A byte is typed; without a line it returns. -/
theorem TypesLine.byte
    {typed : Bytes}
    (types : TypesLine (core.users me) typed)
    (env : Env)
    (byte : UInt8)
    (rest : Bytes)
    (room : (keptAfter [] (typed ++ [byte])).length < 2 ^ 31) :
    TypesLine ((byteOutcome env me byte core).2.users me) (typed ++ [byte]) ∧
      (handedOf me byte rest core = none →
        (byteOutcome env me byte core).1 = .ok ()) := by
  obtain ⟨started, inside, kept⟩ := types
  have goes := (byteOutcome_stays env me byte core).2.2 started
  have line := User.line_eq inside
  rw [keptAfter_append, ← kept] at room
  by_cases isCr : byte = cr
  · subst isCr
    have outcome : byteOutcome env me cr core =
        lineOutcome env me (core.users me).kept
          (core.ended me (core.users me).kept) := by
      rw [byteOutcome, if_neg started, if_pos rfl, line]
    obtain ⟨insideAfter, empty⟩ :=
      lineOutcome_inside env me (core.users me).kept core
    refine ⟨⟨goes, outcome ▸ insideAfter, ?_⟩, fun noLine => ?_⟩
    · rw [outcome, empty, keptAfter_append]
      simp [keptAfter]
    · rw [handedOf, if_neg started, if_pos rfl, line] at noLine
      exact absurd noLine (by simp)
  · have outcome : byteOutcome env me byte core = keyOutcome me byte core := by
      rw [byteOutcome, if_neg started, if_neg isCr]
    have edits : keptAfter (core.users me).kept [byte] =
        editKey (core.users me).kept byte := by
      simp [keptAfter, isCr]
    rw [edits] at room
    rw [outcome] at goes ⊢
    rcases keyOutcome_kept inside byte with
      ⟨returned, insideAfter, edited⟩ | ⟨-, -, long⟩
    · refine ⟨⟨goes, insideAfter, ?_⟩, fun _ => returned⟩
      rw [edited, keptAfter_append, ← kept, edits]
    · omega

/-- What a byte leaves alone: the other users, who joins next, and the range of
the identifiers. -/
theorem byteOutcome_frame (env : Env) (me : Nat) (byte : UInt8) (core : Core) :
    (∀ user, user ≠ me →
      ((byteOutcome env me byte core).2.users user).typing =
        (core.users user).typing) ∧
      (byteOutcome env me byte core).2.nextUser = core.nextUser ∧
      (core.autoID.Counted → (byteOutcome env me byte core).2.autoID.Counted) := by
  have edits : ∀ reached : Core, core.Edits reached me →
      (∀ user, user ≠ me → reached.users user = core.users user) ∧
        reached.nextUser = core.nextUser ∧ reached.autoID = core.autoID := by
    rintro _ ⟨textBuffer, tbpos, -, rfl⟩
    exact ⟨fun _ => Core.users_setUser_of_ne core _, rfl, rfl⟩
  obtain ⟨before, after, -, follows, followsLine⟩ :=
    run_ordinary env me byte [] core
  cases complete : handedOf me byte [] core with
  | none =>
      obtain ⟨others, nextUser, autoID⟩ :=
        edits _ (byteOutcome_edits env complete)
      exact ⟨fun user different => by rw [others user different], nextUser,
        fun counted => by rwa [autoID]⟩
  | some handed =>
      obtain ⟨-, line, same, outcome⟩ := byteOutcome_line env complete
      have state : handed.core = core.ended me handed.line :=
        congrArg Handed.core same
      obtain ⟨others, -, autoID⟩ := edits _ (Core.edits_ended line)
      rw [← state] at others autoID
      have effect := lineOutcome_effect env me handed.line handed.core
      refine ⟨fun user different => ?_,
        followsLine.nextUser.trans follows.nextUser, fun counted => ?_⟩
      · rw [outcome, effect.typing_others different, others user different]
      · rw [outcome]
        exact lineOutcome_counted env me _ (by rwa [autoID])

/-- A byte that completes a line answers it, unless a pointer is null. -/
theorem byteOutcome_answered
    {env : Env}
    {byte : UInt8}
    {rest : Bytes}
    {handed : Handed}
    (complete : handedOf me byte rest core = some handed)
    (ready : ¬ Unready me handed.core)
    (counted : core.autoID.Counted)
    (answerable : Answerable env me handed.line handed.core) :
    Answered (byteOutcome env me byte core).1 := by
  obtain ⟨-, -, same, outcome⟩ := byteOutcome_line env complete
  have state : handed.core = core.ended me handed.line :=
    congrArg Handed.core same
  have text : (handed.core.users me).text = handed.line := by
    rw [state, Core.ended, Core.users_setUser_self, User.text_place]
  have countedToo : handed.core.autoID.Counted := by
    rw [state]
    exact counted
  rw [outcome]
  exact lineOutcome_returned text ready countedToo answerable

end Byte

/-! ## Reading -/

section Reading

variable (env : Env) (me : Nat) (start : Core) (before : List Obs)

/-- A session reads: its user types, identifiers are counted in their range,
nobody joins and the other users go on as before. -/
structure ReadsOn (core : Core) (past : List Obs) : Prop where
  /-- The line of the user. -/
  types : TypesLine (core.users me) (typedBy me past)
  /-- The identifiers. -/
  counted : core.autoID.Counted
  /-- Nobody joins. -/
  nextUser : core.nextUser = start.nextUser
  /-- The other users. -/
  others : ∀ user, user ≠ me →
    (core.users user).typing = (start.users user).typing ∧
      typedBy user past = typedBy user before

/-- The session reads on, as long as nothing keeps it from returning. -/
def ReadsSmoothly (core : Core) (past : List Obs) : Prop :=
  SmoothPast env past → ReadsOn me start before core past

/-- A line has been handed over that follows a null pointer. -/
def Trips (past : List Obs) : Prop :=
  ∃ lines handed, handedIn past = lines ++ [handed] ∧ handed.user = me ∧
    Unready me handed.core

/-- As long as nothing keeps it from returning, the session has thrown a
stage, unless a pointer was null. -/
def ThrowsStage (abort : Abort) (core : Core) (past : List Obs) : Prop :=
  SmoothPast env past → ReadsOn me start before core past ∧
    ((∃ stage, abort = .stage stage) ∨ Trips me past)

variable {env me start before}
variable {core reached : Core} {past more : List Obs}

/-- Nobody types. -/
theorem ReadsOn.keeps
    (reads : ReadsOn me start before core past)
    (types : ∀ typed, TypesLine (core.users me) typed →
      TypesLine (reached.users me) typed)
    (autoID : reached.autoID = core.autoID)
    (nextUser : reached.nextUser = core.nextUser)
    (others : ∀ user, user ≠ me → reached.users user = core.users user)
    (silent : ∀ user, typedBy user more = []) :
    ReadsOn me start before reached (past ++ more) where
  types := by
    rw [typedBy_append, silent, List.append_nil]
    exact types _ reads.types
  counted := autoID ▸ reads.counted
  nextUser := nextUser.trans reads.nextUser
  others user different := by
    rw [others user different, typedBy_append, silent, List.append_nil]
    exact reads.others user different

/-- The user changes, but not what it types. -/
theorem ReadsSmoothly.setUser
    (reads : ReadsSmoothly env me start before core past)
    {change : User → User}
    (types : ∀ typed, TypesLine (core.users me) typed →
      TypesLine (change (core.users me)) typed)
    (silent : ∀ user, typedBy user more = []) :
    ReadsSmoothly env me start before (core.setUser me change)
      (past ++ more) := by
  intro smooth
  refine (reads smooth.of_append).keeps ?_ rfl rfl ?_ silent
  · rwa [Core.users_setUser_self]
  · exact fun user => Core.users_setUser_of_ne core change

/-- A byte is read. -/
theorem ReadsSmoothly.byte
    {byte : UInt8}
    {rest : Bytes}
    (reads : ReadsSmoothly env me start before core past) :
    ((ordinary env me byte rest).run core).Ends past
      (fun _ => ReadsSmoothly env me start before)
      (ThrowsStage env me start before) := by
  obtain ⟨first, last, ran, follows, followsLine⟩ :=
    run_ordinary env me byte rest core
  have handed := @handedIn_ordinary me byte first last follows.plain
    followsLine.plain (handedOf me byte rest core).toList
  have typed := fun user => @typedBy_ordinary user me byte first last
    follows.plain followsLine.plain (handedOf me byte rest core).toList
  obtain ⟨others, nextUser, counted⟩ := byteOutcome_frame env me byte core
  rw [ran]
  generalize shown_eq : (.text me byte :: (first ++
    (handedOf me byte rest core).toList.map .handed ++ last) : List Obs) =
      shown at handed typed
  -- what is read when all is smooth
  have after : SmoothPast env (past ++ shown) →
      ReadsOn me start before (byteOutcome env me byte core).2 (past ++ shown) ∧
        (handedOf me byte rest core = none →
          (byteOutcome env me byte core).1 = .ok ()) := by
    intro smooth
    have now := reads smooth.of_append
    have room := (shown_eq ▸ smooth).next
    obtain ⟨types, returns⟩ := now.types.byte env byte rest room
    refine ⟨⟨?_, counted now.counted, nextUser.trans now.nextUser,
      fun user different => ?_⟩, returns⟩
    · rw [typedBy_append, typed, if_pos rfl]
      exact types
    · rw [typedBy_append, typed, if_neg (Ne.symm different), List.append_nil,
        others user different]
      exact now.others user different
  cases outcome : (byteOutcome env me byte core).1 with
  | ok value => exact fun smooth => (after smooth).1
  | error abort =>
      intro smooth
      obtain ⟨readsOn, returns⟩ := after smooth
      refine ⟨readsOn, ?_⟩
      cases complete : handedOf me byte rest core with
      | none =>
          rw [returns complete] at outcome
          exact absurd outcome (by simp)
      | some line =>
          have isMe : line.user = me :=
            congrArg Handed.user (byteOutcome_line env complete).2.2.1
          by_cases unready : Unready me line.core
          · right
            refine ⟨handedIn past, line, ?_, isMe, unready⟩
            rw [handedIn_append, handed, complete, Option.toList_some]
          · left
            have isHanded : .handed line ∈ past ++ shown := by
              rw [← shown_eq, complete]
              simp
            have answered := byteOutcome_answered complete unready
              (reads smooth.of_append).counted
              (isMe ▸ (smooth.handed isHanded).1)
            rw [outcome] at answered
            rcases answered with returned | ⟨stage, same⟩
            · exact absurd returned (by simp)
            · exact ⟨stage, Except.error.inj same⟩

/-- The rule of a session that reads as long as nothing keeps it from
returning. -/
theorem readsSmoothly_rule
    (env : Env)
    (me : Nat)
    (start : Core)
    (before : List Obs) :
    ReadRule env me (fun _ => ReadsSmoothly env me start before)
      (fun _ => ReadsSmoothly env me start before)
      (fun _ past => ¬ SmoothPast env past)
      (fun _ => ReadsSmoothly env me start before)
      (fun abort _ => ThrowsStage env me start before abort) where
  text := fun _ reads => reads.byte
  enter := fun reads => reads
  leave := fun _ _ reads => reads
  command := by
    intro todo core past command size _ _ _ reads obs after follows _ _
    refine reads.setUser (fun typed types => types.of_typing ?_) fun user => ?_
    · obtain ⟨cols, rows, type, flags, same, -⟩ :=
        command.settle_negotiates env (core.users me)
      rw [same]
      rfl
    · change typedBy user (obs ++ [_]) = []
      rw [typedBy_append, typedBy_of_plain user follows.plain]
      rfl
  notice := by
    intro todo core past _ _ reads obs follows
    refine reads.setUser (fun typed types => ?_) fun user =>
      typedBy_of_plain user follows.plain
    exact ⟨by simp [User.noticed], types.inside, types.kept⟩
  incomplete := by
    intro core past buffer _ _ _ reads
    refine reads.setUser (fun typed types => types.of_typing ?_) fun _ => rfl
    unfold TeloptBuffer.incomplete
    split <;> rfl
  done := fun reads => reads
  stuck := by
    intro todo core past isStuck _
    have rough : ∀ obs, ¬ SmoothPast env (past ++ .telopt me todo :: obs) :=
      fun obs smooth => smooth.next.2.1 isStuck
    exact ⟨fun smooth => absurd smooth (rough []),
      fun obs _ smooth => absurd smooth (rough obs)⟩
  cut := by
    intro todo core past command size _ decoded cuts _ obs _ smooth
    exact smooth.next.1 (command, size) decoded cuts
  noticeLost := fun _ rough _ _ smooth => rough smooth.of_append
  endLost := fun rough =>
    ⟨fun smooth => absurd smooth.of_append rough,
      fun smooth => absurd smooth.of_append rough⟩

/-- A packet is read, as long as nothing keeps the session from returning. -/
theorem uRead_smooth
    (env : Env)
    (me : Nat)
    (data : Bytes)
    {reader : Reader}
    {past : List Obs}
    (fits : SmoothPast env past → ReadRule.Fits reader.buffer)
    (types : SmoothPast env past →
      TypesLine (reader.core.users me) (typedBy me past))
    (counted : SmoothPast env past → reader.core.autoID.Counted) :
    ((uRead env me data).run reader).Ends past
      (fun _ after pastAfter => SmoothPast env pastAfter →
        ReadsOn me reader.core past after.core pastAfter ∧
          ReadRule.Fits after.buffer)
      fun abort after pastAfter =>
        ThrowsStage env me reader.core past abort after.core pastAfter := by
  have begins : ∀ pending, SmoothPast env past →
      ReadsSmoothly env me reader.core past reader.core
        (past ++ [.packet me pending data]) := by
    intro pending smooth _
    refine ⟨?_, counted smooth, rfl, fun user _ => ⟨rfl, ?_⟩⟩
    · simpa [typedBy] using types smooth
    · simp [typedBy]
  refine ((readsSmoothly_rule env me reader.core past).uRead_while
    (SmoothPast env) SmoothPast.of_append ?_ fits (begins _)
    (fun smooth _ => begins [] smooth) fun smooth _ => begins _ smooth).mono
      ?_ ?_
  · exact fun smooth => smooth.next
  · exact fun _ _ _ ends smooth => ⟨(ends smooth).1 smooth, (ends smooth).2⟩
  · exact fun _ _ _ ended smooth => ended smooth smooth

end Reading

end Common
end Lotospp
