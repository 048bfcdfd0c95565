import Lotospp.Commands.CommandIds
import Lotospp.Common.Local
import Mathlib.Tactic.MkIffOfInductiveProp

/-!
# Lines that are answered

A line may make session code throw something that nobody catches: the lookup
of the level rejects the levels that there are, a command may find no
identifier, and the offset of the text of a `say` may lie behind the line.
Without these a line is answered, or throws a stage.
-/

namespace Lotospp
namespace Common

open Text Effect Commands Strings

namespace AutoID

/-- An identifier is free. -/
def Free (autoID : AutoID) : Prop :=
  ∃ autoId, first ≤ autoId ∧ autoId ≤ last ∧ autoId ∉ autoID.list

/-- The number given last is in the range. -/
def Counted (autoID : AutoID) : Prop :=
  first ≤ autoID.count ∧ autoID.count ≤ last

/-- A free identifier is found from anywhere in the range. -/
theorem Free.probe
    {autoID : AutoID}
    (free : autoID.Free)
    {count : Nat}
    (fromFirst : first ≤ count)
    (inside : count ≤ last) :
    (AutoID.probe autoID.list (capacity + 1) count).isSome := by
  obtain ⟨autoId, idFirst, idLast, isFree⟩ := free
  obtain ⟨turns, near, probed⟩ := exists_probed fromFirst inside idFirst idLast
  exact probe_isSome fromFirst inside near (Nat.lt_succ_of_lt near)
    (probed ▸ isFree)

/-- An identifier is free if the first round finds one. -/
theorem free_iff (autoID : AutoID) :
    autoID.Free ↔ (probe autoID.list (capacity + 1) first).isSome := by
  have inside : first ≤ last := by decide
  constructor
  · exact fun free => free.probe (le_refl _) inside
  · intro found
    obtain ⟨autoId, probes⟩ := Option.isSome_iff_exists.mp found
    obtain ⟨isFree, idLast⟩ := probe_some inside probes
    exact ⟨autoId, first_le_of_probe (le_refl _) probes, idLast, isFree⟩

instance (autoID : AutoID) : Decidable autoID.Free :=
  decidable_of_iff _ autoID.free_iff.symm

/-- With a free identifier the constructor ends. -/
theorem Free.construct
    {autoID : AutoID}
    (free : autoID.Free)
    (counted : autoID.Counted) :
    ∃ autoId after, autoID.construct = some (autoId, after) := by
  have found := free.probe (first_le_start counted.1 counted.2)
    autoID.start_le_last
  rw [← Option.isSome_map, ← construct_eq] at found
  obtain ⟨⟨autoId, after⟩, constructed⟩ := Option.isSome_iff_exists.mp found
  exact ⟨autoId, after, constructed⟩

/-- The constructor counts in the range. -/
theorem Counted.construct
    {autoID after : AutoID}
    {autoId : Nat}
    (counted : autoID.Counted)
    (constructed : autoID.construct = some (autoId, after)) :
    after.Counted := by
  rw [construct_eq] at constructed
  obtain ⟨count, probes, same⟩ := Option.map_eq_some_iff.mp constructed
  simp only [Prod.mk.injEq] at same
  obtain ⟨rfl, rfl⟩ := same
  exact ⟨first_le_of_probe (first_le_start counted.1 counted.2) probes,
    (probe_some autoID.start_le_last probes).2⟩

end AutoID

/-! ## The identifiers in a line -/

section Counted

variable (core : Core) (me : Nat)

theorem autoID_attempted : (core.attempted me).autoID = core.autoID := by
  unfold Core.attempted
  simp only
  split
  · obtain ⟨connections, same⟩ := Core.kicked_eq (core.counted me) me
    rw [same]
    rfl
  · rfl

theorem autoID_load (env : Env) (userName : Bytes) (preload : Bool) :
    (loadOutcome env me userName preload core).2.autoID = core.autoID := by
  apply @loadOutcome_intro env me userName preload core
    fun now => now.autoID = core.autoID
  · rfl
  · exact fun _ _ same => same
  · exact fun _ _ same => same

theorem autoID_named (env : Env) (inpstr : Bytes) :
    (core.named env me inpstr).autoID = core.autoID := by
  have rejected : (core.rejected me inpstr).autoID = core.autoID := by
    apply @Core.rejected_intro core me inpstr fun now =>
      now.autoID = core.autoID
    · rfl
    · exact fun now same => (autoID_attempted now me).trans same
  rw [Core.named, Core.autoID_setUser, autoID_load]
  apply @Core.cleared_intro _ me fun now => now.autoID = core.autoID
  · exact rejected
  · intro now other _ _ same
    obtain ⟨connections, kicked⟩ := Core.kicked_eq now other
    rw [kicked]
    exact same

theorem autoID_connect : (connectOutcome me core).2.autoID = core.autoID := by
  have disconnected : ∀ other,
      (core.disconnected other).autoID = core.autoID := by
    intro other
    obtain ⟨connections, same⟩ := core.disconnected_eq other
    rw [same]
  unfold connectOutcome
  split
  · rfl
  · split
    · exact disconnected _
    · exact disconnected _

/-- A line draws an identifier at most. -/
theorem lineOutcome_counted
    {core : Core}
    (env : Env)
    (me : Nat)
    (line : Bytes)
    (counted : core.autoID.Counted) :
    (lineOutcome env me line core).2.autoID.Counted := by
  have effect := lineOutcome_effect env me line core
  generalize lineOutcome env me line core = outcome at effect
  cases effect with
  | answers | abandons | stumbles => exact counted
  | fails => rwa [autoID_attempted]
  | names => rwa [autoID_named]
  | chooses => exact counted
  | throws right loaded =>
      have same := autoID_load core me env (core.users me).name false
      rw [loaded] at same
      rwa [same]
  | @admits right found reached loaded =>
      have same := autoID_load core me env (core.users me).name false
      rw [loaded] at same
      rw [autoID_connect]
      change reached.autoID.Counted
      rwa [same]
  | confirms => exact counted
  | parses =>
      have drawn : ∀ now : Core, now.autoID = core.autoID →
          (drawOutcome now).2.autoID.Counted := by
        intro now same
        rcases drawOutcome_ids now with hangs | ⟨autoId, autoID, made, drawn⟩
        · rw [hangs, same]
          exact counted
        · rw [drawn]
          exact AutoID.Counted.construct counted (same ▸ made)
      apply @parseOutcome_intro me core _ (fun now => now.autoID.Counted) rfl
      · exact counted
      · intro com
        unfold dispatchOutcome
        split
        · apply @runOutcome_intro me _ fun now => now.autoID.Counted
          · exact counted
          · exact drawn _ rfl
          · obtain ⟨connections, kicked⟩ := Core.kicked_eq (drawOutcome
              ((core.setUser me fun user =>
                user.setText (cleanString user.text)).setUser me
                  fun user => { user with com := com })).2 me
            rw [kicked]
            exact drawn _ rfl
        · exact counted
      · exact fun _ counted => counted

end Counted

/-! ## Lines -/

section Answerable

variable (env : Env) (me : Nat) (line : Bytes) (core : Core)

/-- The line is one of the command line. -/
def AtCommandLine : Prop :=
  (core.users me).level ≠ .login ∧ (core.users me).stage = .cmdLine

/-- The words are a `say` with some text. -/
def IsSay (words : List Bytes) : Prop :=
  2 ≤ words.length ∧
    ∃ first ∈ words.head?, iequals (commandWord first) (lit "say")

/-- The level that a right password looks up is none that the enumeration has,
an identifier is free for a command, and the second offset recorded so far is
in the line if it is that of the text of a `say`. -/
@[mk_iff]
structure Answerable : Prop where
  /-- The level is not rejected. -/
  converts : RightPassword env me line core →
    ∀ row ∈ (core.db.select env.dbFails (core.users me).name).1,
      (row.level : Int) ∉ UserLevel.table
  /-- An identifier is free. -/
  draws : AtCommandLine me core →
    NamesCommand (Splitline.words (cleanString line)) → core.autoID.Free
  /-- The offset is in the line. -/
  points : AtCommandLine me core →
    IsSay (Splitline.words (cleanString line)) →
      ∀ offset ∈ ((core.users me).com.wordPtr ++
          Splitline.starts (cleanString line))[1]?,
        offset ≤ (cleanString line).length

/-- A pointer that a line of the session follows may be null. -/
def Unready : Prop :=
  (core.users me).client = none ∨
    (core.users me).stage = .loginReenterPwd ∧
      (core.users me).password = none

instance : Decidable (AtCommandLine me core) :=
  inferInstanceAs (Decidable (_ ∧ _))

instance (words : List Bytes) : Decidable (IsSay words) :=
  inferInstanceAs (Decidable (_ ∧ ∃ first ∈ words.head?, _))

instance : Decidable (Answerable env me line core) :=
  decidable_of_iff' _ (answerable_iff env me line core)

end Answerable

/-- Session code has returned, or thrown a stage. -/
def Answered (val : Except Abort Unit) : Prop :=
  val = .ok () ∨ ∃ stage, val = .error (.stage stage)

section Returns

variable {env : Env} {me : Nat} {line : Bytes} {core : Core}

theorem sayOutcome_ok
    {com : Splitline}
    (points : 2 ≤ com.word.length →
      ∃ offset, com.wordPtr[1]? = some offset ∧ offset ≤ com.line.length) :
    sayOutcome com = .ok () := by
  unfold sayOutcome
  split
  · rfl
  · rename_i long
    obtain ⟨offset, isOffset, inside⟩ := points (not_lt.mp long)
    rw [Splitline.wordptr, isOffset]
    simp only
    rw [substr_of_le inside]

/-- A command returns if it finds an identifier and its text. -/
theorem runOutcome_ok
    (counted : core.autoID.Counted)
    (draws : NamesCommand (core.users me).com.word → core.autoID.Free)
    (points : IsSay (core.users me).com.word →
      ∃ offset, (core.users me).com.wordPtr[1]? = some offset ∧
        offset ≤ (core.users me).com.line.length) :
    (runOutcome me core).1 = .ok () := by
  by_cases command : NamesCommand (core.users me).com.word
  · obtain ⟨autoId, after, constructed⟩ := (draws command).construct counted
    have drawn : drawOutcome core = (.ok (), { core with autoID := after }) := by
      rw [drawOutcome, constructed]
    unfold runOutcome
    split
    · rfl
    · rfl
    · rename_i first rest _ words
      split
      · rfl
      · split
        · rename_i isSay
          rw [drawn]
          refine sayOutcome_ok fun long => points ⟨long, first, ?_, isSay⟩
          rw [words]
          rfl
        · split
          · rw [drawn]
          · rfl
  · rw [runOutcome_of_noCommand command]

/-- What a line makes of the words, the offsets and the line. -/
theorem exists_parsed (split : Splitline) (inLine : Bytes) :
    ∃ com, split.parse inLine = .ok com ∧
      com.word = Splitline.words inLine ∧
      com.wordPtr = split.wordPtr ++ Splitline.starts inLine ∧
      (inLine ≠ [] → com.line = inLine) := by
  obtain ⟨startQuote, endQuote, parsed⟩ := split.parse_eq inLine
  exact ⟨_, parsed, rfl, rfl, fun nonempty => if_neg nonempty⟩

/-- A line of the command line returns. -/
theorem parseOutcome_ok
    (text : (core.users me).text = line)
    (level : (core.users me).level ≠ .login)
    (counted : core.autoID.Counted)
    (answerable : Answerable env me line core) :
    (parseOutcome me core).1 = .ok () := by
  have cleaned : ((core.setUser me fun user =>
      user.setText (cleanString user.text)).users me).text =
        cleanString line := by
    rw [Core.users_setUser_self, text]
    simp [User.setText, User.text]
  obtain ⟨com, parsed, words, offsets, isLine⟩ :=
    exists_parsed (core.users me).com (cleanString line)
  have dispatched : (dispatchOutcome me (core.users me).stage
      ((core.setUser me fun user =>
        user.setText (cleanString user.text)).setUser me
          fun user => { user with com := com })).1 = .ok () := by
    unfold dispatchOutcome
    split
    · rename_i stage
      apply runOutcome_ok
      · exact counted
      · rw [Core.users_setUser_self, words]
        exact answerable.draws ⟨level, stage⟩
      · rw [Core.users_setUser_self]
        simp only [words, offsets]
        intro command
        have nonempty : cleanString line ≠ [] := by
          intro empty
          have long := command.1
          rw [empty] at long
          exact absurd long (by decide)
        have long : 1 < ((core.users me).com.wordPtr ++
            Splitline.starts (cleanString line)).length := by
          have counts := command.1
          rw [Splitline.length_words] at counts
          rw [List.length_append]
          omega
        refine ⟨_, List.getElem?_eq_getElem long, ?_⟩
        rw [isLine nonempty]
        exact answerable.points ⟨level, stage⟩ command _
          (List.getElem?_eq_getElem long)
    · rfl
  have before : ((core.setUser me fun user =>
      user.setText (cleanString user.text)).users me).com =
        (core.users me).com ∧
      ((core.setUser me fun user =>
        user.setText (cleanString user.text)).users me).stage =
          (core.users me).stage := by
    rw [Core.users_setUser_self]
    exact ⟨rfl, rfl⟩
  unfold parseOutcome
  simp only
  rw [cleaned, before.1, before.2, parsed]
  simp only
  split
  · rename_i failed
    rw [failed] at dispatched
    exact absurd dispatched (by simp)
  · rfl

/-- A line is answered, unless a pointer is null. -/
theorem lineOutcome_returned
    (text : (core.users me).text = line)
    (ready : ¬ Unready me core)
    (counted : core.autoID.Counted)
    (answerable : Answerable env me line core) :
    Answered (lineOutcome env me line core).1 := by
  obtain ⟨client, password⟩ := not_or.mp ready
  have effect := lineOutcome_effect env me line core
  generalize lineOutcome env me line core = outcome at effect
  cases effect with
  | answers | fails | names | chooses | confirms => exact .inl rfl
  | abandons => exact .inr ⟨.disconnect, rfl⟩
  | @throws right abort reached loaded =>
      have failed := congrArg Prod.fst loaded
      unfold loadOutcome at failed
      simp only at failed
      split at failed
      · exact absurd failed (by simp)
      · rename_i row found
        have known := answerable.converts right row found
        simp [fromInteger, known] at failed
  | @admits right found reached loaded =>
      have stays := Core.Local.load env me (core.users me).name false core
      rw [loaded] at stays
      have held : ((reached.admitted me).users me).client ≠ none := by
        rw [Core.admitted, Core.users_setUser_self]
        exact stays.client ▸ client
      unfold connectOutcome
      split
      · exact .inl rfl
      · split
        · rename_i missing
          exact absurd missing held
        · exact .inr ⟨.swapped, rfl⟩
  | stumbles awaits missing =>
      rcases missing with missing | missing
      · exact absurd ⟨awaits.2, missing⟩ password
      · exact absurd missing client
  | parses level => exact .inl (parseOutcome_ok text level counted answerable)

end Returns

end Common
end Lotospp
