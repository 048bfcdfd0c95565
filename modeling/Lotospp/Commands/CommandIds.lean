import Lotospp.Commands.LineOutcome

/-!
# The identifiers of commands

`User::runCmdLine` creates an object for each command, which draws an
identifier like a user, and never deletes it.  So a line leaves the live
identifiers as they were only if it names no command.
-/

namespace Lotospp
namespace Commands

open Text Effect Common Strings

/-- A line is parsed and executed. -/
def runLine (env : Env) (me : Nat) (line : Bytes) : CoreM Unit := do
  let user ← user me
  let com ← checked (user.com.parse line)
  update me fun user => { user with com := com }
  runCmdLine env me

/-- The state after a line, however it ends. -/
def afterLine (env : Env) (me : Nat) (core : Core) (line : Bytes) : Core :=
  ((runLine env me line).run core).state

/-- The words begin with a command. -/
def NamesCommand (words : List Bytes) : Prop :=
  ∃ first ∈ words.head?, first ≠ [] ∧ first ≠ [46] ∧
    (iequals (commandWord first) (lit "say") ∨
      iequals (commandWord first) (lit "quit"))

instance (words : List Bytes) : Decidable (NamesCommand words) :=
  inferInstanceAs (Decidable (∃ first ∈ words.head?, _))

/-- Every line ends, and leaves the live identifiers as they were. -/
def KeepsIds (env : Env) (me : Nat) (core : Core) (lines : List Bytes) : Prop :=
  ∀ before line after, lines = before ++ line :: after →
    ((runLine env me line).run (before.foldl (afterLine env me) core)).val ≠
        .error .hang ∧
      ∀ autoId, autoId ∈
          ((before ++ [line]).foldl (afterLine env me) core).autoID.list ↔
        autoId ∈ (before.foldl (afterLine env me) core).autoID.list

/-- Without a command the line is answered or ignored. -/
theorem runOutcome_of_noCommand
    {me : Nat}
    {core : Core}
    (noCommand : ¬ NamesCommand (core.users me).com.word) :
    runOutcome me core = (.ok (), core) := by
  unfold runOutcome
  split
  · rfl
  · rfl
  · rename_i first rest notEmpty words
    rw [words] at noCommand
    have nonempty : first ≠ [] := by
      rintro rfl
      exact notEmpty rfl
    split
    · rfl
    · rename_i notDot
      have unknown : ¬ (iequals (commandWord first) (lit "say") ∨
          iequals (commandWord first) (lit "quit")) := fun named =>
        noCommand ⟨first, rfl, nonempty, notDot, named⟩
      obtain ⟨notSay, notQuit⟩ := not_or.mp unknown
      rw [if_neg notSay, if_neg notQuit]

/-- The identifiers once one has been drawn. -/
theorem drawOutcome_ids (core : Core) :
    drawOutcome core = (.error .hang, core) ∨
      ∃ autoId autoID, core.autoID.construct = some (autoId, autoID) ∧
        drawOutcome core = (.ok (), { core with autoID := autoID }) := by
  unfold drawOutcome
  cases core.autoID.construct with
  | none => exact .inl rfl
  | some answer => exact .inr ⟨answer.1, answer.2, rfl, rfl⟩

/-- A command draws an identifier, or its constructor never ends. -/
theorem runOutcome_of_command
    {me : Nat}
    {core : Core}
    (command : NamesCommand (core.users me).com.word) :
    (runOutcome me core).1 = .error .hang ∨
      ∃ autoId autoID, core.autoID.construct = some (autoId, autoID) ∧
        (runOutcome me core).2.autoID = autoID := by
  obtain ⟨first, isFirst, nonempty, notDot, named⟩ := command
  obtain ⟨rest, words⟩ : ∃ rest, (core.users me).com.word = first :: rest := by
    cases words : (core.users me).com.word with
    | nil => simp [words] at isFirst
    | cons other rest =>
        rw [words, List.head?_cons] at isFirst
        obtain rfl := Option.some.inj isFirst
        exact ⟨rest, rfl⟩
  unfold runOutcome
  rw [words]
  obtain ⟨byte, bytes, rfl⟩ := List.exists_cons_of_ne_nil nonempty
  simp only [notDot, if_false]
  rcases drawOutcome_ids core with hangs | ⟨autoId, autoID, constructed, drawn⟩
  · left
    rw [hangs]
    by_cases isSay : iequals (commandWord (byte :: bytes)) (lit "say")
    · simp [isSay]
    · simp [isSay, named.resolve_left isSay]
  · right
    refine ⟨autoId, autoID, constructed, ?_⟩
    rw [drawn]
    by_cases isSay : iequals (commandWord (byte :: bytes)) (lit "say")
    · simp [isSay]
    · obtain ⟨connections, same⟩ :=
        Core.kicked_eq { core with autoID := autoID } me
      simp [isSay, named.resolve_left isSay, same, Core.removeList]

/-- Running a line. -/
theorem run_runLine (env : Env) (me : Nat) (line : Bytes) (core : Core) :
    ∃ reached : Core, reached.autoID = core.autoID ∧
      (reached.users me).com.word = Splitline.words line ∧
      ((runLine env me line).run core).val = (runOutcome me reached).1 ∧
      afterLine env me core line = (runOutcome me reached).2 := by
  obtain ⟨startQuote, endQuote, parsed⟩ := (core.users me).com.parse_eq line
  refine ⟨core.setUser me fun user => { user with
    com := { (core.users me).com with
      word := Splitline.words line
      line := if line = [] then (core.users me).com.line else line
      wordPtr := (core.users me).com.wordPtr ++ Splitline.starts line
      startQuote := startQuote
      endQuote := endQuote } }, rfl, by simp, ?_⟩
  unfold afterLine runLine
  rw [run_user_bind, parsed, checked_ok, Prog.run_pure_bind, run_update_bind]
  obtain ⟨obs, ran, -⟩ := Runs.runCmdLine env me (core.setUser me fun user =>
    { user with
      com := { (core.users me).com with
        word := Splitline.words line
        line := if line = [] then (core.users me).com.line else line
        wordPtr := (core.users me).com.wordPtr ++ Splitline.starts line
        startQuote := startQuote
        endQuote := endQuote } })
  rw [ran]
  exact ⟨rfl, rfl⟩

/-- One line keeps the identifiers exactly when it names no command. -/
theorem keepsIds_line (env : Env) (me : Nat) (line : Bytes) (core : Core) :
    (((runLine env me line).run core).val ≠ .error .hang ∧
        ∀ autoId, autoId ∈ (afterLine env me core line).autoID.list ↔
          autoId ∈ core.autoID.list) ↔
      ¬ NamesCommand (Splitline.words line) := by
  obtain ⟨reached, sameIds, words, val, state⟩ := run_runLine env me line core
  rw [val, state, ← words, ← sameIds]
  constructor
  · rintro ⟨ends, same⟩ command
    rcases runOutcome_of_command command with
      hangs | ⟨autoId, autoID, constructed, drawn⟩
    · exact ends hangs
    · have isNew := (AutoID.construct_fresh constructed).1
      refine isNew ((same autoId).mp ?_)
      rw [drawn, AutoID.construct_list constructed]
      exact List.mem_cons_self
  · intro noCommand
    rw [runOutcome_of_noCommand noCommand]
    exact ⟨by simp, fun _ => Iff.rfl⟩

/-- So does a line that follows others. -/
theorem keepsIds_turn
    (env : Env)
    (me : Nat)
    (core : Core)
    (before : List Bytes)
    (line : Bytes) :
    (((runLine env me line).run (before.foldl (afterLine env me) core)).val ≠
        .error .hang ∧
      ∀ autoId, autoId ∈
          ((before ++ [line]).foldl (afterLine env me) core).autoID.list ↔
        autoId ∈ (before.foldl (afterLine env me) core).autoID.list) ↔
    ¬ NamesCommand (Splitline.words line) := by
  rw [List.foldl_append]
  exact keepsIds_line env me line _

/-- A sequence of lines leaves the live identifiers as they were after each
line exactly when no line names a command. -/
theorem keepsIds_iff
    (env : Env)
    (me : Nat)
    (core : Core)
    (lines : List Bytes) :
    KeepsIds env me core lines ↔
      ∀ line ∈ lines, ¬ NamesCommand (Splitline.words line) := by
  constructor
  · intro keeps line inside
    obtain ⟨before, after, split⟩ := List.append_of_mem inside
    exact (keepsIds_turn env me core before line).mp
      (keeps before line after split)
  · intro noCommand before line after split
    exact (keepsIds_turn env me core before line).mpr
      (noCommand line (by simp [split]))

/-- The object of the command `say` keeps its identifier. -/
theorem say_keeps_identifier :
    ¬ ∀ env me core lines, KeepsIds env me core lines := by
  intro always
  have keeps : KeepsIds (Env.testing []) 0 {} [lit "say hi"] := always _ _ _ _
  have line := (keepsIds_turn (Env.testing []) 0 {} [] (lit "say hi")).mp
    (keeps [] (lit "say hi") [] rfl)
  have names : NamesCommand (Splitline.words (lit "say hi")) := by
    decide +kernel
  exact line names

end Commands
end Lotospp
