import Mathlib.Data.List.Basic

/-!
# Machines

A machine has a state that several parties act on.  A run is a list of
actions in the order in which they take place; an action that is not possible
in the state it meets is skipped, so that every list of actions is a run and
the runs without impossible actions are among them.

The rules are for what one action keeps: an invariant, an invariant of the
runs whose actions meet a condition, and a relation between a state and the
states after it.
-/

namespace Effect

/-- Where the parties start, and what an action does if it is possible. -/
structure Machine (σ α : Type) where
  /-- The state before the first action. -/
  start : σ
  /-- The state after an action, if the action is possible. -/
  step : σ → α → Option σ

namespace Machine

variable {σ α : Type} (machine : Machine σ α)

/-- An action that is not possible changes nothing. -/
def next (state : σ) (action : α) : σ :=
  (machine.step state action).getD state

/-- The state after a list of actions. -/
def run (state : σ) (actions : List α) : σ :=
  actions.foldl machine.next state

/-- The state after a list of actions from the start. -/
def after (actions : List α) : σ :=
  machine.run machine.start actions

/-- Every action of the run that is possible meets the condition in the state
it is taken in. -/
def Meets (condition : σ → α → Prop) : σ → List α → Prop
  | _, [] => True
  | state, action :: actions =>
      ((machine.step state action).isSome → condition state action) ∧
        Meets condition (machine.next state action) actions

/-- Every state of the run has the property, the first and the last one too. -/
def Always (holds : σ → Prop) : σ → List α → Prop
  | state, [] => holds state
  | state, action :: actions =>
      holds state ∧ Always holds (machine.next state action) actions

@[simp] theorem run_nil (state : σ) : machine.run state [] = state := rfl

@[simp] theorem run_cons (state : σ) (action : α) (actions : List α) :
    machine.run state (action :: actions) =
      machine.run (machine.next state action) actions := rfl

theorem run_append (state : σ) (first second : List α) :
    machine.run state (first ++ second) =
      machine.run (machine.run state first) second := by
  simp [run]

theorem after_append (first second : List α) :
    machine.after (first ++ second) =
      machine.run (machine.after first) second := by
  simp [after, run_append]

theorem next_of_step
    {state state' : σ}
    {action : α}
    (taken : machine.step state action = some state') :
    machine.next state action = state' := by
  simp [next, taken]

theorem next_of_step_none
    {state : σ}
    {action : α}
    (impossible : machine.step state action = none) :
    machine.next state action = state := by
  simp [next, impossible]

/-! ## Invariants -/

variable {machine}

/-- What a possible action keeps, every action keeps. -/
theorem next_keeps
    {inv : σ → Prop}
    {state : σ}
    {action : α}
    (holds : inv state)
    (keeps : ∀ state', machine.step state action = some state' →
      inv state') :
    inv (machine.next state action) := by
  cases taken : machine.step state action with
  | none => rwa [next_of_step_none machine taken]
  | some state' =>
      rw [next_of_step machine taken]
      exact keeps state' taken

/-- An invariant of the steps is an invariant of the runs. -/
theorem run_keeps
    {inv : σ → Prop}
    (keeps : ∀ state action state', inv state →
      machine.step state action = some state' → inv state')
    {state : σ}
    (holds : inv state)
    (actions : List α) :
    inv (machine.run state actions) := by
  induction actions generalizing state with
  | nil => exact holds
  | cons action actions inductionHypothesis =>
      exact inductionHypothesis
        (next_keeps holds fun state' => keeps state action state' holds)

/-- An invariant that holds at the start holds after every run. -/
theorem after_keeps
    {inv : σ → Prop}
    (start : inv machine.start)
    (keeps : ∀ state action state', inv state →
      machine.step state action = some state' → inv state')
    (actions : List α) :
    inv (machine.after actions) :=
  run_keeps keeps start actions

/-! ## Conditions on the steps -/

instance decidableMeets
    (condition : σ → α → Prop)
    [∀ state action, Decidable (condition state action)] :
    ∀ (state : σ) (actions : List α),
      Decidable (machine.Meets condition state actions)
  | _, [] => isTrue trivial
  | state, action :: actions =>
      let _ := decidableMeets condition (machine.next state action) actions
      inferInstanceAs (Decidable (_ ∧ _))

/-- An invariant of the steps that meet a condition is an invariant of the
runs whose steps meet it. -/
theorem run_keeps_of_meets
    {inv : σ → Prop}
    {condition : σ → α → Prop}
    (keeps : ∀ state action state', inv state → condition state action →
      machine.step state action = some state' → inv state')
    {state : σ}
    (holds : inv state)
    {actions : List α}
    (meets : machine.Meets condition state actions) :
    inv (machine.run state actions) := by
  induction actions generalizing state with
  | nil => exact holds
  | cons action actions inductionHypothesis =>
      refine inductionHypothesis (next_keeps holds ?_) meets.2
      intro state' taken
      exact keeps state action state' holds (meets.1 (by simp [taken])) taken

theorem meets_of_mem
    {condition : σ → α → Prop}
    {actions : List α}
    (all : ∀ action ∈ actions, ∀ state, condition state action)
    (state : σ) :
    machine.Meets condition state actions := by
  induction actions generalizing state with
  | nil => exact trivial
  | cons action actions inductionHypothesis =>
      refine ⟨fun _ => all action List.mem_cons_self state, ?_⟩
      exact inductionHypothesis
        (fun other member => all other (List.mem_cons_of_mem _ member)) _

instance decidableAlways
    (holds : σ → Prop)
    [∀ state, Decidable (holds state)] :
    ∀ (state : σ) (actions : List α),
      Decidable (machine.Always holds state actions)
  | state, [] => inferInstanceAs (Decidable (holds state))
  | state, action :: actions =>
      let _ := decidableAlways holds (machine.next state action) actions
      inferInstanceAs (Decidable (_ ∧ _))

theorem Always.first
    {holds : σ → Prop}
    {state : σ}
    {actions : List α}
    (always : machine.Always holds state actions) :
    holds state := by
  cases actions with
  | nil => exact always
  | cons => exact always.1

/-- An invariant of the steps between states with a property is an invariant
of the runs whose states have it. -/
theorem run_keeps_of_always
    {inv holds : σ → Prop}
    (keeps : ∀ state action state', inv state → holds state → holds state' →
      machine.step state action = some state' → inv state')
    {state : σ}
    (invariant : inv state)
    {actions : List α}
    (always : machine.Always holds state actions) :
    inv (machine.run state actions) := by
  induction actions generalizing state with
  | nil => exact invariant
  | cons action actions inductionHypothesis =>
      refine inductionHypothesis (next_keeps invariant ?_) always.2
      intro state' taken
      have last := always.2.first
      rw [next_of_step machine taken] at last
      exact keeps state action state' invariant always.1 last taken

/-! ## Machines with fewer steps -/

/-- Only the steps that meet a condition are possible. -/
def restrict
    (machine : Machine σ α)
    (condition : σ → α → Prop)
    [∀ state action, Decidable (condition state action)] :
    Machine σ α where
  start := machine.start
  step state action :=
    if condition state action then machine.step state action else none

section Restrict

variable {condition : σ → α → Prop}
variable [∀ state action, Decidable (condition state action)]

theorem step_of_restrict
    {state state' : σ}
    {action : α}
    (taken : (machine.restrict condition).step state action = some state') :
    condition state action ∧ machine.step state action = some state' := by
  simp only [restrict] at taken
  split at taken
  · exact ⟨‹_›, taken⟩
  · cases taken

/-- A step that meets the condition if it is possible stays as it is. -/
theorem step_restrict
    {state : σ}
    {action : α}
    (meets : (machine.step state action).isSome → condition state action) :
    (machine.restrict condition).step state action =
      machine.step state action := by
  cases taken : machine.step state action with
  | none => simp [restrict, taken]
  | some state' =>
      rw [← taken]
      exact if_pos (meets (by simp [taken]))

theorem next_restrict
    {state : σ}
    {action : α}
    (meets : (machine.step state action).isSome → condition state action) :
    (machine.restrict condition).next state action =
      machine.next state action := by
  rw [next, step_restrict meets, next]

theorem run_restrict
    {state : σ}
    {actions : List α}
    (meets : machine.Meets condition state actions) :
    (machine.restrict condition).run state actions =
      machine.run state actions := by
  induction actions generalizing state with
  | nil => rfl
  | cons action actions inductionHypothesis =>
      rw [run_cons, run_cons, next_restrict meets.1,
        inductionHypothesis meets.2]

/-- A run whose steps meet the condition is one of the machine with fewer
steps. -/
theorem after_restrict
    {actions : List α}
    (meets : machine.Meets condition machine.start actions) :
    (machine.restrict condition).after actions = machine.after actions :=
  run_restrict meets

theorem always_restrict
    {holds : σ → Prop}
    {state : σ}
    {actions : List α}
    (meets : machine.Meets condition state actions)
    (always : machine.Always holds state actions) :
    (machine.restrict condition).Always holds state actions := by
  induction actions generalizing state with
  | nil => exact always
  | cons action actions inductionHypothesis =>
      refine ⟨always.1, ?_⟩
      rw [next_restrict meets.1]
      exact inductionHypothesis meets.2 always.2

theorem meets_restrict
    {other : σ → α → Prop}
    {state : σ}
    {actions : List α}
    (meets : machine.Meets condition state actions)
    (meetsOther : machine.Meets other state actions) :
    (machine.restrict condition).Meets other state actions := by
  induction actions generalizing state with
  | nil => exact trivial
  | cons action actions inductionHypothesis =>
      refine ⟨?_, ?_⟩
      · rw [step_restrict meets.1]
        exact meetsOther.1
      · rw [next_restrict meets.1]
        exact inductionHypothesis meets.2 meetsOther.2

end Restrict

/-- If a step from a state with the property leads to one with the property
exactly when it meets a condition, then every state of a run has the property
exactly when every step of the run meets the condition. -/
theorem always_iff_meets
    {inv holds : σ → Prop}
    {allowed : α → Prop}
    {condition : σ → α → Prop}
    (keeps : ∀ state action state', inv state → allowed action →
      machine.step state action = some state' → inv state')
    (leads : ∀ state action state', inv state → allowed action →
      holds state → machine.step state action = some state' →
      (holds state' ↔ condition state action))
    {state : σ}
    (invariant : inv state)
    (first : holds state)
    {actions : List α}
    (all : ∀ action ∈ actions, allowed action) :
    machine.Always holds state actions ↔
      machine.Meets condition state actions := by
  induction actions generalizing state with
  | nil => exact iff_of_true first trivial
  | cons action actions inductionHypothesis =>
      have isAllowed := all action List.mem_cons_self
      have rest : ∀ action ∈ actions, allowed action :=
        fun action member => all action (List.mem_cons_of_mem _ member)
      unfold Always Meets
      cases taken : machine.step state action with
      | none =>
          rw [next_of_step_none machine taken]
          simp [inductionHypothesis invariant first rest, first]
      | some state' =>
          rw [next_of_step machine taken]
          have kept := keeps state action state' invariant isAllowed taken
          have leads := leads state action state' invariant isAllowed first taken
          constructor
          · rintro ⟨-, always⟩
            have last := always.first
            exact ⟨fun _ => leads.mp last,
              (inductionHypothesis kept last rest).mp always⟩
          · rintro ⟨meets, later⟩
            have last := leads.mpr (meets rfl)
            exact ⟨first, (inductionHypothesis kept last rest).mpr later⟩

/-! ## Relations -/

/-- What every step from a state of the invariant relates is related by the
runs from such a state, if the relation is reflexive and transitive. -/
theorem run_follows
    {inv : σ → Prop}
    {rel : σ → σ → Prop}
    (refl : ∀ state, rel state state)
    (trans : ∀ first second third,
      rel first second → rel second third → rel first third)
    (keeps : ∀ state action state', inv state →
      machine.step state action = some state' → inv state')
    (follows : ∀ state action state', inv state →
      machine.step state action = some state' → rel state state')
    {state : σ}
    (holds : inv state)
    (actions : List α) :
    rel state (machine.run state actions) := by
  induction actions generalizing state with
  | nil => exact refl state
  | cons action actions inductionHypothesis =>
      have first : rel state (machine.next state action) := by
        cases taken : machine.step state action with
        | none =>
            rw [next_of_step_none machine taken]
            exact refl state
        | some state' =>
            rw [next_of_step machine taken]
            exact follows state action state' holds taken
      have kept : inv (machine.next state action) :=
        next_keeps holds fun state' => keeps state action state' holds
      exact trans _ _ _ first (inductionHypothesis kept)

end Machine
end Effect
