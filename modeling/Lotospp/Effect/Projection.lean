import Lotospp.Effect.Machine
import Mathlib.Data.List.Induction

/-!
# Projections of machines

Several machines may act together as one, and an action of the whole may be
one of several parts at once.  Seen from a part, every run of the whole is a
run of the part, so that what holds after the runs of the part, or after those
whose states or actions meet a condition, holds in the whole too.
-/

namespace Effect
namespace Machine

variable {σ τ α β : Type}

/-- The state of the whole has one of the part in view; an action of the whole
is one of the part, or leaves the part alone. -/
structure Projects
    (whole : Machine σ α)
    (part : Machine τ β)
    (view : σ → τ)
    (move : σ → α → Option β) : Prop where
  /-- Both start together. -/
  start : view whole.start = part.start
  /-- What the part does. -/
  moves : ∀ state action state' moved,
    whole.step state action = some state' → move state action = some moved →
      part.step (view state) moved = some (view state')
  /-- What the part does not do. -/
  stays : ∀ state action state',
    whole.step state action = some state' → move state action = none →
      view state' = view state

/-- The actions of a part in a run of the whole. -/
def seen
    (whole : Machine σ α)
    (move : σ → α → Option β) : σ → List α → List β
  | _, [] => []
  | state, action :: actions =>
      match whole.step state action with
      | none => whole.seen move state actions
      | some state' =>
          (move state action).toList ++ whole.seen move state' actions

section

variable {whole : Machine σ α} {move : σ → α → Option β}
variable {state state' : σ} {action : α}

theorem seen_of_step_none
    (impossible : whole.step state action = none)
    (actions : List α) :
    whole.seen move state (action :: actions) =
      whole.seen move (whole.next state action) actions := by
  simp [seen, impossible, next_of_step_none whole impossible]

theorem seen_of_move
    {moved : β}
    (taken : whole.step state action = some state')
    (moves : move state action = some moved)
    (actions : List α) :
    whole.seen move state (action :: actions) =
      moved :: whole.seen move (whole.next state action) actions := by
  simp [seen, taken, moves, next_of_step whole taken]

theorem seen_of_stay
    (taken : whole.step state action = some state')
    (stays : move state action = none)
    (actions : List α) :
    whole.seen move state (action :: actions) =
      whole.seen move (whole.next state action) actions := by
  simp [seen, taken, stays, next_of_step whole taken]

end

namespace Projects

variable {whole : Machine σ α} {part : Machine τ β}
variable {view : σ → τ} {move : σ → α → Option β}

/-- A run of the whole is a run of the part. -/
theorem run
    (projects : Projects whole part view move)
    (state : σ)
    (actions : List α) :
    view (whole.run state actions) =
      part.run (view state) (whole.seen move state actions) := by
  induction actions generalizing state with
  | nil => rfl
  | cons action actions inductionHypothesis =>
      rw [run_cons, inductionHypothesis]
      cases taken : whole.step state action with
      | none =>
          rw [seen_of_step_none taken, next_of_step_none whole taken]
      | some state' =>
          have next := next_of_step whole taken
          cases moves : move state action with
          | none =>
              rw [seen_of_stay taken moves, next,
                projects.stays state action state' taken moves]
          | some moved =>
              have step := projects.moves state action state' moved taken moves
              rw [seen_of_move taken moves, run_cons, next,
                next_of_step part step]

theorem after
    (projects : Projects whole part view move)
    (actions : List α) :
    view (whole.after actions) =
      part.after (whole.seen move whole.start actions) := by
  rw [Machine.after, projects.run, projects.start, Machine.after]

/-- What holds after every run of the part holds after every run of the
whole. -/
theorem after_of_part
    (projects : Projects whole part view move)
    {holds : τ → Prop}
    (part : ∀ moves, holds (part.after moves))
    (actions : List α) :
    holds (view (whole.after actions)) := by
  rw [projects.after]
  exact part _

/-- If all states of a run have the property in view, then so have those of
the run of the part. -/
theorem always
    (projects : Projects whole part view move)
    {holds : τ → Prop}
    {state : σ}
    {actions : List α}
    (always : whole.Always (fun state => holds (view state)) state actions) :
    part.Always holds (view state) (whole.seen move state actions) := by
  induction actions generalizing state with
  | nil => exact always
  | cons action actions inductionHypothesis =>
      obtain ⟨first, later⟩ := always
      have later := inductionHypothesis later
      cases taken : whole.step state action with
      | none =>
          rw [seen_of_step_none taken]
          rwa [next_of_step_none whole taken] at later ⊢
      | some state' =>
          have next := next_of_step whole taken
          cases moves : move state action with
          | none =>
              have stays := projects.stays state action state' taken moves
              rw [seen_of_stay taken moves]
              rwa [next, stays, ← next] at later
          | some moved =>
              have step := projects.moves state action state' moved taken moves
              rw [seen_of_move taken moves]
              refine ⟨first, ?_⟩
              rwa [next_of_step part step, ← next]

/-- If the actions of a run meet a condition of the part, then so do those of
the run of the part. -/
theorem meets
    (projects : Projects whole part view move)
    {condition : τ → β → Prop}
    {state : σ}
    {actions : List α}
    (meets : whole.Meets (fun state action =>
      ∀ moved, move state action = some moved →
        condition (view state) moved) state actions) :
    part.Meets condition (view state) (whole.seen move state actions) := by
  induction actions generalizing state with
  | nil => exact trivial
  | cons action actions inductionHypothesis =>
      obtain ⟨first, later⟩ := meets
      have later := inductionHypothesis later
      cases taken : whole.step state action with
      | none =>
          rw [seen_of_step_none taken]
          rwa [next_of_step_none whole taken] at later ⊢
      | some state' =>
          have next := next_of_step whole taken
          cases moves : move state action with
          | none =>
              have stays := projects.stays state action state' taken moves
              rw [seen_of_stay taken moves]
              rwa [next, stays, ← next] at later
          | some moved =>
              have step := projects.moves state action state' moved taken moves
              rw [seen_of_move taken moves]
              refine ⟨fun _ => first (by simp [taken]) moved moves, ?_⟩
              rwa [next_of_step part step, ← next]

end Projects

/-- To keep an invariant, an action may use what is known of the states of all
runs. -/
theorem after_keeps_of_known
    {machine : Machine σ α}
    {inv known : σ → Prop}
    (isKnown : ∀ actions, known (machine.after actions))
    (start : inv machine.start)
    (keeps : ∀ state action state', inv state → known state → known state' →
      machine.step state action = some state' → inv state')
    (actions : List α) :
    inv (machine.after actions) := by
  induction actions using List.reverseRecOn with
  | nil => exact start
  | append_singleton actions action inductionHypothesis =>
      have last := isKnown (actions ++ [action])
      rw [after_append, run_cons, run_nil] at last ⊢
      refine next_keeps inductionHypothesis fun state' taken => ?_
      rw [next_of_step machine taken] at last
      exact keeps _ action state' inductionHypothesis (isKnown actions) last
        taken

end Machine
end Effect
