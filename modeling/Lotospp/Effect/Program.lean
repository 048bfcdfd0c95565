import Mathlib.Data.List.Basic
import Mathlib.Logic.Function.Basic

/-!
# Programs with state, exceptions and observations

A program transforms a state, ends with a value or an abort, and emits
observations on the way.  The state reached before an abort and the
observations emitted before it are kept.

`Spec` is the program logic: a precondition on the state and on what has been
observed so far, a postcondition for a normal end and one for an abort.
-/

namespace Effect

/-- The outcome of running a program. -/
structure Run (ε σ ω α : Type) where
  /-- The value, or the abort. -/
  val : Except ε α
  /-- The state at the end. -/
  state : σ
  /-- What was observed, in order. -/
  obs : List ω

/-- The same outcome after earlier observations. -/
def Run.prepend
    {ε σ ω α : Type}
    (run : Run ε σ ω α)
    (past : List ω) :
    Run ε σ ω α :=
  { run with obs := past ++ run.obs }

@[simp] theorem Run.prepend_val
    {ε σ ω α : Type} (run : Run ε σ ω α) (past : List ω) :
    (run.prepend past).val = run.val := rfl

@[simp] theorem Run.prepend_state
    {ε σ ω α : Type} (run : Run ε σ ω α) (past : List ω) :
    (run.prepend past).state = run.state := rfl

@[simp] theorem Run.prepend_obs
    {ε σ ω α : Type} (run : Run ε σ ω α) (past : List ω) :
    (run.prepend past).obs = past ++ run.obs := rfl

@[simp] theorem Run.prepend_nil
    {ε σ ω α : Type} (run : Run ε σ ω α) : run.prepend [] = run := rfl

@[simp] theorem Run.prepend_prepend
    {ε σ ω α : Type} (run : Run ε σ ω α) (first second : List ω) :
    (run.prepend second).prepend first = run.prepend (first ++ second) := by
  simp [Run.prepend]

@[simp] theorem Run.prepend_mk
    {ε σ ω α : Type}
    (val : Except ε α) (state : σ) (obs past : List ω) :
    (Run.mk val state obs).prepend past = ⟨val, state, past ++ obs⟩ := rfl

/-- The run, after the past, ended normally in `post` or aborted in `exit`. -/
def Run.Ends
    {ε σ ω α : Type}
    (run : Run ε σ ω α)
    (past : List ω)
    (post : α → σ → List ω → Prop)
    (exit : ε → σ → List ω → Prop) : Prop :=
  match run.val with
  | .ok value => post value run.state (past ++ run.obs)
  | .error abort => exit abort run.state (past ++ run.obs)

@[simp] theorem Run.ends_ok
    {ε σ ω α : Type}
    (value : α) (state : σ) (obs past : List ω)
    (post : α → σ → List ω → Prop)
    (exit : ε → σ → List ω → Prop) :
    (Run.mk (.ok value) state obs).Ends past post exit ↔
      post value state (past ++ obs) := Iff.rfl

@[simp] theorem Run.ends_error
    {ε σ ω α : Type}
    (abort : ε) (state : σ) (obs past : List ω)
    (post : α → σ → List ω → Prop)
    (exit : ε → σ → List ω → Prop) :
    (Run.mk (.error abort) state obs).Ends past post exit ↔
      exit abort state (past ++ obs) := Iff.rfl

@[simp] theorem Run.ends_prepend
    {ε σ ω α : Type}
    (run : Run ε σ ω α) (earlier past : List ω)
    (post : α → σ → List ω → Prop)
    (exit : ε → σ → List ω → Prop) :
    (run.prepend earlier).Ends past post exit ↔
      run.Ends (past ++ earlier) post exit := by
  simp [Run.Ends]

/-- The postconditions may be weakened. -/
theorem Run.Ends.mono
    {ε σ ω α : Type}
    {run : Run ε σ ω α}
    {past : List ω}
    {post weaker : α → σ → List ω → Prop}
    {exit weakerExit : ε → σ → List ω → Prop}
    (ends : run.Ends past post exit)
    (after : ∀ value state past, post value state past →
      weaker value state past)
    (afterExit : ∀ abort state past, exit abort state past →
      weakerExit abort state past) :
    run.Ends past weaker weakerExit := by
  obtain ⟨abort | value, state, obs⟩ := run
  · exact afterExit abort state _ ends
  · exact after value state _ ends

/-- Two postconditions hold together. -/
theorem Run.Ends.and
    {ε σ ω α : Type}
    {run : Run ε σ ω α}
    {past : List ω}
    {post postToo : α → σ → List ω → Prop}
    {exit exitToo : ε → σ → List ω → Prop}
    (ends : run.Ends past post exit)
    (endsToo : run.Ends past postToo exitToo) :
    run.Ends past
      (fun value state past => post value state past ∧ postToo value state past)
      fun abort state past =>
        exit abort state past ∧ exitToo abort state past := by
  obtain ⟨abort | value, state, obs⟩ := run
  · exact ⟨ends, endsToo⟩
  · exact ⟨ends, endsToo⟩

/-- A postcondition that holds of every later past. -/
theorem Run.ends_of_forall
    {ε σ ω α : Type}
    (run : Run ε σ ω α)
    {past : List ω}
    {post : α → σ → List ω → Prop}
    {exit : ε → σ → List ω → Prop}
    (after : ∀ value state more, post value state (past ++ more))
    (afterExit : ∀ abort state more, exit abort state (past ++ more)) :
    run.Ends past post exit := by
  obtain ⟨abort | value, state, obs⟩ := run
  · exact afterExit abort state obs
  · exact after value state obs

/-- A program that may abort with `ε`, acts on a state `σ` and emits
observations `ω`. -/
def Prog (ε σ ω α : Type) : Type :=
  σ → Run ε σ ω α

namespace Prog

variable {ε σ τ ω α β : Type}

/-- Run a program. -/
def run (prog : Prog ε σ ω α) (state : σ) : Run ε σ ω α :=
  prog state

instance : Monad (Prog ε σ ω) where
  pure value := fun state => ⟨.ok value, state, []⟩
  bind prog next := fun state =>
    match prog state with
    | ⟨.ok value, reached, obs⟩ => (next value reached).prepend obs
    | ⟨.error abort, reached, obs⟩ => ⟨.error abort, reached, obs⟩

/-- The state. -/
def get : Prog ε σ ω σ :=
  fun state => ⟨.ok state, state, []⟩

/-- Change the state. -/
def modify (change : σ → σ) : Prog ε σ ω Unit :=
  fun state => ⟨.ok (), change state, []⟩

/-- Abort. -/
def raise (abort : ε) : Prog ε σ ω α :=
  fun state => ⟨.error abort, state, []⟩

/-- Emit an observation. -/
def emit (observation : ω) : Prog ε σ ω Unit :=
  fun state => ⟨.ok (), state, [observation]⟩

/-- Run a program only if a condition holds. -/
def when (condition : Prop) [Decidable condition] (prog : Prog ε σ ω Unit) :
    Prog ε σ ω Unit :=
  if condition then prog else pure ()

/-- Run a program on a part of the state. -/
def zoom
    (view : σ → τ)
    (update : τ → σ → σ)
    (prog : Prog ε τ ω α) :
    Prog ε σ ω α :=
  fun state =>
    match prog (view state) with
    | ⟨val, part, obs⟩ => ⟨val, update part state, obs⟩

/-- Run a program and continue with `handler` from an abort. -/
def handle
    (prog : Prog ε σ ω α)
    (handler : ε → Prog ε σ ω α) :
    Prog ε σ ω α :=
  fun state =>
    match prog state with
    | ⟨.ok value, reached, obs⟩ => ⟨.ok value, reached, obs⟩
    | ⟨.error abort, reached, obs⟩ => (handler abort reached).prepend obs

/-- Run a program for every element of a list, in order. -/
def forEach (list : List α) (body : α → Prog ε σ ω Unit) :
    Prog ε σ ω Unit :=
  match list with
  | [] => pure ()
  | element :: rest => do
      body element
      forEach rest body

/-- Repeat `body` until it answers with a result.  A loop that takes more
than `fuel` turns aborts as `stuck`. -/
def loop
    (body : α → Prog ε σ ω (α ⊕ β))
    (stuck : ε) :
    (fuel : Nat) → α → Prog ε σ ω β
  | 0, _ => raise stuck
  | fuel + 1, position => do
      match ← body position with
      | .inl next => loop body stuck fuel next
      | .inr result => pure result

/-- Every turn of a loop starts in `turn`, up to so many turns. -/
def Turns
    (body : α → Prog ε σ ω (α ⊕ β))
    (turn : α → σ → Prop) :
    (fuel : Nat) → α → σ → Prop
  | 0, _, _ => True
  | fuel + 1, position, state =>
      turn position state ∧
        match (body position state).val with
        | .ok (.inl next) => Turns body turn fuel next (body position state).state
        | _ => True

/-! ## Running -/

@[simp] theorem run_pure (value : α) (state : σ) :
    (pure value : Prog ε σ ω α).run state = ⟨.ok value, state, []⟩ := rfl

@[simp] theorem run_get (state : σ) :
    (get : Prog ε σ ω σ).run state = ⟨.ok state, state, []⟩ := rfl

@[simp] theorem run_modify (change : σ → σ) (state : σ) :
    (modify change : Prog ε σ ω Unit).run state =
      ⟨.ok (), change state, []⟩ := rfl

@[simp] theorem run_raise (abort : ε) (state : σ) :
    (raise abort : Prog ε σ ω α).run state = ⟨.error abort, state, []⟩ := rfl

@[simp] theorem run_emit (observation : ω) (state : σ) :
    (emit observation : Prog ε σ ω Unit).run state =
      ⟨.ok (), state, [observation]⟩ := rfl

theorem run_bind
    (prog : Prog ε σ ω α)
    (next : α → Prog ε σ ω β)
    (state : σ) :
    (prog >>= next).run state =
      match prog.run state with
      | ⟨.ok value, reached, obs⟩ => ((next value).run reached).prepend obs
      | ⟨.error abort, reached, obs⟩ => ⟨.error abort, reached, obs⟩ := rfl

/-- A bind continues from a normal end. -/
theorem run_bind_ok
    {prog : Prog ε σ ω α}
    {state reached : σ}
    {value : α}
    {obs : List ω}
    (ran : prog.run state = ⟨.ok value, reached, obs⟩)
    (next : α → Prog ε σ ω β) :
    (prog >>= next).run state = ((next value).run reached).prepend obs := by
  rw [run_bind, ran]

/-- A bind stops at an abort. -/
theorem run_bind_error
    {prog : Prog ε σ ω α}
    {state reached : σ}
    {abort : ε}
    {obs : List ω}
    (ran : prog.run state = ⟨.error abort, reached, obs⟩)
    (next : α → Prog ε σ ω β) :
    (prog >>= next).run state = ⟨.error abort, reached, obs⟩ := by
  rw [run_bind, ran]

/-- A bind ends as its second part does after its first part. -/
theorem ends_bind
    {prog : Prog ε σ ω α}
    {next : α → Prog ε σ ω β}
    {state : σ}
    {past : List ω}
    {post : β → σ → List ω → Prop}
    {exit : ε → σ → List ω → Prop}
    (first : (prog.run state).Ends past
      (fun value reached past => ((next value).run reached).Ends past post exit)
      exit) :
    ((prog >>= next).run state).Ends past post exit := by
  rw [run_bind]
  generalize prog.run state = ran at first ⊢
  obtain ⟨abort | value, reached, obs⟩ := ran
  · exact first
  · exact (Run.ends_prepend ..).mpr first

@[simp] theorem run_pure_bind
    (value : α) (next : α → Prog ε σ ω β) (state : σ) :
    (pure value >>= next).run state = (next value).run state := rfl

@[simp] theorem run_get_bind (next : σ → Prog ε σ ω β) (state : σ) :
    (get >>= next).run state = (next state).run state := rfl

@[simp] theorem run_modify_bind
    (change : σ → σ) (next : Unit → Prog ε σ ω β) (state : σ) :
    (modify change >>= next).run state = (next ()).run (change state) := rfl

@[simp] theorem run_raise_bind
    (abort : ε) (next : α → Prog ε σ ω β) (state : σ) :
    (raise abort >>= next).run state = ⟨.error abort, state, []⟩ := rfl

@[simp] theorem run_emit_bind
    (observation : ω) (next : Unit → Prog ε σ ω β) (state : σ) :
    (emit observation >>= next).run state =
      ((next ()).run state).prepend [observation] := rfl

@[simp] theorem run_bind_bind
    {γ : Type}
    (prog : Prog ε σ ω α)
    (next : α → Prog ε σ ω β)
    (last : β → Prog ε σ ω γ)
    (state : σ) :
    ((prog >>= next) >>= last).run state =
      (prog >>= fun value => next value >>= last).run state := by
  simp only [run_bind]
  rcases prog.run state with ⟨_ | value, reached, obs⟩
  · rfl
  · simp only
    rcases (next value).run reached with ⟨_ | result, final, more⟩
    · rfl
    · simp [Run.prepend]

@[simp] theorem run_ite
    (condition : Prop) [Decidable condition]
    (first second : Prog ε σ ω α)
    (state : σ) :
    (if condition then first else second).run state =
      if condition then first.run state else second.run state := by
  split <;> rfl

@[simp] theorem run_when
    (condition : Prop) [Decidable condition]
    (prog : Prog ε σ ω Unit)
    (state : σ) :
    (when condition prog).run state =
      if condition then prog.run state else ⟨.ok (), state, []⟩ := by
  rw [when, run_ite, run_pure]

theorem when_congr
    {first second : Prop} [Decidable first] [Decidable second]
    (same : first ↔ second)
    (prog : Prog ε σ ω Unit) :
    when first prog = when second prog := by
  simp only [when, same]

theorem run_zoom
    (view : σ → τ)
    (update : τ → σ → σ)
    (prog : Prog ε τ ω α)
    (state : σ) :
    (zoom view update prog).run state =
      ⟨(prog.run (view state)).val,
        update (prog.run (view state)).state state,
        (prog.run (view state)).obs⟩ := rfl

theorem run_handle
    (prog : Prog ε σ ω α)
    (handler : ε → Prog ε σ ω α)
    (state : σ) :
    (handle prog handler).run state =
      match prog.run state with
      | ⟨.ok value, reached, obs⟩ => ⟨.ok value, reached, obs⟩
      | ⟨.error abort, reached, obs⟩ =>
          ((handler abort).run reached).prepend obs := rfl

/-- A turn that leads back to the same position and state repeats until the
fuel is used up. -/
theorem run_loop_stuck
    {body : α → Prog ε σ ω (α ⊕ β)}
    {position : α}
    {state : σ}
    {obs : List ω}
    (turn : (body position).run state = ⟨.ok (.inl position), state, obs⟩)
    (stuck : ε)
    (fuel : Nat) :
    ∃ more, (∀ observation ∈ more, observation ∈ obs) ∧
      (loop body stuck fuel position).run state =
        ⟨.error stuck, state, more⟩ := by
  induction fuel with
  | zero => exact ⟨[], by simp, rfl⟩
  | succ fuel inductionHypothesis =>
      obtain ⟨more, inside, ran⟩ := inductionHypothesis
      refine ⟨obs ++ more, ?_, ?_⟩
      · simp only [List.mem_append]
        rintro observation (shown | shown)
        · exact shown
        · exact inside observation shown
      · rw [loop, run_bind_ok turn, ran, Run.prepend_mk]

theorem turns_succ
    (body : α → Prog ε σ ω (α ⊕ β))
    (turn : α → σ → Prop)
    (fuel : Nat)
    (position : α)
    (state : σ) :
    Turns body turn (fuel + 1) position state ↔
      turn position state ∧
        ∀ next, ((body position).run state).val = .ok (.inl next) →
          Turns body turn fuel next ((body position).run state).state := by
  rw [Turns, run]
  refine and_congr_right fun _ => ?_
  obtain ⟨abort | next | result, reached, obs⟩ := body position state
  · simp
  · simp
  · simp

@[simp] theorem run_forEach_nil (body : α → Prog ε σ ω Unit) (state : σ) :
    (forEach [] body).run state = ⟨.ok (), state, []⟩ := rfl

@[simp] theorem forEach_cons
    (element : α) (rest : List α) (body : α → Prog ε σ ω Unit) :
    forEach (element :: rest) body =
      (body element >>= fun _ => forEach rest body) := rfl

theorem run_forEach_append
    (list more : List α) (body : α → Prog ε σ ω Unit) (state : σ) :
    (forEach (list ++ more) body).run state =
      (forEach list body >>= fun _ => forEach more body).run state := by
  induction list generalizing state with
  | nil => rfl
  | cons element rest inductionHypothesis =>
      rw [List.cons_append, forEach_cons, forEach_cons, run_bind_bind, run_bind,
        run_bind]
      simp only [inductionHypothesis]

/-! ## Specifications -/

/-- From every state and past that meet `pre`, the program ends normally in
`post` or aborts in `exit`. -/
def Spec
    (pre : σ → List ω → Prop)
    (prog : Prog ε σ ω α)
    (post : α → σ → List ω → Prop)
    (exit : ε → σ → List ω → Prop) : Prop :=
  ∀ state past, pre state past → (prog.run state).Ends past post exit

namespace Spec

variable {pre : σ → List ω → Prop}
variable {post : α → σ → List ω → Prop}
variable {exit : ε → σ → List ω → Prop}

theorem conseq
    {prog : Prog ε σ ω α}
    {stronger : σ → List ω → Prop}
    {weaker : α → σ → List ω → Prop}
    (spec : Spec pre prog post exit)
    (before : ∀ state past, stronger state past → pre state past)
    (after : ∀ value state past, post value state past →
      weaker value state past) :
    Spec stronger prog weaker exit := by
  intro state past start
  have outcome := spec state past (before state past start)
  generalize prog.run state = ran at outcome ⊢
  obtain ⟨_ | value, reached, obs⟩ := ran
  · exact outcome
  · exact after value reached _ outcome

theorem pure_intro
    {value : α}
    (done : ∀ state past, pre state past → post value state past) :
    Spec pre (pure value : Prog ε σ ω α) post exit := by
  intro state past start
  simpa using done state past start

theorem raise_intro
    {abort : ε}
    (done : ∀ state past, pre state past → exit abort state past) :
    Spec pre (raise abort : Prog ε σ ω α) post exit := by
  intro state past start
  simpa using done state past start

theorem emit_intro
    {observation : ω}
    {post : Unit → σ → List ω → Prop}
    (done : ∀ state past, pre state past →
      post () state (past ++ [observation])) :
    Spec pre (emit observation : Prog ε σ ω Unit) post exit := by
  intro state past start
  simpa using done state past start

theorem modify_intro
    {change : σ → σ}
    {post : Unit → σ → List ω → Prop}
    (done : ∀ state past, pre state past → post () (change state) past) :
    Spec pre (modify change : Prog ε σ ω Unit) post exit := by
  intro state past start
  simpa using done state past start

/-- Sequential composition. -/
theorem bind
    {prog : Prog ε σ ω β}
    {next : β → Prog ε σ ω α}
    {middle : β → σ → List ω → Prop}
    (first : Spec pre prog middle exit)
    (second : ∀ value, Spec (middle value) (next value) post exit) :
    Spec pre (prog >>= next) post exit := by
  intro state past start
  have outcome := first state past start
  rw [run_bind]
  generalize prog.run state = ran at outcome ⊢
  obtain ⟨_ | value, reached, obs⟩ := ran
  · exact outcome
  · have rest := second value reached (past ++ obs) outcome
    simpa using rest

/-- Reading the state: the continuation is checked from that state only. -/
theorem get_bind
    {next : σ → Prog ε σ ω α}
    (second : ∀ state,
      Spec (fun current past => current = state ∧ pre state past)
        (next state) post exit) :
    Spec pre (get >>= next) post exit := by
  intro state past start
  exact second state state past ⟨rfl, start⟩

theorem ite
    {condition : Prop} [Decidable condition]
    {first second : Prog ε σ ω α}
    (holds : condition → Spec pre first post exit)
    (fails : ¬ condition → Spec pre second post exit) :
    Spec pre (if condition then first else second) post exit := by
  split
  · exact holds ‹_›
  · exact fails ‹_›

/-- An abort is followed by its handler. -/
theorem handle_intro
    {prog : Prog ε σ ω α}
    {handler : ε → Prog ε σ ω α}
    {middle : ε → σ → List ω → Prop}
    (first : Spec pre prog post middle)
    (second : ∀ abort, Spec (middle abort) (handler abort) post exit) :
    Spec pre (handle prog handler) post exit := by
  intro state past start
  have outcome := first state past start
  rw [run_handle]
  generalize prog.run state = ran at outcome ⊢
  obtain ⟨abort | value, reached, obs⟩ := ran
  · simpa using second abort reached (past ++ obs) outcome
  · exact outcome

theorem forEach
    {list : List β}
    {body : β → Prog ε σ ω Unit}
    (step : ∀ element ∈ list, Spec pre (body element) (fun _ => pre) exit) :
    Spec pre (Prog.forEach list body) (fun _ => pre) exit := by
  induction list with
  | nil => exact pure_intro fun _ _ start => start
  | cons element rest inductionHypothesis =>
      rw [forEach_cons]
      apply bind (step element (List.mem_cons_self ..))
      intro _
      exact inductionHypothesis fun other inside =>
        step other (List.mem_cons_of_mem _ inside)

end Spec

/-! ## Invariants -/

/-- The program preserves an invariant, and its aborts end in `exit`. -/
def Preserves
    (inv : σ → List ω → Prop)
    (exit : ε → σ → List ω → Prop)
    (prog : Prog ε σ ω α) : Prop :=
  Spec inv prog (fun _ => inv) exit

namespace Preserves

variable {inv : σ → List ω → Prop}
variable {exit : ε → σ → List ω → Prop}

theorem pure_intro (value : α) :
    Preserves inv exit (pure value : Prog ε σ ω α) :=
  Spec.pure_intro fun _ _ holds => holds

theorem raise_intro
    {abort : ε}
    (done : ∀ state past, inv state past → exit abort state past) :
    Preserves inv exit (raise abort : Prog ε σ ω α) :=
  Spec.raise_intro done

theorem emit_intro
    {observation : ω}
    (done : ∀ state past, inv state past → inv state (past ++ [observation])) :
    Preserves inv exit (emit observation : Prog ε σ ω Unit) :=
  Spec.emit_intro done

theorem modify_intro
    {change : σ → σ}
    (done : ∀ state past, inv state past → inv (change state) past) :
    Preserves inv exit (modify change : Prog ε σ ω Unit) :=
  Spec.modify_intro done

theorem bind
    {prog : Prog ε σ ω α}
    {next : α → Prog ε σ ω β}
    (first : Preserves inv exit prog)
    (second : ∀ value, Preserves inv exit (next value)) :
    Preserves inv exit (prog >>= next) :=
  Spec.bind first second

theorem get_bind
    {next : σ → Prog ε σ ω α}
    (second : ∀ state, Preserves inv exit (next state)) :
    Preserves inv exit (get >>= next) :=
  fun state past start => second state state past start

theorem ite
    {condition : Prop} [Decidable condition]
    {first second : Prog ε σ ω α}
    (holds : Preserves inv exit first)
    (fails : Preserves inv exit second) :
    Preserves inv exit (if condition then first else second) :=
  Spec.ite (fun _ => holds) fun _ => fails

theorem loop
    {body : α → Prog ε σ ω (α ⊕ β)}
    {stuck : ε}
    (turn : ∀ position, Preserves inv exit (body position))
    (outOfFuel : ∀ state past, inv state past → exit stuck state past)
    (fuel : Nat)
    (position : α) :
    Preserves inv exit (Prog.loop body stuck fuel position) := by
  induction fuel generalizing position with
  | zero => exact raise_intro outOfFuel
  | succ fuel inductionHypothesis =>
      apply bind (turn position)
      rintro (next | result)
      · exact inductionHypothesis next
      · exact pure_intro result

end Preserves
end Prog
end Effect
