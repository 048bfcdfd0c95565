import Mathlib.Data.List.TakeWhile
import Lotospp.Effect.Program

/-!
# Two runs

An observer sees some of the observations of a run, up to the first at which
it stops looking.  Two runs are indistinct when it sees the same in both, and
when they end alike unless it has stopped looking.
-/

namespace Effect

/-- What an observer sees of a run. -/
structure Observer (ω γ : Type) where
  /-- What it sees of an observation. -/
  sees : ω → Option γ
  /-- It stops looking at this observation. -/
  stops : ω → Bool

namespace Observer

variable {ω γ : Type} (observer : Observer ω γ)

/-- What the observer has seen. -/
def seen (obs : List ω) : List γ :=
  (obs.takeWhile fun observation => !observer.stops observation).filterMap
    observer.sees

/-- The observer has not stopped looking. -/
def Looks (obs : List ω) : Prop :=
  ∀ observation ∈ obs, observer.stops observation = false

@[simp] theorem looks_nil : observer.Looks [] := by
  simp [Looks]

@[simp] theorem looks_cons (first : ω) (rest : List ω) :
    observer.Looks (first :: rest) ↔
      observer.stops first = false ∧ observer.Looks rest :=
  List.forall_mem_cons

@[simp] theorem looks_append (obs more : List ω) :
    observer.Looks (obs ++ more) ↔ observer.Looks obs ∧ observer.Looks more :=
  List.forall_mem_append

variable {observer}

theorem seen_of_looks
    {obs : List ω}
    (looks : observer.Looks obs) :
    observer.seen obs = obs.filterMap observer.sees := by
  rw [seen, List.takeWhile_eq_self_iff.mpr]
  intro observation shown
  simp [looks observation shown]

theorem seen_append
    {obs : List ω}
    (looks : observer.Looks obs)
    (more : List ω) :
    observer.seen (obs ++ more) = observer.seen obs ++ observer.seen more := by
  rw [seen_of_looks looks, seen, List.takeWhile_append_of_pos,
    List.filterMap_append]
  · rfl
  · intro observation shown
    simp [looks observation shown]

theorem seen_append_stopped
    {obs : List ω}
    (stopped : ¬ observer.Looks obs)
    (more : List ω) : observer.seen (obs ++ more) = observer.seen obs := by
  induction obs with
  | nil => exact absurd observer.looks_nil stopped
  | cons first rest inductionHypothesis =>
      cases stops : observer.stops first with
      | true => simp [seen, stops]
      | false =>
          have stoppedRest : ¬ observer.Looks rest := by
            simpa [stops] using stopped
          have same := inductionHypothesis stoppedRest
          unfold seen at same ⊢
          simp only [List.cons_append, List.takeWhile_cons, stops,
            Bool.not_false, if_true, List.filterMap_cons, same]

end Observer

variable {ε σ τ ω γ α β : Type} {observer : Observer ω γ}

/-- The observer sees the same in both runs, and while it looks they end
alike, in related values and states. -/
inductive Indistinct
    (observer : Observer ω γ)
    (related : α → σ → α → σ → Prop) :
    Run ε σ ω α → Run ε σ ω α → Prop
  /-- It has stopped looking at both. -/
  | stopped {first second : Run ε σ ω α} :
      ¬ observer.Looks first.obs → ¬ observer.Looks second.obs →
      observer.seen first.obs = observer.seen second.obs →
      Indistinct observer related first second
  /-- Both end normally. -/
  | returned {value value' : α} {state state' : σ} {obs obs' : List ω} :
      observer.Looks obs → observer.Looks obs' →
      observer.seen obs = observer.seen obs' →
      related value state value' state' →
      Indistinct observer related ⟨.ok value, state, obs⟩
        ⟨.ok value', state', obs'⟩
  /-- Both abort for the same reason. -/
  | aborted {abort : ε} {state state' : σ} {obs obs' : List ω} :
      observer.Looks obs → observer.Looks obs' →
      observer.seen obs = observer.seen obs' →
      Indistinct observer related ⟨.error abort, state, obs⟩
        ⟨.error abort, state', obs'⟩

namespace Indistinct

variable {related : α → σ → α → σ → Prop}
variable {first second : Run ε σ ω α}

/-- The observer sees the same. -/
theorem seen
    (indistinct : Indistinct observer related first second) :
    observer.seen first.obs = observer.seen second.obs := by
  cases indistinct with
  | stopped _ _ same => exact same
  | returned _ _ same _ => exact same
  | aborted _ _ same => exact same

theorem mono
    {weaker : α → σ → α → σ → Prop}
    (indistinct : Indistinct observer related first second)
    (implies : ∀ value state value' state',
      related value state value' state' → weaker value state value' state') :
    Indistinct observer weaker first second := by
  cases indistinct with
  | stopped stopped stopped' same => exact .stopped stopped stopped' same
  | returned looks looks' same holds =>
      exact .returned looks looks' same (implies _ _ _ _ holds)
  | aborted looks looks' same => exact .aborted looks looks' same

/-- The same may have been seen before. -/
theorem prepend
    {past past' : List ω}
    (looks : observer.Looks past)
    (looks' : observer.Looks past')
    (same : observer.seen past = observer.seen past')
    (indistinct : Indistinct observer related first second) :
    Indistinct observer related (first.prepend past)
      (second.prepend past') := by
  have both : ∀ {obs obs' : List ω},
      observer.seen obs = observer.seen obs' →
        observer.seen (past ++ obs) = observer.seen (past' ++ obs') := by
    intro obs obs' rest
    rw [Observer.seen_append looks, Observer.seen_append looks', same, rest]
  cases indistinct with
  | stopped stopped stopped' rest =>
      refine .stopped ?_ ?_ (both rest)
      · exact fun all => stopped ((observer.looks_append ..).mp all).2
      · exact fun all => stopped' ((observer.looks_append ..).mp all).2
  | returned looksRest looksRest' rest holds =>
      exact .returned ((observer.looks_append ..).mpr ⟨looks, looksRest⟩)
        ((observer.looks_append ..).mpr ⟨looks', looksRest'⟩) (both rest) holds
  | aborted looksRest looksRest' rest =>
      exact .aborted ((observer.looks_append ..).mpr ⟨looks, looksRest⟩)
        ((observer.looks_append ..).mpr ⟨looks', looksRest'⟩) (both rest)

/-- What follows does not matter once the observer has stopped looking. -/
theorem prepend_stopped
    {past past' : List ω}
    (stopped : ¬ observer.Looks past)
    (stopped' : ¬ observer.Looks past')
    (same : observer.seen past = observer.seen past') :
    Indistinct observer related (first.prepend past)
      (second.prepend past') := by
  refine .stopped ?_ ?_ ?_
  · exact fun all => stopped ((observer.looks_append ..).mp all).1
  · exact fun all => stopped' ((observer.looks_append ..).mp all).1
  · rw [Run.prepend_obs, Run.prepend_obs,
      Observer.seen_append_stopped stopped,
      Observer.seen_append_stopped stopped', same]

theorem prepend_stopped_left
    {past : List ω}
    (stopped : ¬ observer.Looks past)
    (stopped' : ¬ observer.Looks second.obs)
    (same : observer.seen past = observer.seen second.obs) :
    Indistinct observer related (first.prepend past) second := by
  refine .stopped ?_ stopped' ?_
  · exact fun all => stopped ((observer.looks_append ..).mp all).1
  · rw [Run.prepend_obs, Observer.seen_append_stopped stopped, same]

theorem prepend_stopped_right
    {past : List ω}
    (stopped : ¬ observer.Looks first.obs)
    (stopped' : ¬ observer.Looks past)
    (same : observer.seen first.obs = observer.seen past) :
    Indistinct observer related first (second.prepend past) := by
  refine .stopped stopped ?_ ?_
  · exact fun all => stopped' ((observer.looks_append ..).mp all).1
  · rw [Run.prepend_obs, Observer.seen_append_stopped stopped', same]

theorem pure_intro
    {value value' : α}
    {state state' : σ}
    (holds : related value state value' state') :
    Indistinct observer related
      ((pure value : Prog ε σ ω α).run state)
      ((pure value' : Prog ε σ ω α).run state') :=
  .returned observer.looks_nil observer.looks_nil rfl holds

theorem raise_intro
    (abort : ε)
    (state state' : σ) :
    Indistinct observer related
      ((Prog.raise abort : Prog ε σ ω α).run state)
      ((Prog.raise abort : Prog ε σ ω α).run state') :=
  .aborted observer.looks_nil observer.looks_nil rfl

/-- Sequential composition. -/
theorem bind
    (middle : β → σ → β → σ → Prop)
    {prog prog' : Prog ε σ ω β}
    {next next' : β → Prog ε σ ω α}
    {state state' : σ}
    (begin : Indistinct observer middle (prog.run state) (prog'.run state'))
    (rest : ∀ value reached value' reached',
      middle value reached value' reached' →
        Indistinct observer related ((next value).run reached)
          ((next' value').run reached')) :
    Indistinct observer related ((prog >>= next).run state)
      ((prog' >>= next').run state') := by
  rw [Prog.run_bind, Prog.run_bind]
  generalize prog.run state = ran at begin ⊢
  generalize prog'.run state' = ran' at begin ⊢
  cases begin with
  | stopped stopped stopped' same =>
      obtain ⟨val, reached, obs⟩ := ran
      obtain ⟨val', reached', obs'⟩ := ran'
      cases val with
      | error abort =>
          cases val' with
          | error abort' => exact .stopped stopped stopped' same
          | ok value' => exact prepend_stopped_right stopped stopped' same
      | ok value =>
          cases val' with
          | error abort' => exact prepend_stopped_left stopped stopped' same
          | ok value' => exact prepend_stopped stopped stopped' same
  | returned looks looks' same holds =>
      exact prepend looks looks' same (rest _ _ _ _ holds)
  | aborted looks looks' same => exact .aborted looks looks' same

/-- Two loops with the same number of turns. -/
theorem loop
    {body body' : β → Prog ε σ ω (β ⊕ α)}
    (turn : β → σ → β → σ → Prop)
    (step : ∀ position state position' state',
      turn position state position' state' →
        Indistinct observer
          (fun answer reached answer' reached' =>
            Sum.LiftRel (fun next next' => turn next reached next' reached')
              (fun result result' => related result reached result' reached')
              answer answer')
          ((body position).run state) ((body' position').run state'))
    (stuck : ε)
    (fuel : Nat)
    {position position' : β}
    {state state' : σ}
    (start : turn position state position' state') :
    Indistinct observer related
      ((Prog.loop body stuck fuel position).run state)
      ((Prog.loop body' stuck fuel position').run state') := by
  induction fuel generalizing position position' state state' with
  | zero => exact raise_intro stuck state state'
  | succ fuel inductionHypothesis =>
      apply bind _ (step _ _ _ _ start)
      rintro answer reached answer' reached' (⟨turn⟩ | ⟨ended⟩)
      · exact inductionHypothesis turn
      · exact pure_intro ended

/-- Two lists of the same length. -/
theorem forEach
    {body body' : β → Prog ε σ ω Unit}
    (turn : List β → σ → List β → σ → Prop)
    (step : ∀ element rest state element' rest' state',
      turn (element :: rest) state (element' :: rest') state' →
        Indistinct observer
          (fun _ reached _ reached' => turn rest reached rest' reached')
          ((body element).run state) ((body' element').run state'))
    {list list' : List β}
    {state state' : σ}
    (length : list.length = list'.length)
    (start : turn list state list' state') :
    Indistinct observer (fun _ reached _ reached' => turn [] reached [] reached')
      ((Prog.forEach list body).run state)
      ((Prog.forEach list' body').run state') := by
  induction list generalizing list' state state' with
  | nil =>
      obtain rfl := List.eq_nil_of_length_eq_zero length.symm
      exact pure_intro start
  | cons element rest inductionHypothesis =>
      obtain ⟨element', rest', rfl⟩ :=
        List.exists_cons_of_length_eq_add_one length.symm
      apply bind _ (step _ _ _ _ _ _ start)
      intro _ reached _ reached' turn
      exact inductionHypothesis (by simpa using length) turn

/-- Programs on a part of the state. -/
theorem zoom
    {view : σ → τ}
    {update : τ → σ → σ}
    {prog prog' : Prog ε τ ω α}
    (inner : α → τ → α → τ → Prop)
    {state state' : σ}
    (part : Indistinct observer inner (prog.run (view state))
      (prog'.run (view state')))
    (outer : ∀ value reached value' reached',
      inner value reached value' reached' →
        related value (update reached state) value' (update reached' state')) :
    Indistinct observer related ((Prog.zoom view update prog).run state)
      ((Prog.zoom view update prog').run state') := by
  rw [Prog.run_zoom, Prog.run_zoom]
  generalize prog.run (view state) = ran at part ⊢
  generalize prog'.run (view state') = ran' at part ⊢
  cases part with
  | stopped stopped stopped' same => exact .stopped stopped stopped' same
  | returned looks looks' same holds =>
      exact .returned looks looks' same (outer _ _ _ _ holds)
  | aborted looks looks' same => exact .aborted looks looks' same

end Indistinct
end Effect
