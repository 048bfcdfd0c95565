import Lotospp.Common.DispatcherOrder
import Lotospp.Common.SchedulerOrder
import Lotospp.Effect.Projection
import Mathlib.Data.List.ReduceOption

/-!
# The scheduler and the dispatcher

The scheduler thread calls `setDontExpire` for an event that is due and not
stopped, and passes it to `g_dispatcher` as a task.  Both act on their own
otherwise, and both read the clock of the system, which can be set to any time.
As long as nobody sets it back, events are called when they are due.
-/

namespace Lotospp
namespace Common
namespace Timers

open Effect

/-- `g_scheduler` and `g_dispatcher`. -/
structure State where
  /-- `g_scheduler`. -/
  scheduler : Scheduler.State := {}
  /-- `g_dispatcher`. -/
  dispatcher : Dispatcher.State := {}
  /-- For every task that the dispatcher has accepted, the event it is. -/
  origins : List (Option Scheduler.Event) := []
  deriving DecidableEq

namespace State

/-- The event that a task of the dispatcher is. -/
def eventOf (state : State) (task : Dispatcher.Task) :
    Option Scheduler.Event :=
  state.origins[task.number]?.join

/-- The events that were called or discarded, in order. -/
def fired (state : State) : List Scheduler.Event :=
  (state.dispatcher.records.map Dispatcher.Record.task).filterMap state.eventOf

/-- The events that the dispatcher still has, in order. -/
def underway (state : State) : List Scheduler.Event :=
  (state.dispatcher.worker.hand ++ state.dispatcher.taskList).filterMap
    state.eventOf

/-- The next task that the dispatcher accepts is this event or none. -/
def originate (state : State) (origin : Option Scheduler.Event) :
    List (Option Scheduler.Event) :=
  if state.dispatcher.threadState = .running then state.origins ++ [origin]
  else state.origins

end State

/-- What can happen. -/
inductive Action
  /-- An action of the scheduler alone. -/
  | scheduler (action : Scheduler.Action)
  /-- An action of the dispatcher alone. -/
  | dispatcher (action : Dispatcher.Action)
  /-- `Dispatcher::addTask` of a task that is no event. -/
  | addTask (expiration : Option Nat) (pushFront : Bool)
  /-- `Dispatcher::addTask` of the scheduler thread. -/
  | pass
  /-- Time goes by, or the clock is set. -/
  | clock (time : Nat)
  deriving DecidableEq, Repr

/-- The scheduler does it without the dispatcher. -/
def schedulerAlone (state : Scheduler.State) : Scheduler.Action → Bool
  | .dispatch =>
      match state.worker with
      | .taken _ runTask => !runTask
      | _ => true
  | .tick _ => false
  | _ => true

/-- The dispatcher does it without the scheduler. -/
def dispatcherAlone : Dispatcher.Action → Bool
  | .addTask _ _ => false
  | .clock _ => false
  | _ => true

/-- What an action does. -/
def step (state : State) : Action → Option State
  | .scheduler action =>
      if schedulerAlone state.scheduler action then
        (Scheduler.step state.scheduler action).map fun scheduler =>
          { state with scheduler := scheduler }
      else none
  | .dispatcher action =>
      if dispatcherAlone action then
        (Dispatcher.step state.dispatcher action).map fun dispatcher =>
          { state with dispatcher := dispatcher }
      else none
  | .addTask expiration pushFront =>
      (Dispatcher.step state.dispatcher (.addTask expiration pushFront)).map
        fun dispatcher =>
          { state with
            dispatcher := dispatcher, origins := state.originate none }
  | .pass =>
      match state.scheduler.worker with
      | .taken event true => do
          let scheduler ← Scheduler.step state.scheduler .dispatch
          let dispatcher ←
            Dispatcher.step state.dispatcher (.addTask none false)
          return ⟨scheduler, dispatcher, state.originate (some event)⟩
      | _ => none
  | .clock time =>
      some
        { state with
          scheduler := { state.scheduler with now := time }
          dispatcher := { state.dispatcher with now := time } }

/-- Both after `start`. -/
def machine : Machine State Action where
  start := {}
  step := step

/-- The clock is not set back. -/
def Forward (state : State) : Action → Prop
  | .clock time => state.scheduler.now ≤ time
  | _ => True

instance (state : State) : ∀ action, Decidable (Forward state action)
  | .clock _ => inferInstanceAs (Decidable (_ ≤ _))
  | .scheduler _ => isTrue trivial
  | .dispatcher _ => isTrue trivial
  | .addTask _ _ => isTrue trivial
  | .pass => isTrue trivial

/-- Both, with a clock that nobody sets back. -/
def forward : Machine State Action :=
  machine.restrict Forward

/-! ## What an action can do -/

/-- The cases of `step`. -/
inductive Steps (state : State) : Action → State → Prop
  | schedules {action : Scheduler.Action} {scheduler : Scheduler.State}
      (alone : schedulerAlone state.scheduler action = true)
      (step : Scheduler.machine.step state.scheduler action = some scheduler) :
      Steps state (.scheduler action) { state with scheduler := scheduler }
  | dispatches {action : Dispatcher.Action} {dispatcher : Dispatcher.State}
      (alone : dispatcherAlone action = true)
      (step : Dispatcher.machine.step state.dispatcher action =
        some dispatcher) :
      Steps state (.dispatcher action) { state with dispatcher := dispatcher }
  | adds {expiration : Option Nat} {pushFront : Bool}
      {dispatcher : Dispatcher.State}
      (step : Dispatcher.machine.step state.dispatcher
        (.addTask expiration pushFront) = some dispatcher) :
      Steps state (.addTask expiration pushFront)
        { state with
          dispatcher := dispatcher, origins := state.originate none }
  | passes {event : Scheduler.Event} {scheduler : Scheduler.State}
      {dispatcher : Dispatcher.State}
      (taken : state.scheduler.worker = .taken event true)
      (schedules : Scheduler.machine.step state.scheduler .dispatch =
        some scheduler)
      (step : Dispatcher.machine.step state.dispatcher (.addTask none false) =
        some dispatcher) :
      Steps state .pass
        ⟨scheduler, dispatcher, state.originate (some event)⟩
  | ticks {time : Nat}
      (onwards : state.scheduler.now ≤ time) :
      Steps state (.clock time)
        { state with
          scheduler := { state.scheduler with now := time }
          dispatcher := { state.dispatcher with now := time } }

/-- Every step is one of the cases. -/
theorem steps_of_step
    {state state' : State}
    {action : Action}
    (step : forward.step state action = some state') :
    Steps state action state' := by
  obtain ⟨isForward, step⟩ := Machine.step_of_restrict step
  cases action <;> simp only [machine, Timers.step] at step
  case scheduler action =>
    split_ifs at step with alone
    obtain ⟨scheduler, schedules, rfl⟩ := Option.map_eq_some_iff.mp step
    exact .schedules alone schedules
  case dispatcher action =>
    split_ifs at step with alone
    obtain ⟨dispatcher, dispatches, rfl⟩ := Option.map_eq_some_iff.mp step
    exact .dispatches alone dispatches
  case addTask expiration pushFront =>
    obtain ⟨dispatcher, dispatches, rfl⟩ := Option.map_eq_some_iff.mp step
    exact .adds dispatches
  case pass =>
    split at step
    next event taken =>
      obtain ⟨scheduler, schedules, step⟩ := Option.bind_eq_some_iff.mp step
      obtain ⟨dispatcher, dispatches, step⟩ := Option.bind_eq_some_iff.mp step
      cases step
      exact .passes taken schedules dispatches
    next => cases step
  case clock time =>
    cases step
    exact .ticks isForward

/-! ## The parts -/

/-- What the scheduler does. -/
def schedulerMove (state : State) : Action → Option Scheduler.Action
  | .scheduler action => some action
  | .pass => some .dispatch
  | .clock time => some (.tick (time - state.scheduler.now))
  | _ => none

/-- What the dispatcher does. -/
def dispatcherMove (_ : State) : Action → Option Dispatcher.Action
  | .dispatcher action => some action
  | .addTask expiration pushFront => some (.addTask expiration pushFront)
  | .pass => some (.addTask none false)
  | .clock time => some (.clock time)
  | _ => none

theorem scheduler_projects :
    forward.Projects Scheduler.machine State.scheduler schedulerMove where
  start := rfl
  moves state action state' moved step move := by
    cases steps_of_step step with
    | ticks onwards =>
        cases move
        simp [Scheduler.machine, Scheduler.step, Nat.add_sub_cancel' onwards]
    | schedules => cases move; assumption
    | passes => cases move; assumption
    | _ => cases move
  stays state action state' step stays := by
    cases steps_of_step step <;> first | rfl | cases stays

theorem dispatcher_projects :
    forward.Projects Dispatcher.machine State.dispatcher dispatcherMove where
  start := rfl
  moves state action state' moved step move := by
    cases steps_of_step step <;> cases move <;> first | assumption | rfl
  stays state action state' step stays := by
    cases steps_of_step step <;> first | rfl | cases stays

/-- A task of a dispatcher that is running was accepted, and is not forgotten
by what the dispatcher does alone. -/
theorem dispatcher_steps_alone
    {state state' : Dispatcher.State}
    {action : Dispatcher.Action}
    (alone : dispatcherAlone action = true)
    (steps : Dispatcher.Steps state action state') :
    state'.accepted = state.accepted ∧ state'.now = state.now ∧
      (state'.threadState = .running → state.threadState = .running) ∧
      ∃ more : List Dispatcher.Record, state'.records = state.records ++ more ∧
        ∀ record ∈ more, record.time = state.now := by
  cases steps with
  | accepts => cases alone
  | discards | executes | flushes =>
      exact ⟨rfl, rfl, id, [_], rfl, by simp⟩
  | stops | shuts => exact ⟨rfl, rfl, nofun, [], by simp, nofun⟩
  | clock => cases alone
  | _ => exact ⟨rfl, rfl, id, [], by simp [Dispatcher.State.take], nofun⟩

theorem dispatcher_accepts
    {state state' : Dispatcher.State}
    {expiration : Option Nat}
    {pushFront : Bool}
    (running : state'.threadState = .running)
    (step : Dispatcher.machine.step state (.addTask expiration pushFront) =
      some state') :
    state.threadState = .running ∧
      state' = state.accept expiration pushFront := by
  simp only [Dispatcher.machine, Dispatcher.step] at step
  split_ifs at step with locked before <;> cases step
  · exact ⟨before, rfl⟩
  · exact absurd running before

/-- What the scheduler does alone passes nothing on. -/
theorem scheduler_steps_alone
    {state state' : Scheduler.State}
    {action : Scheduler.Action}
    (alone : schedulerAlone state action = true)
    (steps : Scheduler.Steps state action state') :
    state'.passed = state.passed ∧ state'.now = state.now ∧
      ∀ event ∈ state'.worker.hand, event ∈ state.worker.hand ∨
        state'.taken = state.taken ++ [event] := by
  cases steps with
  | runs taken => simp [schedulerAlone, taken] at alone
  | takes => exact ⟨rfl, rfl, fun event last => .inr (by
      obtain rfl := List.mem_singleton.mp last
      rfl)⟩
  | accepts | rejects | notifies | stops | misses | closes | shuts =>
      exact ⟨rfl, rfl, fun event hand => .inl hand⟩
  | tick => cases alone
  | _ => exact ⟨rfl, rfl, nofun⟩

/-! ## Events as tasks -/

theorem filterMap_range_join {ι : Type} (list : List (Option ι)) :
    (List.range list.length).filterMap (fun i => list[i]?.join) =
      list.reduceOption := by
  induction list using List.reverseRecOn with
  | nil => rfl
  | append_singleton list last inductionHypothesis =>
      rw [List.length_append, List.length_singleton, List.range_succ,
        List.filterMap_append, List.reduceOption_append, ← inductionHypothesis]
      congr 1
      · apply List.filterMap_congr
        intro i inside
        rw [List.getElem?_append_left (List.mem_range.mp inside)]
      · cases last <;> simp

theorem number_lt
    {dispatcher : Dispatcher.State}
    (serves : Dispatcher.Serves dispatcher)
    {task : Dispatcher.Task}
    (accepted : task ∈ dispatcher.accepted) :
    task.number < dispatcher.accepted.length := by
  have number := List.mem_map_of_mem (f := Dispatcher.Task.number) accepted
  rw [serves.numbered] at number
  exact List.mem_range.mp number

theorem record_accepted
    {dispatcher : Dispatcher.State}
    (serves : Dispatcher.Serves dispatcher)
    {record : Dispatcher.Record}
    (member : record ∈ dispatcher.records) :
    record.task ∈ dispatcher.accepted := by
  have taken : record.task ∈ dispatcher.taken := by
    rw [← serves.served]
    exact List.mem_append_left _ (List.mem_map_of_mem member)
  exact serves.whole.subset (List.mem_append_left _ taken)

/-- How the events of the scheduler and the tasks of the dispatcher agree. -/
structure Joined (state : State) : Prop where
  /-- There is one clock. -/
  clock : state.dispatcher.now = state.scheduler.now
  /-- Every task has an origin. -/
  length : state.origins.length = state.dispatcher.accepted.length
  /-- The events among the tasks are those that were passed on. -/
  passed : state.origins.reduceOption = state.scheduler.passed
  /-- An event is a task that does not expire, at the back of the list. -/
  plain : ∀ task ∈ state.dispatcher.accepted, ∀ event,
    state.eventOf task = some event →
      task.expiration = none ∧ task.pushFront = false
  /-- An event that the scheduler has taken to pass it on is due. -/
  due : ∀ event ∈ state.scheduler.passed ++ state.scheduler.worker.hand,
    event.cycle ≤ state.scheduler.now
  /-- An event is called when it is due. -/
  punctual : ∀ record ∈ state.dispatcher.records, ∀ event,
    state.eventOf record.task = some event → event.cycle ≤ record.time

namespace Joined

variable {state state' : State}

theorem due_of_eventOf
    (joined : Joined state)
    {task : Dispatcher.Task}
    {event : Scheduler.Event}
    (origin : state.eventOf task = some event) :
    event.cycle ≤ state.scheduler.now := by
  apply joined.due
  rw [← joined.passed, List.mem_append, List.reduceOption_mem_iff]
  exact .inl (List.mem_of_getElem? (Option.join_eq_some_iff.mp origin))

theorem schedule
    (joined : Joined state)
    (watches : Scheduler.Watches state.scheduler)
    {action : Scheduler.Action}
    {scheduler : Scheduler.State}
    (alone : schedulerAlone state.scheduler action = true)
    (steps : Scheduler.Steps state.scheduler action scheduler) :
    Joined { state with scheduler := scheduler } := by
  obtain ⟨passed, now, hand⟩ := scheduler_steps_alone alone steps
  exact {
    clock := joined.clock.trans now.symm
    length := joined.length
    passed := joined.passed.trans passed.symm
    plain := joined.plain
    due := by
      intro event member
      rw [now]
      rcases List.mem_append.mp member with earlier | inHand
      · exact joined.due event (List.mem_append_left _ (passed ▸ earlier))
      · rcases hand event inHand with before | taken
        · exact joined.due event (List.mem_append_right _ before)
        · exact (watches.takes steps taken).2
    punctual := joined.punctual }

theorem dispatch
    (joined : Joined state)
    {action : Dispatcher.Action}
    {dispatcher : Dispatcher.State}
    (alone : dispatcherAlone action = true)
    (steps : Dispatcher.Steps state.dispatcher action dispatcher) :
    Joined { state with dispatcher := dispatcher } := by
  obtain ⟨accepted, now, -, more, records, times⟩ :=
    dispatcher_steps_alone alone steps
  exact {
    clock := now.trans joined.clock
    length := joined.length.trans (congrArg List.length accepted.symm)
    passed := joined.passed
    plain := fun task member => joined.plain task (accepted ▸ member)
    due := joined.due
    punctual := by
      intro record member event origin
      rcases List.mem_append.mp (records ▸ member) with earlier | last
      · exact joined.punctual record earlier event origin
      · rw [times record last, joined.clock]
        exact joined.due_of_eventOf origin }

/-- The dispatcher accepts a task, which the scheduler may have passed. -/
theorem add
    (joined : Joined state)
    (serves : Dispatcher.Serves state.dispatcher)
    {scheduler : Scheduler.State}
    {origin : Option Scheduler.Event}
    {expiration : Option Nat}
    {pushFront : Bool}
    (now : scheduler.now = state.scheduler.now)
    (passed : scheduler.passed = state.scheduler.passed ++ origin.toList)
    (hand : origin.toList ++ scheduler.worker.hand =
      state.scheduler.worker.hand)
    (plain : ∀ event ∈ origin, expiration = none ∧ pushFront = false) :
    Joined ⟨scheduler, state.dispatcher.accept expiration pushFront,
      state.origins ++ [origin]⟩ := by
  -- The tasks that were accepted before keep their origins.
  have old : ∀ task ∈ state.dispatcher.accepted,
      (state.origins ++ [origin])[task.number]?.join = state.eventOf task := by
    intro task accepted
    have inside := number_lt serves accepted
    rw [← joined.length] at inside
    rw [List.getElem?_append_left inside, State.eventOf]
  have new : (state.origins ++ [origin])[state.dispatcher.accepted.length]?.join =
      origin := by
    rw [← joined.length, List.getElem?_concat_length, Option.join_some]
  exact {
    clock := joined.clock.trans now.symm
    length := by simp [Dispatcher.State.accept, joined.length]
    passed := by
      rw [List.reduceOption_append, joined.passed, passed]
      cases origin <;> rfl
    plain := by
      intro task member event isEvent
      rcases List.mem_append.mp member with earlier | last
      · exact joined.plain task earlier event ((old task earlier).symm.trans isEvent)
      · obtain rfl := List.mem_singleton.mp last
        exact plain event (new.symm.trans isEvent)
    due := by
      intro event member
      rw [now]
      apply joined.due
      rwa [passed, List.append_assoc, hand] at member
    punctual := by
      intro record member event isEvent
      refine joined.punctual record member event ?_
      exact (old _ (record_accepted serves member)).symm.trans isEvent }

theorem tick
    (joined : Joined state)
    {time : Nat}
    (onwards : state.scheduler.now ≤ time) :
    Joined
      { state with
        scheduler := { state.scheduler with now := time }
        dispatcher := { state.dispatcher with now := time } } where
  clock := rfl
  length := joined.length
  passed := joined.passed
  plain := joined.plain
  due event member := (joined.due event member).trans onwards
  punctual := joined.punctual

end Joined

/-- While both are running, the events and the tasks agree. -/
def Joint (state : State) : Prop :=
  state.scheduler.threadState = .running →
    state.dispatcher.threadState = .running → Joined state

/-- What is known of each of them. -/
def Known (state : State) : Prop :=
  Scheduler.Watched state.scheduler ∧ Dispatcher.Orderly state.dispatcher

theorem Joint.steps
    {state state' : State}
    {action : Action}
    (joint : Joint state)
    (known : Known state)
    (steps : Steps state action state') :
    Joint state' := by
  intro scheduling dispatching
  cases steps with
  | schedules alone step =>
      have steps := Scheduler.steps_of_step step
      have before := Scheduler.running_of_steps steps scheduling
      exact (joint before dispatching).schedule (known.1 before) alone steps
  | dispatches alone step =>
      have steps := Dispatcher.steps_of_step step
      have before := (dispatcher_steps_alone alone steps).2.2.1 dispatching
      exact (joint scheduling before).dispatch alone steps
  | adds step =>
      obtain ⟨before, rfl⟩ := dispatcher_accepts dispatching step
      have origins : state.originate none = state.origins ++ [none] :=
        if_pos before
      rw [origins]
      exact (joint scheduling before).add (known.2.serves before) rfl
        (List.append_nil _).symm rfl nofun
  | @passes event _ _ taken schedules step =>
      obtain ⟨before, rfl⟩ := dispatcher_accepts dispatching step
      have origins : state.originate (some event) =
          state.origins ++ [some event] := if_pos before
      rw [origins]
      cases Scheduler.steps_of_step schedules with
      | deletes deleted => simp [taken] at deleted
      | @runs other runs =>
          obtain rfl : event = other := by simpa [taken] using runs
          exact (joint scheduling before).add (known.2.serves before) rfl rfl
            (by simp [taken, Scheduler.Worker.hand]) fun _ _ => ⟨rfl, rfl⟩
  | ticks onwards => exact (joint scheduling dispatching).tick onwards

theorem known_after (actions : List Action) : Known (forward.after actions) :=
  ⟨scheduler_projects.after_of_part Scheduler.watched_after actions,
    dispatcher_projects.after_of_part Dispatcher.orderly_after actions⟩

theorem joint_after (actions : List Action) : Joint (forward.after actions) :=
  Machine.after_keeps_of_known known_after
    (fun _ _ => ⟨rfl, rfl, rfl, nofun, nofun, nofun⟩)
    (fun _ _ _ joint known _ step => joint.steps known (steps_of_step step))
    actions

/-! ## What becomes of events -/

/-- The tasks of a dispatcher are in their order, front to back, if none is
pushed to the front. -/
theorem filterMap_pending
    {dispatcher : Dispatcher.State}
    (serves : Dispatcher.Serves dispatcher)
    (eventOf : Dispatcher.Task → Option Scheduler.Event)
    (plain : ∀ task ∈ dispatcher.accepted, ∀ event,
      eventOf task = some event → task.pushFront = false) :
    (dispatcher.taken ++ dispatcher.taskList).filterMap eventOf =
      dispatcher.accepted.filterMap eventOf := by
  have behind : ∀ tasks : List Dispatcher.Task, tasks ⊆ dispatcher.accepted →
      tasks.filterMap eventOf =
        (tasks.filter fun task => !task.pushFront).filterMap eventOf := by
    intro tasks inside
    rw [List.filterMap_filter]
    apply List.filterMap_congr
    intro task member
    cases origin : eventOf task with
    | none => rw [ite_self]
    | some event => rw [if_pos (by rw [plain task (inside member) event origin]; rfl)]
  rw [behind _ serves.whole.subset, behind _ (List.Subset.refl _), serves.inOrder]

/-- What becomes of the events of the scheduler in the dispatcher. -/
structure Fires (state : State) : Prop where
  /-- They are called in the order in which they are passed on. -/
  order : state.fired ++ state.underway = state.scheduler.passed
  /-- Every accepted event is in one place. -/
  whole : (state.fired ++ state.underway ++ state.scheduler.worker.hand ++
    state.scheduler.deleted ++ state.scheduler.eventList).Perm
      state.scheduler.accepted
  /-- No event is accepted twice. -/
  distinct : state.scheduler.accepted.Nodup
  /-- An event that was stopped is not called. -/
  stopped : ∀ event ∈ state.scheduler.stopped,
    event ∉ state.fired ++ state.underway
  /-- An event that was not stopped is not deleted. -/
  deleted : ∀ event ∈ state.scheduler.deleted, event ∈ state.scheduler.stopped
  /-- An event is called, not discarded, and not before it is due. -/
  called : ∀ record ∈ state.dispatcher.records, ∀ event,
    state.eventOf record.task = some event →
      record.called = true ∧ event.cycle ≤ record.time

theorem Joined.order
    {state : State}
    (joined : Joined state)
    (serves : Dispatcher.Serves state.dispatcher) :
    state.fired ++ state.underway = state.scheduler.passed := by
  have pending := filterMap_pending serves state.eventOf
    fun task accepted event origin => (joined.plain task accepted event origin).2
  have numbers : state.dispatcher.accepted.filterMap state.eventOf =
      (state.dispatcher.accepted.map Dispatcher.Task.number).filterMap
        fun i => state.origins[i]?.join := by
    rw [List.filterMap_map]
    rfl
  rw [State.fired, State.underway, ← List.filterMap_append, ← List.append_assoc,
    serves.served, pending, numbers, serves.numbered, ← joined.length,
    filterMap_range_join, joined.passed]

theorem Joined.fires
    {state : State}
    (joined : Joined state)
    (serves : Dispatcher.Serves state.dispatcher)
    (agrees : Scheduler.Agrees state.scheduler) :
    Fires state where
  order := joined.order serves
  whole := by
    rw [joined.order serves, List.append_assoc state.scheduler.passed]
    refine List.Perm.trans ?_ agrees.whole
    refine List.Perm.append_right _ (List.Perm.trans ?_ agrees.handled)
    rw [List.append_assoc]
    exact List.perm_append_comm.append_left _
  distinct := agrees.accepted_nodup
  stopped event stopped fired := by
    rw [joined.order serves] at fired
    exact agrees.passes event fired stopped
  deleted := agrees.deletes
  called record member event origin := by
    refine ⟨?_, joined.punctual record member event origin⟩
    by_contra notCalled
    have expired := serves.discarded record member (Bool.eq_false_iff.mpr notCalled)
    have accepted := record_accepted serves member
    rw [Dispatcher.Task.hasExpired,
      (joined.plain record.task accepted event origin).1] at expired
    cases expired

/-- The ids of the queued events are distinct. -/
def DistinctIds (state : State) : Prop :=
  Scheduler.DistinctIds state.scheduler

instance (state : State) : Decidable (DistinctIds state) :=
  inferInstanceAs (Decidable (Scheduler.DistinctIds state.scheduler))

/-- While both are running, nobody sets the clock back and no two queued events
carry the same id, every event is called once, unless it was stopped, when it
is due and in the order in which the scheduler has passed it on; none is
discarded or lost. -/
theorem events_fire
    (actions : List Action)
    (onwards : machine.Meets Forward machine.start actions)
    (distinct : machine.Always DistinctIds machine.start actions)
    (scheduling : (machine.after actions).scheduler.threadState = .running)
    (dispatching : (machine.after actions).dispatcher.threadState = .running) :
    Fires (machine.after actions) := by
  rw [← Machine.after_restrict onwards] at scheduling dispatching ⊢
  have tracks : Scheduler.Tracks (forward.after actions).scheduler := by
    rw [scheduler_projects.after actions]
    exact Scheduler.tracks_of_distinct
      (scheduler_projects.always (Machine.always_restrict onwards distinct))
  exact (joint_after actions scheduling dispatching).fires
    ((known_after actions).2.serves dispatching) (tracks scheduling)

/-- An event is called and another one is stopped. -/
theorem events_fire_of_two :
    Fires (machine.after [.scheduler (.addEvent 0 20 true),
      .scheduler (.addEvent 0 30 false), .scheduler (.stopEvent 2),
      .scheduler .test, .scheduler .lock, .clock 30, .scheduler .timeout,
      .scheduler (.relock ⟨0, 1, 20⟩), .addTask (some 30) true, .pass,
      .dispatcher .test, .dispatcher .lock, .scheduler .test, .scheduler .lock,
      .scheduler .timeout, .scheduler (.relock ⟨1, 2, 30⟩),
      .scheduler .dispatch, .dispatcher .check, .dispatcher .execute]) :=
  events_fire _ (by decide) (by decide) (by decide) (by decide)

/-- Every event is added before it is due. -/
def Timely (state : State) (action : Action) : Prop :=
  ∀ moved, schedulerMove state action = some moved →
    Scheduler.Timely state.scheduler moved

instance decidableTimely :
    ∀ state action, Decidable (Timely state action) := by
  intro state action
  unfold Timely
  cases schedulerMove state action with
  | none => exact isTrue nofun
  | some moved =>
      exact decidable_of_iff (Scheduler.Timely state.scheduler moved) (by simp)

/-- While both are running, nobody sets the clock back and every event is added
before it is due, events are called in the order of their times. -/
theorem events_inOrder
    (actions : List Action)
    (onwards : machine.Meets Forward machine.start actions)
    (timely : machine.Meets Timely machine.start actions)
    (scheduling : (machine.after actions).scheduler.threadState = .running)
    (dispatching : (machine.after actions).dispatcher.threadState = .running) :
    Scheduler.InOrder
      ((machine.after actions).fired ++ (machine.after actions).underway) := by
  rw [← Machine.after_restrict onwards] at scheduling dispatching ⊢
  have sorted : Scheduler.Sorted (forward.after actions).scheduler := by
    have view := scheduler_projects.after actions
    change Scheduler.Sorted (State.scheduler (forward.after actions))
    have running : (State.scheduler (forward.after actions)).threadState =
        .running := scheduling
    rw [view] at running ⊢
    exact Scheduler.sorted_of_timely
      (scheduler_projects.meets (Machine.meets_restrict onwards timely)) running
  change Scheduler.InOrder
    ((forward.after actions).fired ++ (forward.after actions).underway)
  rw [(joint_after actions scheduling dispatching).order
    ((known_after actions).2.serves dispatching)]
  have first := (List.sublist_append_left _ _).trans sorted.passed
  exact sorted.taken.sublist first

/-- The event that is due first was added last. -/
theorem events_inOrder_of_two :
    Scheduler.InOrder
      ((machine.after [.scheduler (.addEvent 0 30 true),
        .scheduler (.addEvent 0 20 true), .scheduler .test, .scheduler .lock,
        .clock 30, .scheduler .timeout, .scheduler (.relock ⟨1, 2, 20⟩), .pass,
        .dispatcher .test, .dispatcher .lock, .scheduler .test, .scheduler .lock,
        .scheduler .timeout, .scheduler (.relock ⟨0, 1, 30⟩), .pass,
        .dispatcher .check, .dispatcher .execute]).fired ++
      (machine.after [.scheduler (.addEvent 0 30 true),
        .scheduler (.addEvent 0 20 true), .scheduler .test, .scheduler .lock,
        .clock 30, .scheduler .timeout, .scheduler (.relock ⟨1, 2, 20⟩), .pass,
        .dispatcher .test, .dispatcher .lock, .scheduler .test, .scheduler .lock,
        .scheduler .timeout, .scheduler (.relock ⟨0, 1, 30⟩), .pass,
        .dispatcher .check, .dispatcher .execute]).underway) :=
  events_inOrder _ (by decide) (by decide) (by decide) (by decide)

end Timers
end Common
end Lotospp
