import Lotospp.Common.DispatcherShutdown
import Lotospp.Common.Scheduler

/-!
# Waiting for events

The scheduler thread waits until the top of the queue is due.  `addEvent`
notifies it if the new task has become the top, so that the thread does not
oversleep; and a timeout means that some queued task is due, though perhaps
another one than the thread has waited for.

`Scheduler::shutdown` notifies nobody, as `Dispatcher::shutdown`.
-/

namespace Lotospp
namespace Common
namespace Scheduler

open Effect

/-- How the wait of the thread and the queue agree. -/
structure Watches (state : State) : Prop where
  /-- A task is due when the thread wakes up by itself. -/
  deadline : ∀ time, state.worker = .waiting (some time) →
    ∃ event ∈ state.eventList, event.cycle ≤ time
  /-- A task is due after a timeout. -/
  timedOut : state.worker = .woken true →
    ∃ event ∈ state.eventList, event.cycle ≤ state.now
  /-- Without a notification on its way the thread wakes up for every task. -/
  covered : ∀ deadline, state.worker = .waiting deadline →
    state.signals = 0 → ∀ event ∈ state.eventList,
      ∃ time, deadline = some time ∧ time ≤ event.cycle

namespace Watches

variable {state state' : State}

/-- The thread is awake and has not timed out. -/
theorem of_awake
    (notWaiting : ∀ deadline, state.worker ≠ .waiting deadline)
    (notOver : state.worker ≠ .woken true) :
    Watches state where
  deadline time waiting := absurd waiting (notWaiting (some time))
  timedOut passed := absurd passed notOver
  covered deadline waiting := absurd waiting (notWaiting deadline)

theorem accept
    (watches : Watches state)
    (eventId : UInt32)
    {cycle : Nat}
    {isTop : Bool}
    (covered : isTop = false → ∃ top ∈ state.eventList, top.cycle ≤ cycle) :
    Watches (state.accept eventId cycle isTop) where
  deadline time waiting := by
    obtain ⟨event, queued, due⟩ := watches.deadline time waiting
    exact ⟨event, List.mem_append_left _ queued, due⟩
  timedOut passed := by
    obtain ⟨event, queued, due⟩ := watches.timedOut passed
    exact ⟨event, List.mem_append_left _ queued, due⟩
  covered deadline waiting quiet := by
    cases isTop with
    | true => simp [State.accept] at quiet
    | false =>
        have covers := watches.covered deadline waiting quiet
        intro event member
        rcases List.mem_append.mp member with queued | last
        · exact covers event queued
        · obtain rfl := List.mem_singleton.mp last
          -- Some task of the queue is due before the new one.
          obtain ⟨top, queued, before⟩ := covered rfl
          obtain ⟨time, same, due⟩ := covers top queued
          exact ⟨time, same, due.trans before⟩

theorem wait (state : State) :
    Watches { state with worker := .waiting (topCycle state.eventList) } where
  deadline time waiting := by
    simp only [Worker.waiting.injEq] at waiting
    obtain ⟨event, queued, rfl⟩ := (topCycle_eq_some waiting).1
    exact ⟨event, queued, le_refl _⟩
  timedOut := nofun
  covered := by
    rintro deadline ⟨⟩ - event queued
    cases top : topCycle state.eventList with
    | none =>
        have queued : event ∈ state.eventList := queued
        simp [topCycle_eq_none top] at queued
    | some time => exact ⟨time, rfl, (topCycle_eq_some top).2 event queued⟩

/-- Every action of a running scheduler keeps the wait in agreement. -/
theorem steps
    {action : Action}
    (watches : Watches state)
    (running : state'.threadState = .running)
    (steps : Steps state action state') :
    Watches state' := by
  cases steps with
  | accepts _ covered => exact watches.accept _ covered
  | rejects => exact watches
  | wakes => exact of_awake nofun nofun
  | notifies pending notWaiting =>
      exact ⟨watches.deadline, watches.timedOut,
        fun deadline waiting => absurd waiting (notWaiting deadline)⟩
  | stops => exact ⟨watches.deadline, watches.timedOut, watches.covered⟩
  | misses => exact watches
  | enters => exact of_awake nofun nofun
  | leaves => exact of_awake nofun nofun
  | waits => exact wait state
  | stirs => exact of_awake nofun nofun
  | timesOut waiting passed =>
      obtain ⟨event, queued, due⟩ := watches.deadline _ waiting
      exact ⟨nofun, fun _ => ⟨event, queued, due.trans passed⟩, nofun⟩
  | takes => exact of_awake (by simp [State.take]) (by simp [State.take])
  | passes => exact of_awake nofun nofun
  | runs => exact of_awake nofun nofun
  | deletes => exact of_awake nofun nofun
  | closes => cases running
  | shuts => cases running
  | tick =>
      refine ⟨watches.deadline, fun passed => ?_, watches.covered⟩
      obtain ⟨event, queued, due⟩ := watches.timedOut passed
      exact ⟨event, queued, due.trans (Nat.le_add_right _ _)⟩

/-- The thread takes the top of the queue, when it is due. -/
theorem takes
    {action : Action}
    (watches : Watches state)
    (steps : Steps state action state')
    {event : Event}
    (taken : state'.taken = state.taken ++ [event]) :
    IsTop state.eventList event ∧ event.cycle ≤ state.now := by
  cases steps with
  | @takes top woken notTerminated isTop =>
      obtain rfl : top = event := by simpa [State.take] using taken
      obtain ⟨other, queued, due⟩ := watches.timedOut woken
      exact ⟨isTop, (isTop.2 other queued).trans due⟩
  | _ => simp [State.accept, State.erase] at taken

end Watches

/-- While the scheduler is running, its wait agrees with its queue. -/
def Watched (state : State) : Prop :=
  state.threadState = .running → Watches state

theorem Watched.steps
    {state state' : State}
    {action : Action}
    (watched : Watched state)
    (steps : Steps state action state') :
    Watched state' := by
  intro running
  refine (watched ?_).steps running steps
  cases steps <;> first | exact running | cases running

theorem watched_after (actions : List Action) :
    Watched (machine.after actions) :=
  Machine.after_keeps (fun _ => .of_awake nofun nofun)
    (fun _ _ _ watched step => Watched.steps watched (steps_of_step step))
    actions

/-- While the scheduler is running, a task is taken from the queue only when
it is due and no queued task is due earlier; and whenever the thread is
blocked with no notification on its way, it wakes up no later than any queued
task is due. -/
theorem taken_when_due
    (actions : List Action)
    (action : Action)
    (running : (machine.after actions).threadState = .running) :
    (∀ event, (machine.next (machine.after actions) action).taken =
        (machine.after actions).taken ++ [event] →
      event.cycle ≤ (machine.after actions).now ∧
        ∀ other ∈ (machine.after actions).eventList,
          event.cycle ≤ other.cycle) ∧
    ∀ deadline, (machine.after actions).worker = .waiting deadline →
      (machine.after actions).signals = 0 →
      ∀ event ∈ (machine.after actions).eventList,
        ∃ time, deadline = some time ∧ time ≤ event.cycle := by
  have watches := watched_after actions running
  refine ⟨fun event taken => ?_, watches.covered⟩
  cases step : machine.step (machine.after actions) action with
  | none =>
      rw [Machine.next_of_step_none machine step] at taken
      simp at taken
  | some state' =>
      rw [Machine.next_of_step machine step] at taken
      obtain ⟨isTop, due⟩ := watches.takes (steps_of_step step) taken
      exact ⟨due, isTop.2⟩

/-- A second task, due earlier, is added while the thread waits for the first
one, and taken. -/
theorem taken_when_due_of_two :
    20 ≤ (machine.after [.addEvent 0 50 true, .test, .lock, .addEvent 0 20 true,
        .notify, .relock ⟨0, 1, 50⟩, .test, .lock, .tick 20, .timeout]).now ∧
      ∀ other ∈ (machine.after [.addEvent 0 50 true, .test, .lock,
        .addEvent 0 20 true, .notify, .relock ⟨0, 1, 50⟩, .test, .lock,
        .tick 20, .timeout]).eventList, 20 ≤ other.cycle :=
  (taken_when_due _ (.relock ⟨1, 2, 20⟩) (by decide)).1 ⟨1, 2, 20⟩ (by decide)

/-! ## The end of the thread -/

/-- `shutdown` has returned, and the thread is in the untimed wait without a
notification on its way. -/
def Stranded (state : State) : Prop :=
  0 < state.shutdowns ∧ state.worker = .waiting none ∧ state.signals = 0

/-- `shutdown` is called while the thread is neither on its way to the lock
nor in the untimed wait without a notification on its way; and nobody calls
`stop` after `shutdown`. -/
def Reached (state : State) : Action → Prop
  | .shutdown =>
      state.worker ≠ .entering ∧
        (state.worker = .waiting none → 0 < state.signals)
  | .stop => state.threadState ≠ .terminated
  | _ => True

instance decidableReached :
    ∀ state action, Decidable (Reached state action) := by
  intro state action
  cases action <;> unfold Reached <;> infer_instance

/-- What holds in the runs whose steps reach the thread. -/
structure Reaches (state : State) : Prop where
  /-- `shutdown` is called once for all. -/
  shut : 0 < state.shutdowns → state.threadState = .terminated
  /-- The thread of a terminated scheduler is not on its way to the lock. -/
  passed : state.threadState = .terminated → state.worker ≠ .entering
  /-- The thread of a terminated scheduler will wake up. -/
  awake : state.threadState = .terminated → state.worker = .waiting none →
    0 < state.signals

namespace Reaches

variable {state state' : State}

/-- The scheduler thread moves, but neither to the lock nor to sleep. -/
theorem move
    (reaches : Reaches state)
    (threadState : state'.threadState = state.threadState)
    (shutdowns : state'.shutdowns = state.shutdowns)
    (notEntering : state'.worker ≠ .entering)
    (notWaiting : state'.worker ≠ .waiting none) :
    Reaches state' where
  shut shut := by
    rw [threadState]
    exact reaches.shut (shutdowns ▸ shut)
  passed _ := notEntering
  awake _ waiting := absurd waiting notWaiting

/-- Every action that reaches the thread keeps it from being stranded. -/
theorem steps
    {action : Action}
    (reaches : Reaches state)
    (reached : Reached state action)
    (steps : Steps state action state') :
    Reaches state' := by
  cases steps with
  | accepts running =>
      have notTerminated : state.threadState ≠ .terminated := by simp [running]
      exact ⟨reaches.shut, fun terminated => absurd terminated notTerminated,
        fun terminated => absurd terminated notTerminated⟩
  | rejects => exact reaches
  | wakes => exact reaches.move rfl rfl nofun nofun
  | notifies pending notWaiting =>
      exact ⟨reaches.shut, reaches.passed,
        fun _ waiting => absurd waiting (notWaiting none)⟩
  | stops => exact ⟨reaches.shut, reaches.passed, reaches.awake⟩
  | misses => exact reaches
  | enters head notTerminated =>
      exact ⟨reaches.shut, fun terminated => absurd terminated notTerminated,
        nofun⟩
  | leaves => exact reaches.move rfl rfl nofun nofun
  | waits entering =>
      -- A thread on its way to the lock is that of a live scheduler.
      have notTerminated : state.threadState ≠ .terminated :=
        fun terminated => reaches.passed terminated entering
      exact ⟨reaches.shut, nofun,
        fun terminated => absurd terminated notTerminated⟩
  | stirs => exact reaches.move rfl rfl nofun nofun
  | timesOut => exact reaches.move rfl rfl nofun nofun
  | takes =>
      exact reaches.move rfl rfl (by simp [State.take]) (by simp [State.take])
  | passes => exact reaches.move rfl rfl nofun nofun
  | runs => exact reaches.move rfl rfl nofun nofun
  | deletes => exact reaches.move rfl rfl nofun nofun
  | closes =>
      exact ⟨fun shut => absurd (reaches.shut shut) reached, nofun, nofun⟩
  | shuts => exact ⟨fun _ => rfl, fun _ => reached.1, fun _ => reached.2⟩
  | tick => exact ⟨reaches.shut, reaches.passed, reaches.awake⟩

theorem start : Reaches machine.start :=
  ⟨by simp [machine], nofun, nofun⟩

theorem not_stranded (reaches : Reaches state) : ¬ Stranded state := by
  rintro ⟨shut, waiting, quiet⟩
  have awake := reaches.awake (reaches.shut shut) waiting
  omega

end Reaches

/-- A run whose steps reach the thread does not strand it. -/
theorem not_stranded_of_reached
    (actions : List Action)
    (reached : machine.Meets Reached machine.start actions) :
    ¬ Stranded (machine.after actions) :=
  (Machine.run_keeps_of_meets
    (fun _ _ _ reaches reached step =>
      reaches.steps reached (steps_of_step step))
    Reaches.start reached).not_stranded

end Scheduler

/-- In the runs in which `shutdown` reaches the threads of the dispatcher and
of the scheduler, no thread is left asleep after it. -/
theorem shutdown_reaches_threads
    (tasks : List Dispatcher.Action)
    (events : List Scheduler.Action)
    (dispatcher : Dispatcher.machine.Meets Dispatcher.Reached
      Dispatcher.machine.start tasks)
    (scheduler : Scheduler.machine.Meets Scheduler.Reached
      Scheduler.machine.start events) :
    ¬ Dispatcher.Stranded (Dispatcher.machine.after tasks) ∧
      ¬ Scheduler.Stranded (Scheduler.machine.after events) :=
  ⟨Dispatcher.not_stranded_of_reached tasks dispatcher,
    Scheduler.not_stranded_of_reached events scheduler⟩

/-- Both threads are shut down while they have work to do. -/
theorem shutdown_reaches_busy_threads :
    ¬ Dispatcher.Stranded (Dispatcher.machine.after [.addTask none false,
      .test, .lock, .shutdown, .unlock, .check, .execute, .returnTask,
      .sendAll, .test]) ∧
    ¬ Scheduler.Stranded (Scheduler.machine.after [.addEvent 0 20 true,
      .test, .lock, .shutdown, .tick 20, .timeout, .relock ⟨0, 1, 20⟩,
      .test]) :=
  shutdown_reaches_threads _ _ (by decide) (by decide)

/-- Both threads sleep beside an empty queue while they are shut down, and
both are just about to. -/
theorem shutdown_strands_threads :
    (Dispatcher.Stranded (Dispatcher.machine.after
        [.test, .lock, .shutdown, .unlock]) ∧
      Dispatcher.Stranded (Dispatcher.machine.after
        [.test, .shutdown, .unlock, .lock])) ∧
    Scheduler.Stranded (Scheduler.machine.after [.test, .lock, .shutdown]) ∧
      Scheduler.Stranded (Scheduler.machine.after [.test, .shutdown, .lock]) :=
  ⟨⟨⟨by decide, rfl, rfl⟩, by decide, rfl, rfl⟩, ⟨by decide, rfl, rfl⟩,
    by decide, rfl, rfl⟩

end Common
end Lotospp
