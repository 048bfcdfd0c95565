import Lotospp.Common.SchedulerEvents
import Lotospp.Common.SchedulerWait

/-!
# The order of events

The scheduler thread takes the top of the queue.  If every event is added
before it is due, then none that is added later is due earlier than one that
was taken, and so the events are taken in the order of their times.
-/

namespace Lotospp
namespace Common
namespace Scheduler

open Effect

/-- An event is added before it is due, as `createSchedulerTask` makes it. -/
def Timely (state : State) : Action → Prop
  | .addEvent _ cycle _ => state.threadState = .running → state.now ≤ cycle
  | _ => True

instance decidableTimely :
    ∀ state action, Decidable (Timely state action)
  | state, .addEvent _ cycle _ =>
      if late : state.threadState = .running ∧ cycle < state.now then
        isFalse fun timely => (timely late.1).not_gt late.2
      else
        isTrue fun running =>
          Nat.not_lt.mp fun less => late ⟨running, less⟩
  | _, .notify | _, .stopEvent _ | _, .test | _, .lock | _, .wake
  | _, .timeout | _, .relock _ | _, .dispatch | _, .stop | _, .shutdown
  | _, .tick _ => isTrue trivial

/-- The events are in the order of their times. -/
def InOrder (events : List Event) : Prop :=
  events.Pairwise fun event later => event.cycle ≤ later.cycle

/-- What was taken and passed on, and what is in the queue. -/
structure Sorted (state : State) : Prop where
  /-- The events are taken in the order of their times. -/
  taken : InOrder state.taken
  /-- An event of the queue is not due before one that was taken. -/
  queued : ∀ event ∈ state.taken, ∀ other ∈ state.eventList,
    event.cycle ≤ other.cycle
  /-- An event that was taken is due. -/
  due : ∀ event ∈ state.taken, event.cycle ≤ state.now
  /-- Events are passed on in the order in which they were taken. -/
  passed : List.Sublist (state.passed ++ state.worker.hand) state.taken

namespace Sorted

variable {state state' : State}

theorem accept
    (sorted : Sorted state)
    (eventId : UInt32)
    {cycle : Nat}
    (timely : state.now ≤ cycle)
    (isTop : Bool) :
    Sorted (state.accept eventId cycle isTop) where
  taken := sorted.taken
  queued event taken other member := by
    rcases List.mem_append.mp member with queued | last
    · exact sorted.queued event taken other queued
    · obtain rfl := List.mem_singleton.mp last
      exact (sorted.due event taken).trans timely
  due := sorted.due
  passed := sorted.passed

theorem take
    (sorted : Sorted state)
    (free : state.worker.hand = [])
    {top : Event}
    (isTop : IsTop state.eventList top)
    (due : top.cycle ≤ state.now) :
    Sorted (state.take top) where
  taken := by
    refine List.pairwise_append.mpr
      ⟨sorted.taken, List.pairwise_singleton _ _, fun event taken last => ?_⟩
    intro isLast
    obtain rfl := List.mem_singleton.mp isLast
    exact sorted.queued event taken _ isTop.1
  queued event member other queued := by
    have inQueue := List.mem_of_mem_erase queued
    rcases List.mem_append.mp member with taken | last
    · exact sorted.queued event taken other inQueue
    · obtain rfl := List.mem_singleton.mp last
      exact isTop.2 other inQueue
  due event member := by
    rcases List.mem_append.mp member with taken | last
    · exact sorted.due event taken
    · obtain rfl := List.mem_singleton.mp last
      exact due
  passed := by
    have passed := sorted.passed
    rw [free, List.append_nil] at passed
    exact passed.append_right [top]

/-- The thread moves, and may drop the event in its hands. -/
theorem move
    (sorted : Sorted state)
    {worker : Worker}
    (hand : List.Sublist worker.hand state.worker.hand) :
    Sorted { state with worker := worker } where
  taken := sorted.taken
  queued := sorted.queued
  due := sorted.due
  passed := (hand.append_left state.passed).trans sorted.passed

/-- Every timely action of a running scheduler keeps the order. -/
theorem steps
    {action : Action}
    (sorted : Sorted state)
    (watches : Watches state)
    (timely : Timely state action)
    (running : state'.threadState = .running)
    (steps : Steps state action state') :
    Sorted state' := by
  cases steps with
  | accepts running => exact sorted.accept _ (timely running) _
  | rejects => exact sorted
  | wakes =>
      have moved := @move state sorted (.woken false) (List.nil_sublist _)
      exact { moved with }
  | notifies => exact { sorted with }
  | stops => exact { sorted with }
  | misses => exact sorted
  | enters => exact sorted.move (List.nil_sublist _)
  | leaves => exact sorted.move (List.nil_sublist _)
  | waits => exact sorted.move (List.nil_sublist _)
  | stirs => exact sorted.move (List.nil_sublist _)
  | timesOut => exact sorted.move (List.nil_sublist _)
  | takes woken notTerminated isTop =>
      obtain ⟨other, queued, due⟩ := watches.timedOut woken
      exact sorted.take (by simp [woken, Worker.hand]) isTop
        ((isTop.2 other queued).trans due)
  | passes => exact sorted.move (List.nil_sublist _)
  | runs taken =>
      have passed := sorted.passed
      rw [taken] at passed
      exact ⟨sorted.taken, sorted.queued, sorted.due,
        by simpa [Worker.hand] using passed⟩
  | deletes taken =>
      have moved := @move state sorted .head (List.nil_sublist _)
      exact { moved with }
  | closes => cases running
  | shuts => cases running
  | tick =>
      exact ⟨sorted.taken, sorted.queued,
        fun event taken => (sorted.due event taken).trans (Nat.le_add_right _ _),
        sorted.passed⟩

end Sorted

theorem tracks_of_distinct
    {actions : List Action}
    (distinct : machine.Always DistinctIds machine.start actions) :
    Tracks (machine.after actions) :=
  Machine.run_keeps_of_always
    (fun _ _ _ tracks first last step =>
      Tracks.steps tracks first last (steps_of_step step))
    tracks_start distinct

/-- A scheduler that is running has been running. -/
theorem running_of_steps
    {state state' : State}
    {action : Action}
    (steps : Steps state action state')
    (running : state'.threadState = .running) :
    state.threadState = .running := by
  cases steps <;> first | exact running | cases running

theorem sorted_of_timely
    {actions : List Action}
    (timely : machine.Meets Timely machine.start actions)
    (running : (machine.after actions).threadState = .running) :
    Sorted (machine.after actions) := by
  have kept := @Machine.run_keeps_of_meets _ _ machine
    (fun state => Watched state ∧ (state.threadState = .running → Sorted state))
    Timely
    (fun state action state' inv timely step => by
      have steps := steps_of_step step
      refine ⟨inv.1.steps steps, fun running => ?_⟩
      have before := running_of_steps steps running
      exact (inv.2 before).steps (inv.1 before) timely running steps)
    machine.start ⟨watched_after [], fun _ => ⟨.nil, nofun, nofun, .refl _⟩⟩
    actions timely
  exact kept.2 running

end Scheduler
end Common
end Lotospp
