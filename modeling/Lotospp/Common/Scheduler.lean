import Lotospp.Common.Dispatcher
import Mathlib.Data.Finset.Erase
import Mathlib.Data.Finset.Insert

/-!
# The scheduler

`class Scheduler` with its thread and the threads that add and stop events.
What a thread does between locking and unlocking `m_eventLock` is one action;
the wait, which gives the lock up, ends one action and starts another one.

`std::priority_queue` promises no more than that its top is a task that no
other one precedes.  Which of several tasks with the same time is the top, is
part of an action.
-/

namespace Lotospp
namespace Common
namespace Scheduler

open Effect

/-- A `SchedulerTask` that `addEvent` has accepted. -/
structure Event where
  /-- How many tasks were accepted before it. -/
  number : Nat
  /-- `m_eventid`. -/
  eventId : UInt32
  /-- `m_expiration`: the time at which it is due. -/
  cycle : Nat
  deriving DecidableEq, Repr

/-- `SchedulerTask::SCHEDULER_MINTICKS`. -/
def minTicks : UInt32 := 20

/-- The time of the task that `createSchedulerTask` makes. -/
def createCycle (now : Nat) (delay : UInt32) : Nat :=
  now + (max delay minTicks).toNat

/-- The event may be the top of the queue: none in it is due earlier. -/
def IsTop (eventList : List Event) (event : Event) : Prop :=
  event ∈ eventList ∧ ∀ other ∈ eventList, event.cycle ≤ other.cycle

instance (eventList : List Event) (event : Event) :
    Decidable (IsTop eventList event) :=
  inferInstanceAs (Decidable (_ ∧ _))

/-- Where the scheduler thread is. -/
inductive Worker
  /-- Before the test of the loop. -/
  | head
  /-- Past the test, without the lock. -/
  | entering
  /-- Blocked in `wait`, or in `timed_wait` until a time. -/
  | waiting (deadline : Option Nat)
  /-- No longer blocked, but still without the lock. -/
  | woken (timedOut : Bool)
  /-- It has unlocked and has a task, which was not stopped if `runTask`. -/
  | taken (event : Event) (runTask : Bool)
  /-- It has left the loop. -/
  | finished
  deriving DecidableEq, Repr

/-- The task that the thread has taken and neither passed on nor deleted. -/
def Worker.hand : Worker → List Event
  | .taken event _ => [event]
  | _ => []

/-- The members of `class Scheduler`, its thread, the calls of its functions
that have not returned, and what has happened. -/
structure State where
  /-- `m_threadState`. -/
  threadState : ThreadState := .running
  /-- `m_lastEventId`. -/
  lastEventId : UInt32 := 0
  /-- `m_eventList`. -/
  eventList : List Event := []
  /-- `m_eventIds`. -/
  eventIds : Finset UInt32 := ∅
  /-- The calls of `addEvent` that have unlocked and still have to notify. -/
  signals : Nat := 0
  /-- The scheduler thread. -/
  worker : Worker := .head
  /-- The time of the system. -/
  now : Nat := 0
  /-- The calls of `shutdown` that have returned. -/
  shutdowns : Nat := 0
  /-- The accepted tasks, in order. -/
  accepted : List Event := []
  /-- The tasks taken from the queue, in order. -/
  taken : List Event := []
  /-- The tasks passed to the dispatcher, in order. -/
  passed : List Event := []
  /-- The tasks deleted because they were stopped, in order. -/
  deleted : List Event := []
  /-- The tasks for which `stopEvent` has returned `true`. -/
  stopped : List Event := []
  deriving DecidableEq

namespace State

/-- The next value of `m_lastEventId`. -/
def nextEventId (state : State) : UInt32 :=
  (if state.lastEventId ≥ 0xFFFFFFFF then 0 else state.lastEventId) + 1

/-- The task that `addEvent` accepts. -/
def event (state : State) (eventId : UInt32) (cycle : Nat) : Event :=
  { number := state.accepted.length
    eventId := if eventId = 0 then state.nextEventId else eventId
    cycle := cycle }

/-- `addEvent` between `lock` and `unlock`, while the scheduler is running;
`isTop` tells whether the task has become the top of the queue. -/
def accept
    (state : State)
    (eventId : UInt32)
    (cycle : Nat)
    (isTop : Bool) : State :=
  let event := state.event eventId cycle
  { state with
    lastEventId := if eventId = 0 then event.eventId else state.lastEventId
    eventIds := insert event.eventId state.eventIds
    eventList := state.eventList ++ [event]
    signals := if isTop then state.signals + 1 else state.signals
    accepted := state.accepted ++ [event] }

/-- What `stopEvent` returns. -/
def stopReturns (state : State) (eventId : UInt32) : Bool :=
  eventId ≠ 0 ∧ eventId ∈ state.eventIds

/-- `stopEvent`, when it returns `true`. -/
def erase (state : State) (eventId : UInt32) : State :=
  { state with
    eventIds := state.eventIds.erase eventId
    stopped := state.stopped ++
      state.eventList.filter fun event => event.eventId = eventId }

/-- The scheduler thread takes the top of the queue and unlocks. -/
def take (state : State) (event : Event) : State :=
  { state with
    eventList := state.eventList.erase event
    eventIds := state.eventIds.erase event.eventId
    worker := .taken event (event.eventId ∈ state.eventIds)
    taken := state.taken ++ [event] }

end State

/-- What can happen. -/
inductive Action
  /-- `addEvent`, up to `unlock`, of a task with an id or with 0. -/
  | addEvent (eventId : UInt32) (cycle : Nat) (isTop : Bool)
  /-- `notify_one` of an `addEvent`. -/
  | notify
  /-- `stopEvent`. -/
  | stopEvent (eventId : UInt32)
  /-- The scheduler thread tests `m_threadState`. -/
  | test
  /-- It locks and waits. -/
  | lock
  /-- It wakes up without a notification. -/
  | wake
  /-- The time of its `timed_wait` is over. -/
  | timeout
  /-- It gets the lock back; after a timeout it takes the top. -/
  | relock (top : Event)
  /-- It passes its task to the dispatcher, or deletes it. -/
  | dispatch
  /-- `stop`. -/
  | stop
  /-- `shutdown`. -/
  | shutdown
  /-- Time goes by. -/
  | tick (time : Nat)
  deriving DecidableEq, Repr

/-- The time of the top of a queue. -/
def topCycle (eventList : List Event) : Option Nat :=
  (eventList.map Event.cycle).min?

/-- What an action does. -/
def step (state : State) : Action → Option State
  | .addEvent eventId cycle isTop =>
      if state.threadState = .running then
        let event := state.event eventId cycle
        if isTop then
          if IsTop (state.eventList ++ [event]) event then
            some (state.accept eventId cycle true)
          else none
        else if ∃ top ∈ state.eventList,
            IsTop (state.eventList ++ [event]) top then
          some (state.accept eventId cycle false)
        else none
      else some state
  | .notify =>
      if state.signals = 0 then none
      else
        match state.worker with
        | .waiting _ =>
            some
              { state with
                signals := state.signals - 1, worker := .woken false }
        | _ => some { state with signals := state.signals - 1 }
  | .stopEvent eventId =>
      if state.stopReturns eventId then some (state.erase eventId)
      else some state
  | .test =>
      if state.worker ≠ .head then none
      else if state.threadState ≠ .terminated then
        some { state with worker := .entering }
      else some { state with worker := .finished }
  | .lock =>
      if state.worker = .entering then
        some { state with worker := .waiting (topCycle state.eventList) }
      else none
  | .wake =>
      match state.worker with
      | .waiting _ => some { state with worker := .woken false }
      | _ => none
  | .timeout =>
      match state.worker with
      | .waiting (some deadline) =>
          if deadline ≤ state.now then
            some { state with worker := .woken true }
          else none
      | _ => none
  | .relock top =>
      match state.worker with
      | .woken timedOut =>
          if timedOut ∧ state.threadState ≠ .terminated then
            if IsTop state.eventList top then some (state.take top) else none
          else some { state with worker := .head }
      | _ => none
  | .dispatch =>
      match state.worker with
      | .taken event true =>
          some
            { state with
              worker := .head, passed := state.passed ++ [event] }
      | .taken event false =>
          some
            { state with
              worker := .head, deleted := state.deleted ++ [event] }
      | _ => none
  | .stop => some { state with threadState := .closing }
  | .shutdown =>
      some
        { state with
          threadState := .terminated
          eventList := []
          eventIds := ∅
          shutdowns := state.shutdowns + 1 }
  | .tick time => some { state with now := state.now + time }

/-- The scheduler after `start`. -/
def machine : Machine State Action where
  start := {}
  step := step

/-! ## What an action can do -/

theorem topCycle_eq_none
    {eventList : List Event}
    (none : topCycle eventList = none) :
    eventList = [] := by
  simpa [topCycle] using none

theorem topCycle_eq_some
    {eventList : List Event}
    {time : Nat}
    (some : topCycle eventList = some time) :
    (∃ event ∈ eventList, event.cycle = time) ∧
      ∀ event ∈ eventList, time ≤ event.cycle := by
  obtain ⟨member, least⟩ := List.min?_eq_some_iff.mp some
  refine ⟨List.mem_map.mp member, fun event queued => ?_⟩
  exact least event.cycle (List.mem_map_of_mem queued)

/-- The cases of `step`. -/
inductive Steps (state : State) : Action → State → Prop
  | accepts {eventId : UInt32} {cycle : Nat} {isTop : Bool}
      (running : state.threadState = .running)
      (covered : isTop = false →
        ∃ top ∈ state.eventList, top.cycle ≤ cycle) :
      Steps state (.addEvent eventId cycle isTop)
        (state.accept eventId cycle isTop)
  | rejects {eventId : UInt32} {cycle : Nat} {isTop : Bool}
      (notRunning : state.threadState ≠ .running) :
      Steps state (.addEvent eventId cycle isTop) state
  | wakes {deadline : Option Nat}
      (pending : 0 < state.signals)
      (waiting : state.worker = .waiting deadline) :
      Steps state .notify
        { state with signals := state.signals - 1, worker := .woken false }
  | notifies
      (pending : 0 < state.signals)
      (notWaiting : ∀ deadline, state.worker ≠ .waiting deadline) :
      Steps state .notify { state with signals := state.signals - 1 }
  | stops {eventId : UInt32}
      (found : state.stopReturns eventId = true) :
      Steps state (.stopEvent eventId) (state.erase eventId)
  | misses {eventId : UInt32}
      (missed : state.stopReturns eventId = false) :
      Steps state (.stopEvent eventId) state
  | enters
      (head : state.worker = .head)
      (notTerminated : state.threadState ≠ .terminated) :
      Steps state .test { state with worker := .entering }
  | leaves
      (head : state.worker = .head)
      (terminated : state.threadState = .terminated) :
      Steps state .test { state with worker := .finished }
  | waits
      (entering : state.worker = .entering) :
      Steps state .lock
        { state with worker := .waiting (topCycle state.eventList) }
  | stirs {deadline : Option Nat}
      (waiting : state.worker = .waiting deadline) :
      Steps state .wake { state with worker := .woken false }
  | timesOut {deadline : Nat}
      (waiting : state.worker = .waiting (some deadline))
      (passed : deadline ≤ state.now) :
      Steps state .timeout { state with worker := .woken true }
  | takes {top : Event}
      (woken : state.worker = .woken true)
      (notTerminated : state.threadState ≠ .terminated)
      (isTop : IsTop state.eventList top) :
      Steps state (.relock top) (state.take top)
  | passes {top : Event} {timedOut : Bool}
      (woken : state.worker = .woken timedOut)
      (nothing : timedOut = true → state.threadState = .terminated) :
      Steps state (.relock top) { state with worker := .head }
  | runs {event : Event}
      (taken : state.worker = .taken event true) :
      Steps state .dispatch
        { state with worker := .head, passed := state.passed ++ [event] }
  | deletes {event : Event}
      (taken : state.worker = .taken event false) :
      Steps state .dispatch
        { state with worker := .head, deleted := state.deleted ++ [event] }
  | closes : Steps state .stop { state with threadState := .closing }
  | shuts :
      Steps state .shutdown
        { state with
          threadState := .terminated
          eventList := []
          eventIds := ∅
          shutdowns := state.shutdowns + 1 }
  | tick {time : Nat} :
      Steps state (.tick time) { state with now := state.now + time }

/-- Every step is one of the cases. -/
theorem steps_of_step
    {state state' : State}
    {action : Action}
    (step : machine.step state action = some state') :
    Steps state action state' := by
  cases action <;> simp only [machine, Scheduler.step] at step
  case addEvent eventId cycle isTop =>
    split_ifs at step with running new isTop' covered <;> cases step
    · obtain rfl : isTop = true := new
      exact .accepts running nofun
    · obtain rfl : isTop = false := Bool.eq_false_iff.mpr new
      obtain ⟨top, queued, isTop⟩ := covered
      have least := isTop.2 (state.event eventId cycle) (by simp)
      exact .accepts running fun _ => ⟨top, queued, least⟩
    · exact .rejects running
  case notify =>
    split_ifs at step with none
    split at step <;> cases step
    next deadline waiting => exact .wakes (Nat.pos_of_ne_zero none) waiting
    next notWaiting => exact .notifies (Nat.pos_of_ne_zero none) notWaiting
  case stopEvent eventId =>
    split_ifs at step with found <;> cases step
    · exact .stops found
    · exact .misses (Bool.eq_false_iff.mpr found)
  case test =>
    split_ifs at step with head terminated <;> cases step
    · exact .enters (not_not.mp head) terminated
    · exact .leaves (not_not.mp head) (not_not.mp terminated)
  case lock =>
    split_ifs at step with entering
    cases step
    exact .waits entering
  case wake =>
    split at step <;> cases step
    next deadline waiting => exact .stirs waiting
  case timeout =>
    split at step
    next deadline waiting =>
      split_ifs at step with passed
      cases step
      exact .timesOut waiting passed
    next => cases step
  case relock top =>
    split at step
    next timedOut woken =>
      split_ifs at step with ready isTop <;> cases step
      · exact .takes (by rw [woken, ready.1]) ready.2 isTop
      · exact .passes woken fun passed => by
          by_contra notTerminated
          exact ready ⟨passed, notTerminated⟩
    next => cases step
  case dispatch =>
    split at step <;> cases step
    next event taken => exact .runs taken
    next event taken => exact .deletes taken
  case stop =>
    cases step
    exact .closes
  case shutdown =>
    cases step
    exact .shuts
  case tick =>
    cases step
    exact .tick

end Scheduler
end Common
end Lotospp
