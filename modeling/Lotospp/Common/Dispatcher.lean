import Lotospp.Effect.Machine
import Mathlib.Data.List.Perm.Basic

/-!
# The dispatcher

`class Dispatcher` with its thread, the threads that add tasks and the thread
that shuts it down.  What a thread does between locking and unlocking
`m_taskLock` is one action, except in `shutdown`, which runs tasks in between.
The test of the loop, the task and `notify_one` are outside the lock and have
actions of their own.

Beside the members the state keeps a record of the tasks that were accepted,
taken and executed.
-/

namespace Lotospp
namespace Common

open Effect

/-- `Dispatcher::DispatcherState` and `Scheduler::SchedulerState`. -/
inductive ThreadState
  | running
  | closing
  | terminated
  deriving DecidableEq, Repr

namespace Dispatcher

/-- A `Task`, as far as the dispatcher knows it. -/
structure Task where
  /-- How many tasks were accepted before it. -/
  number : Nat
  /-- `m_expiration`; `none` is `not_a_date_time`. -/
  expiration : Option Nat
  /-- It was added with `push_front`. -/
  pushFront : Bool
  deriving DecidableEq, Repr

/-- `Task::hasExpired`, at a time of the system. -/
def Task.hasExpired (task : Task) (now : Nat) : Bool :=
  match task.expiration with
  | none => false
  | some expiration => expiration < now

/-- Where the dispatcher thread is. -/
inductive Worker
  /-- Before the test of the loop. -/
  | head
  /-- Past the test, without the lock. -/
  | entering
  /-- Blocked in `m_taskSignal.wait`. -/
  | waiting
  /-- No longer blocked, but still without the lock. -/
  | woken
  /-- It has unlocked and has a task. -/
  | taken (task : Task)
  /-- The task has not expired. -/
  | checked (task : Task)
  /-- In `(*task)()`. -/
  | executing (task : Task)
  /-- The task has returned. -/
  | sending
  /-- It has left the loop. -/
  | finished
  deriving DecidableEq, Repr

/-- The task that the thread has taken and neither called nor discarded. -/
def Worker.hand : Worker → List Task
  | .taken task | .checked task => [task]
  | _ => []

/-- The task that the thread has taken and that has not returned. -/
def Worker.task : Worker → Option Task
  | .taken task | .checked task | .executing task => some task
  | _ => none

/-- Who holds `m_taskLock` between two actions. -/
inductive TaskLock
  | free
  /-- `shutdown`, between two tasks of `flush`. -/
  | flushing
  /-- `shutdown`, in `(*task)()` of `flush`. -/
  | executing (task : Task)
  deriving DecidableEq, Repr

/-- What became of a task that was taken. -/
structure Record where
  /-- The task. -/
  task : Task
  /-- The time at which it was called or found expired. -/
  time : Nat
  /-- It was called. -/
  called : Bool
  deriving DecidableEq, Repr

/-- The members of `class Dispatcher`, its thread, the calls of its functions
that have not returned, and what has happened. -/
structure State where
  /-- `m_threadState`. -/
  threadState : ThreadState := .running
  /-- `m_taskList`. -/
  taskList : List Task := []
  /-- `m_taskLock`. -/
  taskLock : TaskLock := .free
  /-- The calls of `addTask` that have unlocked and still have to notify. -/
  signals : Nat := 0
  /-- The dispatcher thread. -/
  worker : Worker := .head
  /-- The time of the system. -/
  now : Nat := 0
  /-- The calls of `shutdown` that have returned. -/
  shutdowns : Nat := 0
  /-- The accepted tasks, in order. -/
  accepted : List Task := []
  /-- The tasks the dispatcher thread has taken, in order. -/
  taken : List Task := []
  /-- The tasks that were called or discarded, in order. -/
  records : List Record := []
  deriving DecidableEq

namespace State

/-- `addTask` between `lock` and `unlock`, while the dispatcher is running. -/
def accept
    (state : State)
    (expiration : Option Nat)
    (pushFront : Bool) : State :=
  let task : Task := ⟨state.accepted.length, expiration, pushFront⟩
  { state with
    signals :=
      if state.taskList.isEmpty then state.signals + 1 else state.signals
    taskList :=
      if pushFront then task :: state.taskList else state.taskList ++ [task]
    accepted := state.accepted ++ [task] }

/-- The dispatcher thread takes a task with the lock and unlocks. -/
def take (state : State) (task : Task) (rest : List Task) : State :=
  { state with
    taskList := rest
    worker := .taken task
    taken := state.taken ++ [task] }

/-- A task is called or discarded. -/
def record (state : State) (task : Task) (called : Bool) : State :=
  { state with records := state.records ++ [⟨task, state.now, called⟩] }

/-- The dispatcher thread, with the lock, takes the first task if there is one
and the dispatcher is not terminated, and unlocks. -/
def takeFirst (state : State) : State :=
  match state.taskList with
  | [] => { state with worker := .head }
  | task :: rest =>
      if state.threadState ≠ .terminated then state.take task rest
      else { state with worker := .head }

end State

/-- What can happen. -/
inductive Action
  /-- `addTask`, up to `unlock`. -/
  | addTask (expiration : Option Nat) (pushFront : Bool)
  /-- `notify_one` of an `addTask`. -/
  | notify
  /-- The dispatcher thread tests `m_threadState`. -/
  | test
  /-- It locks, and waits or takes a task. -/
  | lock
  /-- It wakes up without a notification. -/
  | wake
  /-- It gets the lock back after it has waited. -/
  | relock
  /-- It calls `hasExpired`. -/
  | check
  /-- It calls the task. -/
  | execute
  /-- The task returns. -/
  | returnTask
  /-- It calls `sendAll` and deletes the task. -/
  | sendAll
  /-- `stop`. -/
  | stop
  /-- `shutdown` locks and sets `STATE_TERMINATED`. -/
  | shutdown
  /-- `flush` takes a task and calls it. -/
  | flushTask
  /-- The task that `flush` has called returns, and `sendAll` too. -/
  | flushReturn
  /-- `flush` finds the list empty and `shutdown` unlocks. -/
  | unlock
  /-- The clock of the system is at another time. -/
  | clock (now : Nat)
  deriving DecidableEq, Repr

/-- What an action does. -/
def step (state : State) : Action → Option State
  | .addTask expiration pushFront =>
      if state.taskLock ≠ .free then none
      else if state.threadState = .running then
        some (state.accept expiration pushFront)
      else some state
  | .notify =>
      if state.signals = 0 then none
      else if state.worker = .waiting then
        some { state with signals := state.signals - 1, worker := .woken }
      else some { state with signals := state.signals - 1 }
  | .test =>
      if state.worker ≠ .head then none
      else if state.threadState ≠ .terminated then
        some { state with worker := .entering }
      else some { state with worker := .finished }
  | .lock =>
      if state.worker ≠ .entering ∨ state.taskLock ≠ .free then none
      else if state.taskList.isEmpty then
        some { state with worker := .waiting }
      else some state.takeFirst
  | .wake =>
      if state.worker = .waiting then some { state with worker := .woken }
      else none
  | .relock =>
      if state.worker ≠ .woken ∨ state.taskLock ≠ .free then none
      else some state.takeFirst
  | .check =>
      match state.worker with
      | .taken task =>
          if task.hasExpired state.now then
            some { state.record task false with worker := .head }
          else some { state with worker := .checked task }
      | _ => none
  | .execute =>
      match state.worker with
      | .checked task =>
          some { state.record task true with worker := .executing task }
      | _ => none
  | .returnTask =>
      match state.worker with
      | .executing _ => some { state with worker := .sending }
      | _ => none
  | .sendAll =>
      if state.worker = .sending then some { state with worker := .head }
      else none
  | .stop =>
      if state.taskLock = .free then
        some { state with threadState := .closing }
      else none
  | .shutdown =>
      if state.taskLock = .free then
        some { state with threadState := .terminated, taskLock := .flushing }
      else none
  | .flushTask =>
      match state.taskLock, state.taskList with
      | .flushing, task :: rest =>
          some
            { state.record task true with
              taskList := rest, taskLock := .executing task }
      | _, _ => none
  | .flushReturn =>
      match state.taskLock with
      | .executing _ => some { state with taskLock := .flushing }
      | _ => none
  | .unlock =>
      if state.taskLock = .flushing ∧ state.taskList.isEmpty then
        some
          { state with taskLock := .free, shutdowns := state.shutdowns + 1 }
      else none
  | .clock now => some { state with now := now }

/-- The dispatcher after `start`. -/
def machine : Machine State Action where
  start := {}
  step := step

/-! ## What an action can do -/

/-- The cases of `step`. -/
inductive Steps (state : State) : Action → State → Prop
  | accepts {expiration : Option Nat} {pushFront : Bool}
      (free : state.taskLock = .free)
      (running : state.threadState = .running) :
      Steps state (.addTask expiration pushFront)
        (state.accept expiration pushFront)
  | rejects {expiration : Option Nat} {pushFront : Bool}
      (notRunning : state.threadState ≠ .running) :
      Steps state (.addTask expiration pushFront) state
  | wakes
      (pending : 0 < state.signals)
      (waiting : state.worker = .waiting) :
      Steps state .notify
        { state with signals := state.signals - 1, worker := .woken }
  | notifies
      (pending : 0 < state.signals)
      (notWaiting : state.worker ≠ .waiting) :
      Steps state .notify { state with signals := state.signals - 1 }
  | enters
      (head : state.worker = .head)
      (notTerminated : state.threadState ≠ .terminated) :
      Steps state .test { state with worker := .entering }
  | leaves
      (head : state.worker = .head)
      (terminated : state.threadState = .terminated) :
      Steps state .test { state with worker := .finished }
  | waits
      (entering : state.worker = .entering)
      (free : state.taskLock = .free)
      (empty : state.taskList = []) :
      Steps state .lock { state with worker := .waiting }
  | takes {action : Action} {task : Task} {rest : List Task}
      (locks : state.worker = .entering ∨ state.worker = .woken)
      (free : state.taskLock = .free)
      (first : state.taskList = task :: rest)
      (notTerminated : state.threadState ≠ .terminated) :
      Steps state action (state.take task rest)
  | passes {action : Action}
      (locks : state.worker = .entering ∨ state.worker = .woken)
      (free : state.taskLock = .free)
      (nothing : state.taskList = [] ∨ state.threadState = .terminated) :
      Steps state action { state with worker := .head }
  | stirs
      (waiting : state.worker = .waiting) :
      Steps state .wake { state with worker := .woken }
  | discards {task : Task}
      (taken : state.worker = .taken task)
      (expired : task.hasExpired state.now = true) :
      Steps state .check { state.record task false with worker := .head }
  | checks {task : Task}
      (taken : state.worker = .taken task)
      (lives : task.hasExpired state.now = false) :
      Steps state .check { state with worker := .checked task }
  | executes {task : Task}
      (checked : state.worker = .checked task) :
      Steps state .execute
        { state.record task true with worker := .executing task }
  | returns {task : Task}
      (executing : state.worker = .executing task) :
      Steps state .returnTask { state with worker := .sending }
  | sends
      (sending : state.worker = .sending) :
      Steps state .sendAll { state with worker := .head }
  | stops
      (free : state.taskLock = .free) :
      Steps state .stop { state with threadState := .closing }
  | shuts
      (free : state.taskLock = .free) :
      Steps state .shutdown
        { state with threadState := .terminated, taskLock := .flushing }
  | flushes {task : Task} {rest : List Task}
      (flushing : state.taskLock = .flushing)
      (first : state.taskList = task :: rest) :
      Steps state .flushTask
        { state.record task true with
          taskList := rest, taskLock := .executing task }
  | flushReturns {task : Task}
      (executing : state.taskLock = .executing task) :
      Steps state .flushReturn { state with taskLock := .flushing }
  | unlocks
      (flushing : state.taskLock = .flushing)
      (empty : state.taskList = []) :
      Steps state .unlock
        { state with taskLock := .free, shutdowns := state.shutdowns + 1 }
  | clock {now : Nat} :
      Steps state (.clock now) { state with now := now }

/-- The first task is taken, or there is none to take. -/
theorem Steps.takeFirst
    {state : State}
    {action : Action}
    (locks : state.worker = .entering ∨ state.worker = .woken)
    (free : state.taskLock = .free) :
    Steps state action state.takeFirst := by
  unfold State.takeFirst
  split
  next empty => exact .passes locks free (.inl empty)
  next task rest first =>
    split_ifs with terminated
    · exact .takes locks free first terminated
    · exact .passes locks free (.inr (not_not.mp terminated))

/-- Every step is one of the cases. -/
theorem steps_of_step
    {state state' : State}
    {action : Action}
    (step : machine.step state action = some state') :
    Steps state action state' := by
  cases action <;> simp only [machine, Dispatcher.step] at step
  case addTask =>
    split_ifs at step with locked running <;> cases step
    · exact .accepts (not_not.mp locked) running
    · exact .rejects running
  case notify =>
    split_ifs at step with none waiting <;> cases step
    · exact .wakes (Nat.pos_of_ne_zero none) waiting
    · exact .notifies (Nat.pos_of_ne_zero none) waiting
  case test =>
    split_ifs at step with head terminated <;> cases step
    · exact .enters (not_not.mp head) terminated
    · exact .leaves (not_not.mp head) (not_not.mp terminated)
  case lock =>
    split_ifs at step with locked empty <;> cases step
    all_goals simp only [not_or, not_not] at locked
    · exact .waits locked.1 locked.2 (List.isEmpty_iff.mp empty)
    · exact .takeFirst (.inl locked.1) locked.2
  case wake =>
    split_ifs at step with waiting
    cases step
    exact .stirs waiting
  case relock =>
    split_ifs at step with locked
    cases step
    simp only [not_or, not_not] at locked
    exact .takeFirst (.inr locked.1) locked.2
  case check =>
    split at step
    next task taken =>
      split_ifs at step with expired <;> cases step
      · exact .discards taken expired
      · exact .checks taken (Bool.eq_false_iff.mpr expired)
    next => cases step
  case execute =>
    split at step
    next task checked =>
      cases step
      exact .executes checked
    next => cases step
  case returnTask =>
    split at step
    next task executing =>
      cases step
      exact .returns executing
    next => cases step
  case sendAll =>
    split_ifs at step with sending
    cases step
    exact .sends sending
  case stop =>
    split_ifs at step with free
    cases step
    exact .stops free
  case shutdown =>
    split_ifs at step with free
    cases step
    exact .shuts free
  case flushTask =>
    split at step
    next task rest flushing first =>
      cases step
      exact .flushes flushing first
    next => cases step
  case flushReturn =>
    split at step
    next task executing =>
      cases step
      exact .flushReturns executing
    next => cases step
  case unlock =>
    split_ifs at step with unlocks
    cases step
    exact .unlocks unlocks.1 (List.isEmpty_iff.mp unlocks.2)
  case clock =>
    cases step
    exact .clock

end Dispatcher
end Common
end Lotospp
