import Lotospp.Common.Dispatcher

/-!
# Shutting the dispatcher down

`shutdown` runs what is left in the list on the thread that calls it, while
the dispatcher thread may have a task of its own, and without asking whether
the tasks have expired.  It notifies nobody.
-/

namespace Lotospp
namespace Common
namespace Dispatcher

open Effect

/-! ## Tasks one at a time -/

/-- The task that the thread has tested and still has to call. -/
def Worker.tested : Worker → List Task
  | .checked task => [task]
  | _ => []

/-- Tasks are serial, and called before they expire. -/
structure Serial (state : State) : Prop where
  /-- `flush` and the dispatcher thread are not in a task at once. -/
  alone : ∀ task other, state.worker = .executing task →
    state.taskLock ≠ .executing other
  /-- A task that was called had not expired. -/
  timely : ∀ record ∈ state.records, record.called = true →
    record.task.hasExpired record.time = false

/-- `shutdown` gets the lock while the dispatcher thread has no task or the
list is empty, with no expired task in the list; and no task expires between
the test of the dispatcher thread and its call, or while `flush` has still to
run it. -/
def Quiet (state : State) : Action → Prop
  | .shutdown =>
      (state.taskList = [] ∨ state.worker.task = none) ∧
        ∀ task ∈ state.taskList, task.hasExpired state.now = false
  | .clock now =>
      (∀ task ∈ state.worker.tested, task.hasExpired now = false) ∧
        (state.taskLock ≠ .free →
          ∀ task ∈ state.taskList, task.hasExpired now = false)
  | _ => True

/-- What holds in the runs whose steps are quiet. -/
structure Flushes (state : State) : Prop where
  /-- The tasks are serial. -/
  serial : Serial state
  /-- What `flush` has still to run, it runs alone. -/
  idle : state.taskLock ≠ .free → state.taskList ≠ [] →
    state.worker.task = none
  /-- What `flush` runs, it runs alone. -/
  alone : ∀ task, state.taskLock = .executing task → state.worker.task = none
  /-- What `flush` has still to run has not expired. -/
  lively : state.taskLock ≠ .free →
    ∀ task ∈ state.taskList, task.hasExpired state.now = false
  /-- The task that the dispatcher thread has tested has not expired. -/
  checked : ∀ task ∈ state.worker.tested, task.hasExpired state.now = false

namespace Flushes

variable {state state' : State}

/-- The dispatcher thread moves without taking or calling a task. -/
theorem move
    (flushes : Flushes state)
    (worker : Worker)
    (task : worker.task = none ∨ worker.task = state.worker.task)
    (notExecuting : ∀ task, worker ≠ .executing task)
    (lively : ∀ task ∈ worker.tested, task.hasExpired state.now = false) :
    Flushes { state with worker := worker } where
  serial := ⟨fun task _ executing => absurd executing (notExecuting task),
    flushes.serial.timely⟩
  idle locked filled := by
    rcases task with none | same
    · exact none
    · exact same.trans (flushes.idle locked filled)
  alone other executing := by
    rcases task with none | same
    · exact none
    · exact same.trans (flushes.alone other executing)
  lively := flushes.lively
  checked := lively

/-- The dispatcher thread moves with the lock free. -/
theorem moveFree
    (flushes : Flushes state)
    (free : state.taskLock = .free)
    (worker : Worker)
    (notExecuting : ∀ task, worker ≠ .executing task)
    (notTested : worker.tested = [])
    {taskList taken : List Task} :
    Flushes
      { state with taskList := taskList, worker := worker, taken := taken } where
  serial := ⟨fun task _ executing => absurd executing (notExecuting task),
    flushes.serial.timely⟩
  idle locked := absurd free locked
  alone task executing := by simp [free] at executing
  lively locked := absurd free locked
  checked := by simp [notTested]

/-- Every quiet action keeps the tasks serial. -/
theorem steps
    {action : Action}
    (flushes : Flushes state)
    (quiet : Quiet state action)
    (steps : Steps state action state') :
    Flushes state' := by
  cases steps with
  | accepts free running =>
      refine ⟨⟨?_, flushes.serial.timely⟩, fun locked => absurd free locked,
        fun task executing => ?_, fun locked => absurd free locked,
        flushes.checked⟩
      · exact flushes.serial.alone
      · simp [State.accept, free] at executing
  | rejects => exact flushes
  | wakes pending waiting =>
      have moved := flushes.move .woken (.inl rfl) nofun nofun
      exact ⟨⟨moved.serial.alone, moved.serial.timely⟩, moved.idle,
        moved.alone, moved.lively, moved.checked⟩
  | notifies =>
      exact ⟨⟨flushes.serial.alone, flushes.serial.timely⟩, flushes.idle,
        flushes.alone, flushes.lively, flushes.checked⟩
  | enters => exact flushes.move .entering (.inl rfl) nofun nofun
  | leaves => exact flushes.move .finished (.inl rfl) nofun nofun
  | waits => exact flushes.move .waiting (.inl rfl) nofun nofun
  | takes locks free first => exact flushes.moveFree free (.taken _) nofun rfl
  | passes => exact flushes.move .head (.inl rfl) nofun nofun
  | stirs => exact flushes.move .woken (.inl rfl) nofun nofun
  | @discards task taken expired =>
      have moved := flushes.move .head (.inl rfl) nofun nofun
      refine ⟨⟨nofun, fun record member called => ?_⟩, moved.idle, moved.alone,
        moved.lively, moved.checked⟩
      rcases List.mem_append.mp member with earlier | last
      · exact flushes.serial.timely record earlier called
      · obtain rfl := List.mem_singleton.mp last
        cases called
  | @checks task taken lives =>
      refine flushes.move _ (.inr (by simp [taken, Worker.task])) nofun ?_
      simpa [Worker.tested] using lives
  | @executes task checked =>
      -- The thread has a task, so that `flush` is not in one.
      have busy : state.worker.task ≠ none := by simp [checked, Worker.task]
      refine ⟨⟨fun _ other _ executing => ?_, fun record member called => ?_⟩,
        fun locked filled => absurd (flushes.idle locked filled) busy,
        fun other executing => absurd (flushes.alone other executing) busy,
        flushes.lively, nofun⟩
      · exact busy (flushes.alone other executing)
      · rcases List.mem_append.mp member with earlier | last
        · exact flushes.serial.timely record earlier called
        · obtain rfl := List.mem_singleton.mp last
          exact flushes.checked task (by simp [checked, Worker.tested])
  | returns => exact flushes.move .sending (.inl rfl) nofun nofun
  | sends => exact flushes.move .head (.inl rfl) nofun nofun
  | stops =>
      exact ⟨⟨flushes.serial.alone, flushes.serial.timely⟩, flushes.idle,
        flushes.alone, flushes.lively, flushes.checked⟩
  | shuts free =>
      refine ⟨⟨nofun, flushes.serial.timely⟩, fun _ filled => ?_, nofun,
        fun _ => quiet.2, flushes.checked⟩
      exact quiet.1.resolve_left filled
  | @flushes task rest flushing first =>
      have locked : state.taskLock ≠ .free := by simp [flushing]
      have idle := flushes.idle locked (by simp [first])
      have lively := flushes.lively locked
      rw [first] at lively
      refine ⟨⟨fun other _ executing => ?_, fun record member called => ?_⟩,
        fun _ _ => idle, fun _ _ => idle,
        fun _ other member => lively other (List.mem_cons_of_mem _ member),
        flushes.checked⟩
      · simp [show state.worker = .executing other from executing,
          Worker.task] at idle
      · rcases List.mem_append.mp member with earlier | last
        · exact flushes.serial.timely record earlier called
        · obtain rfl := List.mem_singleton.mp last
          exact lively task List.mem_cons_self
  | @flushReturns task executing =>
      have locked : state.taskLock ≠ .free := by simp [executing]
      exact ⟨⟨nofun, flushes.serial.timely⟩,
        fun _ _ => flushes.alone task executing, nofun,
        fun _ => flushes.lively locked, flushes.checked⟩
  | unlocks flushing empty =>
      exact ⟨⟨nofun, flushes.serial.timely⟩, fun locked => absurd rfl locked,
        nofun, fun locked => absurd rfl locked, flushes.checked⟩
  | clock =>
      exact ⟨⟨flushes.serial.alone, flushes.serial.timely⟩, flushes.idle,
        flushes.alone, quiet.2, quiet.1⟩

theorem start : Flushes machine.start :=
  ⟨⟨nofun, nofun⟩, fun _ filled => absurd rfl filled, nofun, nofun, nofun⟩

end Flushes

/-- In a run whose steps are quiet, tasks are executed one at a time and none
after it has expired. -/
theorem serial_of_quiet
    (actions : List Action)
    (quiet : machine.Meets Quiet machine.start actions) :
    Serial (machine.after actions) :=
  (Machine.run_keeps_of_meets
    (fun _ _ _ flushes quiet step => flushes.steps quiet (steps_of_step step))
    Flushes.start quiet).serial

instance decidableQuiet :
    ∀ state action, Decidable (Quiet state action) := by
  intro state action
  cases action <;> unfold Quiet <;> infer_instance

/-- A task is added and done before the dispatcher is shut down with another
one in its list. -/
theorem serial_of_two :
    Serial (machine.after [.addTask (some 5) false, .test, .lock, .clock 4,
      .check, .execute, .returnTask, .sendAll, .addTask (some 9) false,
      .shutdown, .clock 8, .flushTask, .flushReturn, .unlock]) :=
  serial_of_quiet _ (by decide)

/-- The dispatcher thread is in one task and `flush` in another one; and
`flush` calls a task that has expired. -/
theorem shutdown_not_serial :
    ¬ Serial (machine.after [.addTask none false, .test, .lock, .check,
      .execute, .addTask none false, .shutdown, .flushTask]) ∧
    ¬ Serial (machine.after [.addTask (some 5) false, .clock 6, .shutdown,
      .flushTask]) := by
  constructor
  · intro serial
    exact serial.alone ⟨0, none, false⟩ ⟨1, none, false⟩ rfl rfl
  · intro serial
    have timely := serial.timely ⟨⟨0, some 5, false⟩, 6, true⟩
      List.mem_cons_self rfl
    simp [Task.hasExpired] at timely

/-! ## The end of the thread -/

/-- `shutdown` has returned, and the thread sleeps without a notification on
its way. -/
def Stranded (state : State) : Prop :=
  0 < state.shutdowns ∧ state.worker = .waiting ∧ state.signals = 0

/-- `shutdown` gets the lock while the thread is neither on its way to the
lock nor asleep without a notification on its way; and nobody calls `stop`
after `shutdown`. -/
def Reached (state : State) : Action → Prop
  | .shutdown =>
      state.worker ≠ .entering ∧
        (state.worker = .waiting → 0 < state.signals)
  | .stop => state.threadState ≠ .terminated
  | _ => True

instance decidableReached :
    ∀ state action, Decidable (Reached state action) := by
  intro state action
  cases action <;> unfold Reached <;> infer_instance

/-- What holds in the runs whose steps reach the thread. -/
structure Reaches (state : State) : Prop where
  /-- `shutdown` is called once for all. -/
  shut : state.taskLock ≠ .free ∨ 0 < state.shutdowns →
    state.threadState = .terminated
  /-- The thread of a terminated dispatcher is not on its way to the lock. -/
  passed : state.threadState = .terminated → state.worker ≠ .entering
  /-- The thread of a terminated dispatcher will wake up. -/
  awake : state.threadState = .terminated → state.worker = .waiting →
    0 < state.signals

namespace Reaches

variable {state state' : State}

/-- The dispatcher thread moves, but neither to the lock nor to sleep. -/
theorem move
    (reaches : Reaches state)
    (worker : Worker)
    (notEntering : worker ≠ .entering)
    (notWaiting : worker ≠ .waiting)
    {signals : Nat}
    {taskList taken : List Task}
    {records : List Record} :
    Reaches
      { state with
        worker := worker, signals := signals, taskList := taskList,
        taken := taken, records := records } :=
  ⟨reaches.shut, fun _ => notEntering,
    fun _ waiting => absurd waiting notWaiting⟩

/-- Every action that reaches the thread keeps it from being stranded. -/
theorem steps
    {action : Action}
    (reaches : Reaches state)
    (reached : Reached state action)
    (steps : Steps state action state') :
    Reaches state' := by
  cases steps with
  | accepts free running =>
      have notTerminated : state.threadState ≠ .terminated := by simp [running]
      exact ⟨reaches.shut, fun terminated => absurd terminated notTerminated,
        fun terminated => absurd terminated notTerminated⟩
  | rejects => exact reaches
  | wakes => exact reaches.move .woken nofun nofun
  | notifies pending notWaiting =>
      exact ⟨reaches.shut, reaches.passed,
        fun _ waiting => absurd waiting notWaiting⟩
  | enters head notTerminated =>
      exact ⟨reaches.shut, fun terminated => absurd terminated notTerminated,
        nofun⟩
  | leaves => exact reaches.move .finished nofun nofun
  | waits entering =>
      -- A thread on its way to the lock is that of a live dispatcher.
      have notTerminated : state.threadState ≠ .terminated :=
        fun terminated => reaches.passed terminated entering
      exact ⟨reaches.shut, nofun,
        fun terminated => absurd terminated notTerminated⟩
  | takes => exact reaches.move (.taken _) nofun nofun
  | passes => exact reaches.move .head nofun nofun
  | stirs => exact reaches.move .woken nofun nofun
  | discards => exact reaches.move .head nofun nofun
  | checks => exact reaches.move (.checked _) nofun nofun
  | executes => exact reaches.move (.executing _) nofun nofun
  | returns => exact reaches.move .sending nofun nofun
  | sends => exact reaches.move .head nofun nofun
  | stops =>
      refine ⟨fun shut => ?_, nofun, nofun⟩
      exact absurd (reaches.shut shut) reached
  | shuts => exact ⟨fun _ => rfl, fun _ => reached.1, fun _ => reached.2⟩
  | flushes flushing =>
      have terminated := reaches.shut (.inl (by simp [flushing]))
      exact ⟨fun _ => terminated, reaches.passed, reaches.awake⟩
  | flushReturns executing =>
      have terminated := reaches.shut (.inl (by simp [executing]))
      exact ⟨fun _ => terminated, reaches.passed, reaches.awake⟩
  | unlocks flushing =>
      have terminated := reaches.shut (.inl (by simp [flushing]))
      exact ⟨fun _ => terminated, reaches.passed, reaches.awake⟩
  | clock => exact ⟨reaches.shut, reaches.passed, reaches.awake⟩

theorem start : Reaches machine.start :=
  ⟨by simp [machine], nofun, nofun⟩

theorem not_stranded (reaches : Reaches state) : ¬ Stranded state := by
  rintro ⟨shut, waiting, quiet⟩
  have awake := reaches.awake (reaches.shut (.inr shut)) waiting
  omega

end Reaches

/-- A run whose steps reach the thread does not strand it. -/
theorem not_stranded_of_reached
    (actions : List Action)
    (reached : machine.Meets Reached machine.start actions) :
    ¬ Stranded (machine.after actions) :=
  (Machine.run_keeps_of_meets
    (fun _ _ _ reaches reached step =>
      reaches.steps reached (steps_of_step step))
    Reaches.start reached).not_stranded

end Dispatcher
end Common
end Lotospp
