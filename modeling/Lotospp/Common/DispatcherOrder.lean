import Lotospp.Common.Dispatcher
import Mathlib.Data.List.Nodup

/-!
# Tasks of the running dispatcher

While the dispatcher is running its thread is the only one that takes tasks.
Every accepted task is then in one of three places: in the list, in the hands
of the thread, or among the tasks that were called or discarded; and the order
of the list is the order in which they are taken.
-/

namespace Lotospp
namespace Common
namespace Dispatcher

open Effect

/-- Two elements in the order of a list are in the order of its front if the
second is not in the back. -/
theorem pair_sublist_of_notMem
    {first second : Task}
    {front back : List Task}
    (inOrder : List.Sublist [first, second] (front ++ back))
    (notBack : second ∉ back) :
    List.Sublist [first, second] front := by
  obtain ⟨left, right, parts, inFront, inBack⟩ :=
    List.sublist_append_iff.mp inOrder
  rcases List.eq_nil_or_concat right with rfl | ⟨init, last, rfl⟩
  · rw [List.append_nil] at parts
    rwa [parts]
  · have same : last = second := by
      have ends := congrArg List.getLast? parts
      simpa [List.concat_eq_append, ← List.append_assoc, eq_comm] using ends
    have member : last ∈ back :=
      inBack.subset (by simp [List.concat_eq_append])
    exact absurd (same ▸ member) notBack

/-! ## The invariant -/

/-- What holds of the tasks while the dispatcher is running. -/
structure Serves (state : State) : Prop where
  /-- Every accepted task was taken or is in the list. -/
  whole : (state.taken ++ state.taskList).Perm state.accepted
  /-- The tasks that were taken are called or discarded one after the other. -/
  served : state.records.map Record.task ++ state.worker.hand = state.taken
  /-- A task is discarded because it has expired. -/
  discarded : ∀ record ∈ state.records, record.called = false →
    record.task.hasExpired record.time = true
  /-- Tasks added without `push_front` are taken in the order of `addTask`. -/
  inOrder :
    (state.taken ++ state.taskList).filter (fun task => !task.pushFront) =
      state.accepted.filter fun task => !task.pushFront
  /-- The thread sleeps beside a task only until a notification arrives. -/
  awake : state.worker = .waiting → state.taskList ≠ [] → 0 < state.signals
  /-- The accepted tasks are numbered. -/
  numbered : state.accepted.map Task.number =
    List.range state.accepted.length

/-- While the dispatcher is running nobody has shut it down. -/
structure Orderly (state : State) : Prop where
  /-- `shutdown` does not hold the lock. -/
  free : state.threadState = .running → state.taskLock = .free
  /-- The tasks are served. -/
  serves : state.threadState = .running → Serves state

namespace Serves

variable {state : State}

/-- No task is accepted twice. -/
theorem accepted_nodup (serves : Serves state) : state.accepted.Nodup := by
  apply List.Nodup.of_map Task.number
  rw [serves.numbered]
  exact List.nodup_range

/-- No task is taken twice, or taken and still in the list. -/
theorem taken_nodup (serves : Serves state) :
    (state.taken ++ state.taskList).Nodup :=
  serves.whole.nodup_iff.mpr serves.accepted_nodup

/-- No task is called or discarded twice. -/
theorem records_nodup (serves : Serves state) :
    (state.records.map Record.task).Nodup := by
  have taken := (List.nodup_append.mp serves.taken_nodup).1
  rw [← serves.served] at taken
  exact (List.nodup_append.mp taken).1

theorem accept
    (serves : Serves state)
    (expiration : Option Nat)
    (pushFront : Bool) :
    Serves (state.accept expiration pushFront) where
  whole := by
    have added := serves.whole.append_right
      [(⟨state.accepted.length, expiration, pushFront⟩ : Task)]
    cases pushFront with
    | false => simpa [State.accept] using added
    | true =>
        refine List.Perm.trans ?_ added
        have moved : List.Perm (state.taken ++
            ⟨state.accepted.length, expiration, true⟩ :: state.taskList) _ :=
          List.perm_middle
        simpa [State.accept] using
          moved.trans (List.perm_append_singleton _ _).symm
  served := serves.served
  discarded := serves.discarded
  inOrder := by
    have inOrder := serves.inOrder
    cases pushFront with
    | false =>
        rw [List.filter_append] at inOrder
        simp [State.accept, ← inOrder]
    | true => simpa [State.accept] using inOrder
  awake waiting _ := by
    by_cases empty : state.taskList = []
    · simp [State.accept, empty]
    · simpa [State.accept, empty] using serves.awake waiting empty
  numbered := by
    simp [State.accept, serves.numbered, List.range_succ]

theorem take
    (serves : Serves state)
    {task : Task}
    {rest : List Task}
    (locks : state.worker = .entering ∨ state.worker = .woken)
    (first : state.taskList = task :: rest) :
    Serves (state.take task rest) where
  whole := by simpa [State.take, first] using serves.whole
  served := by
    have served := serves.served
    rcases locks with worker | worker <;>
      simpa [worker, Worker.hand, State.take] using served
  discarded := serves.discarded
  inOrder := by simpa [State.take, first] using serves.inOrder
  awake waiting := by simp [State.take] at waiting
  numbered := serves.numbered

/-- The thread moves with the same task in its hands. -/
theorem move
    (serves : Serves state)
    (worker : Worker)
    (hand : worker.hand = state.worker.hand)
    (sleeps : worker = .waiting → state.taskList = []) :
    Serves { state with worker := worker } where
  whole := serves.whole
  served := by simpa [hand] using serves.served
  discarded := serves.discarded
  inOrder := serves.inOrder
  awake waiting filled := absurd (sleeps waiting) filled
  numbered := serves.numbered

/-- The thread calls the task in its hands, or discards it. -/
theorem record
    (serves : Serves state)
    {task : Task}
    {worker : Worker}
    {called : Bool}
    (hand : state.worker.hand = [task])
    (empty : worker.hand = [])
    (sleeps : worker ≠ .waiting)
    (expired : called = false → task.hasExpired state.now = true) :
    Serves { state.record task called with worker := worker } where
  whole := serves.whole
  served := by simpa [State.record, empty, hand] using serves.served
  discarded record member := by
    rcases List.mem_append.mp member with earlier | last
    · exact serves.discarded record earlier
    · obtain rfl := List.mem_singleton.mp last
      exact expired
  inOrder := serves.inOrder
  awake waiting := absurd waiting sleeps
  numbered := serves.numbered

end Serves

namespace Orderly

variable {state state' : State}

/-- The thread moves. -/
theorem move
    (orderly : Orderly state)
    {worker : Worker}
    (hand : worker.hand = state.worker.hand)
    (sleeps : worker = .waiting → state.taskList = []) :
    Orderly { state with worker := worker } where
  free := orderly.free
  serves running := (orderly.serves running).move worker hand sleeps

/-- Every action keeps the tasks in order. -/
theorem steps
    {action : Action}
    (orderly : Orderly state)
    (steps : Steps state action state') :
    Orderly state' := by
  cases steps with
  | accepts free running =>
      exact ⟨fun _ => free, fun _ => (orderly.serves running).accept _ _⟩
  | rejects => exact orderly
  | wakes pending waiting =>
      refine ⟨orderly.free, fun running => ?_⟩
      have serves := orderly.serves running
      have moved := serves.move .woken (by simp [waiting, Worker.hand]) nofun
      exact ⟨moved.whole, moved.served, moved.discarded, moved.inOrder, nofun,
        moved.numbered⟩
  | notifies pending notWaiting =>
      refine ⟨orderly.free, fun running => ?_⟩
      have serves := orderly.serves running
      exact ⟨serves.whole, serves.served, serves.discarded, serves.inOrder,
        fun waiting => absurd waiting notWaiting, serves.numbered⟩
  | enters head => exact orderly.move (by simp [head, Worker.hand]) nofun
  | leaves head => exact orderly.move (by simp [head, Worker.hand]) nofun
  | waits entering free empty =>
      exact orderly.move (by simp [entering, Worker.hand]) fun _ => empty
  | takes locks free first =>
      exact ⟨orderly.free, fun running =>
        (orderly.serves running).take locks first⟩
  | passes locks =>
      refine orderly.move ?_ nofun
      rcases locks with worker | worker <;> simp [worker, Worker.hand]
  | stirs waiting => exact orderly.move (by simp [waiting, Worker.hand]) nofun
  | discards taken expired =>
      exact ⟨orderly.free, fun running =>
        (orderly.serves running).record (by simp [taken, Worker.hand]) rfl nofun
          fun _ => expired⟩
  | checks taken lives =>
      exact orderly.move (by simp [taken, Worker.hand]) nofun
  | executes checked =>
      exact ⟨orderly.free, fun running =>
        (orderly.serves running).record (by simp [checked, Worker.hand]) rfl
          nofun nofun⟩
  | returns executing =>
      exact orderly.move (by simp [executing, Worker.hand]) nofun
  | sends sending =>
      exact orderly.move (by simp [sending, Worker.hand]) nofun
  | stops => exact ⟨nofun, nofun⟩
  | shuts => exact ⟨nofun, nofun⟩
  | flushes flushing =>
      have locked (running : state.threadState = .running) : False := by
        simpa [flushing] using orderly.free running
      exact ⟨fun running => (locked running).elim,
        fun running => (locked running).elim⟩
  | flushReturns executing =>
      have locked (running : state.threadState = .running) : False := by
        simpa [executing] using orderly.free running
      exact ⟨fun running => (locked running).elim,
        fun running => (locked running).elim⟩
  | unlocks flushing =>
      have locked (running : state.threadState = .running) : False := by
        simpa [flushing] using orderly.free running
      exact ⟨fun running => (locked running).elim,
        fun running => (locked running).elim⟩
  | clock =>
      refine ⟨orderly.free, fun running => ?_⟩
      have serves := orderly.serves running
      exact ⟨serves.whole, serves.served, serves.discarded, serves.inOrder,
        serves.awake, serves.numbered⟩

end Orderly

/-! ## Runs -/

/-- While the dispatcher is running, the tasks of its list are taken in the
order of the list, with others perhaps in between. -/
def Follows (state state' : State) : Prop :=
  state'.threadState = .running →
    state.threadState = .running ∧
      ∃ more, state'.taken = state.taken ++ more ∧
        List.Sublist state.taskList (more ++ state'.taskList)

namespace Follows

theorem refl (state : State) : Follows state state :=
  fun running => ⟨running, [], by simp, by simp⟩

theorem trans
    (first second third : State)
    (follows : Follows first second)
    (next : Follows second third) :
    Follows first third := by
  intro running
  obtain ⟨running, later, takenLater, inLater⟩ := next running
  obtain ⟨running, more, takenMore, inMore⟩ := follows running
  refine ⟨running, more ++ later, by simp [takenLater, takenMore], ?_⟩
  rw [List.append_assoc]
  exact inMore.trans (inLater.append_left more)

/-- A step that leaves the list and what was taken alone. -/
theorem same
    {state state' : State}
    (threadState : state'.threadState = state.threadState)
    (taken : state'.taken = state.taken)
    (taskList : state'.taskList = state.taskList) :
    Follows state state' :=
  fun running =>
    ⟨threadState ▸ running, [], by simp [taken], by simp [taskList]⟩

/-- Every action takes the first task of the list or none. -/
theorem steps
    {state state' : State}
    {action : Action}
    (orderly : Orderly state)
    (steps : Steps state action state') :
    Follows state state' := by
  cases steps with
  | @accepts expiration pushFront _ running =>
      refine fun _ => ⟨running, [], by simp [State.accept], ?_⟩
      cases pushFront <;> simp [State.accept]
  | takes _ _ first =>
      exact fun running => ⟨running, [_], rfl, by simp [State.take, first]⟩
  | stops => exact nofun
  | shuts => exact nofun
  | flushes flushing =>
      intro running
      have free := orderly.free running
      simp [flushing] at free
  | rejects => exact refl state
  | _ => exact same rfl rfl rfl

end Follows

theorem orderly_start : Orderly machine.start := by
  refine ⟨fun _ => rfl, fun _ => ⟨.refl _, rfl, nofun, rfl, nofun, rfl⟩⟩

/-- Every run keeps the tasks in order. -/
theorem orderly_after (actions : List Action) :
    Orderly (machine.after actions) :=
  Machine.after_keeps orderly_start
    (fun _ _ _ orderly step => orderly.steps (steps_of_step step)) actions

/-- The list of a run is taken in its order by every longer run. -/
theorem follows_after (actions later : List Action) :
    Follows (machine.after actions) (machine.after (actions ++ later)) := by
  rw [Machine.after_append]
  exact Machine.run_follows Follows.refl Follows.trans
    (fun _ _ _ orderly step => orderly.steps (steps_of_step step))
    (fun _ _ _ orderly step => Follows.steps orderly (steps_of_step step))
    (orderly_after actions) later

/-- While the dispatcher is running, every accepted task is called, or
discarded because it has expired, at most once; no task is called or discarded
before one that was ahead of it in the list; tasks without `push_front` are
taken in the order of their `addTask`; and the thread does not sleep beside a
task unless a notification is on its way. -/
theorem tasks_served
    (actions later : List Action)
    (running : (machine.after (actions ++ later)).threadState = .running) :
    Serves (machine.after (actions ++ later)) ∧
      ((machine.after (actions ++ later)).records.map Record.task).Nodup ∧
      ∀ first second,
        List.Sublist [first, second] (machine.after actions).taskList →
        second ∈ (machine.after (actions ++ later)).records.map Record.task →
        List.Sublist [first, second]
          ((machine.after (actions ++ later)).records.map Record.task) := by
  have serves := (orderly_after (actions ++ later)).serves running
  refine ⟨serves, serves.records_nodup, fun first second inOrder handled => ?_⟩
  obtain ⟨-, more, taken, inMore⟩ := follows_after actions later running
  have distinct := serves.taken_nodup
  have served := serves.served
  have parts := List.nodup_append.mp distinct
  have isTaken : second ∈ (machine.after (actions ++ later)).taken := by
    rw [← served]
    exact List.mem_append_left _ handled
  have notListed : second ∉ (machine.after (actions ++ later)).taskList :=
    fun listed => parts.2.2 second isTaken second listed rfl
  have inTaken : List.Sublist [first, second]
      (machine.after (actions ++ later)).taken := by
    rw [taken]
    exact (pair_sublist_of_notMem (inOrder.trans inMore) notListed).trans
      (List.sublist_append_right _ _)
  rw [← served] at inTaken parts
  refine pair_sublist_of_notMem inTaken fun inHand => ?_
  exact (List.nodup_append.mp parts.1).2.2 second handled second inHand rfl

/-- A task is added while the thread sleeps, and another one to the front. -/
theorem tasks_served_of_two :
    (machine.after [.test, .lock, .addTask none false, .addTask (some 3) true,
        .notify, .relock, .check, .execute, .returnTask,
        .sendAll]).threadState = .running ∧
      Serves (machine.after ([.test, .lock, .addTask none false,
        .addTask (some 3) true] ++ [.notify, .relock, .check, .execute,
        .returnTask, .sendAll])) :=
  ⟨by decide, (tasks_served
    [.test, .lock, .addTask none false, .addTask (some 3) true]
    [.notify, .relock, .check, .execute, .returnTask, .sendAll]
    (by decide)).1⟩

end Dispatcher
end Common
end Lotospp
