import Lotospp.Common.SchedulerEvents
import Mathlib.Data.Nat.ModEq

/-!
# The ids of the scheduler

`addEvent` numbers the tasks of `createSchedulerTask` with a counter of 32
bits that leaves 0 out.  The id of a task comes back after `2 ^ 32 - 1`
others, whether the task is still queued or not.
-/

namespace Lotospp
namespace Common
namespace Scheduler

open Effect

/-- How many ids there are. -/
def idCount : Nat := 2 ^ 32 - 1

/-- The ids of the queued tasks are pairwise distinct and not 0. -/
def IdsApart (state : State) : Prop :=
  DistinctIds state ∧ ∀ event ∈ state.eventList, event.eventId ≠ 0

/-- The tasks come from `createSchedulerTask`, which gives them the id 0. -/
def Action.Created : Action → Prop
  | .addEvent eventId _ _ => eventId = 0
  | _ => True

/-- A task is added while no task is queued that was added a multiple of
`idCount` tasks before. -/
def Fresh (state : State) : Action → Prop
  | .addEvent _ _ _ =>
      state.threadState = .running →
        ∀ event ∈ state.eventList,
          ¬ idCount ∣ state.accepted.length - event.number
  | _ => True

/-- The ids tell how many tasks were added, up to rounds of the counter. -/
structure Counts (state : State) : Prop where
  /-- The counter goes with the number of the tasks. -/
  counter : state.lastEventId.toNat % idCount =
    state.accepted.length % idCount
  /-- The id of a task goes with its number. -/
  eventId : ∀ event ∈ state.eventList,
    event.eventId.toNat = event.number % idCount + 1
  /-- The queued tasks were accepted before. -/
  earlier : ∀ event ∈ state.eventList,
    event.number < state.accepted.length

namespace Counts

variable {state state' : State}

theorem newEventId (counts : Counts state) (cycle : Nat) :
    (state.event 0 cycle).eventId.toNat =
      state.accepted.length % idCount + 1 := by
  have next := nextEventId_toNat state
  rw [show (2 ^ 32 - 1 : Nat) = idCount from rfl, counts.counter] at next
  simpa [State.event] using next

theorem accept
    (counts : Counts state)
    (cycle : Nat)
    (isTop : Bool) :
    Counts (state.accept 0 cycle isTop) where
  counter := by
    have new := counts.newEventId cycle
    simp only [State.accept, if_true, List.length_append, List.length_cons,
      List.length_nil]
    rw [new]
    simp [Nat.add_mod]
  eventId := by
    intro event member
    rcases List.mem_append.mp member with queued | last
    · exact counts.eventId event queued
    · obtain rfl := List.mem_singleton.mp last
      exact counts.newEventId cycle
  earlier := by
    intro event member
    simp only [State.accept, List.length_append, List.length_cons,
      List.length_nil]
    rcases List.mem_append.mp member with queued | last
    · have earlier := counts.earlier event queued
      omega
    · obtain rfl := List.mem_singleton.mp last
      simp [State.event]

/-- Nothing is added, and the queue loses tasks at most. -/
theorem subset
    (counts : Counts state)
    (counter : state'.lastEventId = state.lastEventId)
    (accepted : state'.accepted = state.accepted)
    (queue : ∀ event ∈ state'.eventList, event ∈ state.eventList) :
    Counts state' where
  counter := by rw [counter, accepted, counts.counter]
  eventId event queued := counts.eventId event (queue event queued)
  earlier event queued := accepted ▸ counts.earlier event (queue event queued)

/-- The id of a new task differs from those of the queue exactly when no
queued task is whole rounds of the counter older. -/
theorem fresh_iff (counts : Counts state) (cycle : Nat) :
    (∀ event ∈ state.eventList,
      event.eventId ≠ (state.event 0 cycle).eventId) ↔
      ∀ event ∈ state.eventList,
        ¬ idCount ∣ state.accepted.length - event.number := by
  refine forall₂_congr fun event queued => not_congr ?_
  have old := counts.eventId event queued
  have new := counts.newEventId cycle
  have earlier := counts.earlier event queued
  rw [← UInt32.toNat_inj, old, new, Nat.add_right_cancel_iff]
  exact Nat.modEq_iff_dvd' earlier.le

end Counts

/-- What happens to the queue when nothing is added. -/
theorem IdsApart.sublist
    {state state' : State}
    (apart : IdsApart state)
    (queue : List.Sublist state'.eventList state.eventList) :
    IdsApart state' :=
  ⟨apart.1.sublist (queue.map Event.eventId),
    fun event queued => apart.2 event (queue.subset queued)⟩

theorem accept_apart_iff
    {state : State}
    (counts : Counts state)
    (apart : IdsApart state)
    (cycle : Nat)
    (isTop : Bool) :
    IdsApart (state.accept 0 cycle isTop) ↔
      ∀ event ∈ state.eventList,
        ¬ idCount ∣ state.accepted.length - event.number := by
  rw [← counts.fresh_iff cycle]
  have nonzero := event_eventId_ne_zero state 0 cycle
  constructor
  · rintro ⟨distinct, -⟩ event queued same
    simp only [DistinctIds, State.accept, List.map_append,
      List.nodup_append, List.map_cons, List.map_nil] at distinct
    exact distinct.2.2 event.eventId (List.mem_map_of_mem queued)
      _ (List.mem_singleton_self _) same
  · intro different
    refine ⟨?_, fun event member => ?_⟩
    · simp only [DistinctIds, State.accept, List.map_append,
        List.nodup_append, List.map_cons, List.map_nil]
      refine ⟨apart.1, List.nodup_singleton _, ?_⟩
      intro id old new isNew same
      obtain ⟨event, queued, rfl⟩ := List.mem_map.mp old
      obtain rfl := List.mem_singleton.mp isNew
      exact different event queued same
    · rcases List.mem_append.mp member with queued | last
      · exact apart.2 event queued
      · obtain rfl := List.mem_singleton.mp last
        exact nonzero

/-- Every action but `addEvent` leaves no more in the queue than there was. -/
theorem steps_queue
    {state state' : State}
    {action : Action}
    (steps : Steps state action state') :
    (∃ eventId cycle isTop, action = .addEvent eventId cycle isTop ∧
      state.threadState = .running ∧
      state' = state.accept eventId cycle isTop) ∨
    List.Sublist state'.eventList state.eventList ∧
      state'.lastEventId = state.lastEventId ∧
      state'.accepted = state.accepted ∧
      ((∃ eventId cycle isTop, action = .addEvent eventId cycle isTop) →
        state.threadState ≠ .running) := by
  cases steps with
  | @accepts eventId cycle isTop running =>
      exact .inl ⟨eventId, cycle, isTop, rfl, running, rfl⟩
  | rejects notRunning =>
      exact .inr ⟨.refl _, rfl, rfl, fun _ => notRunning⟩
  | takes => exact .inr ⟨List.erase_sublist, rfl, rfl, nofun⟩
  | shuts => exact .inr ⟨List.nil_sublist _, rfl, rfl, nofun⟩
  | _ => exact .inr ⟨.refl _, rfl, rfl, nofun⟩

theorem Counts.steps
    {state state' : State}
    {action : Action}
    (counts : Counts state)
    (created : action.Created)
    (steps : Steps state action state') :
    Counts state' := by
  rcases steps_queue steps with
    ⟨eventId, cycle, isTop, rfl, -, rfl⟩ | ⟨queue, counter, accepted, -⟩
  · obtain rfl : eventId = 0 := created
    exact counts.accept cycle isTop
  · exact counts.subset counter accepted fun _ queued => queue.subset queued

/-- An action keeps the ids apart exactly when it is fresh. -/
theorem IdsApart.steps_iff
    {state state' : State}
    {action : Action}
    (counts : Counts state)
    (created : action.Created)
    (apart : IdsApart state)
    (steps : Steps state action state') :
    IdsApart state' ↔ Fresh state action := by
  rcases steps_queue steps with
    ⟨eventId, cycle, isTop, rfl, running, rfl⟩ | ⟨queue, -, -, notAdded⟩
  · obtain rfl : eventId = 0 := created
    rw [accept_apart_iff counts apart cycle isTop]
    simp [Fresh, running]
  · apply iff_of_true (apart.sublist queue)
    cases action with
    | addEvent eventId cycle isTop =>
        exact fun running =>
          absurd running (notAdded ⟨eventId, cycle, isTop, rfl⟩)
    | _ => trivial

theorem counts_start : Counts machine.start :=
  ⟨rfl, nofun, nofun⟩

theorem idsApart_start : IdsApart machine.start :=
  ⟨List.nodup_nil, nofun⟩

/-- In every state of a run the ids of the queued tasks are pairwise distinct
and not 0, if and only if no task is added while one is queued that was added
a multiple of `idCount` tasks before. -/
theorem idsApart_iff_fresh
    (actions : List Action)
    (created : ∀ action ∈ actions, action.Created) :
    machine.Always IdsApart machine.start actions ↔
      machine.Meets Fresh machine.start actions := by
  have keeps : ∀ state action state', Counts state → action.Created →
      machine.step state action = some state' → Counts state' :=
    fun _ _ _ counts created step => counts.steps created (steps_of_step step)
  have leads : ∀ state action state', Counts state → action.Created →
      IdsApart state → machine.step state action = some state' →
      (IdsApart state' ↔ Fresh state action) :=
    fun _ _ _ counts created apart step =>
      apart.steps_iff counts created (steps_of_step step)
  exact Machine.always_iff_meets keeps leads counts_start idsApart_start created

/-- Three tasks are added, and one of them is stopped. -/
theorem idsApart_iff_fresh_of_three :
    machine.Always IdsApart machine.start [.addEvent 0 20 true,
        .addEvent 0 30 false, .stopEvent 1, .addEvent 0 20 false] ↔
      machine.Meets Fresh machine.start [.addEvent 0 20 true,
        .addEvent 0 30 false, .stopEvent 1, .addEvent 0 20 false] :=
  idsApart_iff_fresh _ (by simp [Action.Created])

/-! ## A whole round of the counter -/

/-- The time of a task with the longest delay, from the start. -/
def farCycle : Nat := createCycle 0 0xFFFFFFFF

/-- Tasks with the longest delay are added, all at the start. -/
def addMany (count : Nat) : List Action :=
  .addEvent 0 farCycle true ::
    List.replicate count (.addEvent 0 farCycle false)

/-- The tasks with the longest delay fill the queue. -/
structure Filled (state : State) (count : Nat) : Prop where
  /-- The scheduler is running. -/
  running : state.threadState = .running
  /-- So many tasks were added. -/
  accepted : state.accepted.length = count
  /-- They are all in the queue. -/
  queue : state.eventList = state.accepted
  /-- They are numbered. -/
  numbered : state.accepted.map Event.number = List.range count
  /-- All have the longest delay. -/
  far : ∀ event ∈ state.eventList, event.cycle = farCycle
  /-- Their ids go with their numbers. -/
  counts : Counts state

theorem Filled.accept
    {state : State}
    {count : Nat}
    (filled : Filled state count)
    (isTop : Bool) :
    Filled (state.accept 0 farCycle isTop) (count + 1) where
  running := filled.running
  accepted := by simp [State.accept, filled.accepted]
  queue := by simp [State.accept, filled.queue]
  numbered := by
    simp [State.accept, State.event, filled.numbered, filled.accepted,
      List.range_succ]
  far := by
    intro event member
    rcases List.mem_append.mp member with queued | last
    · exact filled.far event queued
    · obtain rfl := List.mem_singleton.mp last
      rfl
  counts := filled.counts.accept farCycle isTop

/-- Another task with the longest delay is not the top. -/
theorem Filled.next
    {state : State}
    {count : Nat}
    (filled : Filled state (count + 1)) :
    Filled (machine.next state (.addEvent 0 farCycle false))
      (count + 2) := by
  have isTop : ∃ top ∈ state.eventList, IsTop
      (state.eventList ++ [state.event 0 farCycle]) top := by
    have filledQueue : state.eventList ≠ [] := by
      intro empty
      have accepted := filled.accepted
      rw [← filled.queue, empty] at accepted
      simp at accepted
    obtain ⟨top, queued⟩ := List.exists_mem_of_ne_nil _ filledQueue
    refine ⟨top, queued, List.mem_append_left _ queued, fun other member => ?_⟩
    rw [filled.far top queued]
    rcases List.mem_append.mp member with queued | last
    · rw [filled.far other queued]
    · obtain rfl := List.mem_singleton.mp last
      exact le_refl _
  have step : machine.step state (.addEvent 0 farCycle false) =
      some (state.accept 0 farCycle false) := by
    simp [machine, Scheduler.step, filled.running, isTop]
  rw [Machine.next_of_step machine step]
  exact filled.accept false

theorem filled_addMany (count : Nat) :
    Filled (machine.after (addMany count)) (count + 1) := by
  unfold addMany
  induction count with
  | zero =>
      exact ⟨rfl, rfl, rfl, rfl, by decide, counts_start.accept farCycle true⟩
  | succ count inductionHypothesis =>
      rw [List.replicate_succ', ← List.cons_append, Machine.after_append]
      exact inductionHypothesis.next

/-- The id of the first task has come back while the task is still queued. -/
theorem idsApart_not_after_round :
    ¬ IdsApart (machine.after (addMany idCount)) := by
  have filled := filled_addMany idCount
  have numbered (number : Nat) (bound : number < idCount + 1) :
      ∃ event ∈ (machine.after (addMany idCount)).eventList,
        event.number = number := by
    apply List.mem_map.mp
    rw [filled.queue, filled.numbered]
    exact List.mem_range.mpr bound
  obtain ⟨first, firstQueued, firstNumber⟩ := numbered 0 (Nat.succ_pos _)
  obtain ⟨last, lastQueued, lastNumber⟩ := numbered idCount (Nat.lt_succ_self _)
  have firstId := filled.counts.eventId first firstQueued
  have lastId := filled.counts.eventId last lastQueued
  rw [firstNumber, Nat.zero_mod] at firstId
  rw [lastNumber, Nat.mod_self] at lastId
  rintro ⟨distinct, -⟩
  have same : first = last :=
    List.inj_on_of_nodup_map distinct firstQueued lastQueued
      (UInt32.toNat_inj.mp (firstId.trans lastId.symm))
  rw [same, lastNumber] at firstNumber
  exact absurd firstNumber (by decide)

end Scheduler
end Common
end Lotospp
