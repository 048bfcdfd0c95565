import Lotospp.Common.Scheduler
import Mathlib.Data.List.Nodup
import Mathlib.Data.Nat.ModEq

/-!
# Events of the running scheduler

`stopEvent` takes the id of a task out of `m_eventIds` and leaves the task in
the queue.  As long as no two queued tasks carry the same id, the ids of the
set are those of the queued tasks that have not been stopped.
-/

namespace Lotospp
namespace Common
namespace Scheduler

open Effect

/-- No two queued tasks carry the same id. -/
def DistinctIds (state : State) : Prop :=
  (state.eventList.map Event.eventId).Nodup

instance (state : State) : Decidable (DistinctIds state) :=
  inferInstanceAs (Decidable (List.Nodup _))

/-- The ids go round, leaving 0 out. -/
theorem nextEventId_toNat (state : State) :
    state.nextEventId.toNat =
      state.lastEventId.toNat % (2 ^ 32 - 1) + 1 := by
  have bound := state.lastEventId.toNat_lt
  unfold State.nextEventId
  split_ifs with wraps
  · have last : 2 ^ 32 - 1 ≤ state.lastEventId.toNat :=
      UInt32.le_iff_toNat_le.mp wraps
    have same : state.lastEventId.toNat = 2 ^ 32 - 1 := by omega
    simp [same]
  · have last : state.lastEventId.toNat < 2 ^ 32 - 1 := by
      simpa [UInt32.le_iff_toNat_le] using wraps
    rw [UInt32.toNat_add]
    simp only [UInt32.toNat_one]
    omega

theorem nextEventId_ne_zero (state : State) : state.nextEventId ≠ 0 := by
  intro zero
  have number := nextEventId_toNat state
  rw [zero] at number
  simp at number

theorem event_eventId_ne_zero
    (state : State) (eventId : UInt32) (cycle : Nat) :
    (state.event eventId cycle).eventId ≠ 0 := by
  unfold State.event
  split_ifs with zero
  · exact nextEventId_ne_zero state
  · exact zero

/-! ## The invariant -/

/-- How the set of ids, the queue and the tasks taken from it agree. -/
structure Agrees (state : State) : Prop where
  /-- Every accepted task was taken or is in the queue. -/
  whole : (state.taken ++ state.eventList).Perm state.accepted
  /-- The accepted tasks are numbered. -/
  numbered : state.accepted.map Event.number =
    List.range state.accepted.length
  /-- The id of a queued task is in the set unless the task was stopped. -/
  active : ∀ event ∈ state.eventList,
    event.eventId ∈ state.eventIds ↔ event ∉ state.stopped
  /-- The ids of the set are those of queued tasks. -/
  subset : ∀ eventId ∈ state.eventIds,
    ∃ event ∈ state.eventList, event.eventId = eventId
  /-- The tasks that were taken are passed on or deleted. -/
  handled : (state.passed ++ state.deleted ++ state.worker.hand).Perm
    state.taken
  /-- The thread knows whether its task was stopped. -/
  known : ∀ event runTask, state.worker = .taken event runTask →
    (runTask = true ↔ event ∉ state.stopped)
  /-- A task that is passed on was not stopped. -/
  passes : ∀ event ∈ state.passed, event ∉ state.stopped
  /-- A task that is deleted was stopped. -/
  deletes : ∀ event ∈ state.deleted, event ∈ state.stopped
  /-- A task that was stopped was accepted before. -/
  stops : ∀ event ∈ state.stopped, event ∈ state.accepted
  /-- A queued task has an id. -/
  nonzero : ∀ event ∈ state.eventList, event.eventId ≠ 0

namespace Agrees

variable {state : State}

/-- No task is accepted twice. -/
theorem accepted_nodup (agrees : Agrees state) : state.accepted.Nodup := by
  apply List.Nodup.of_map Event.number
  rw [agrees.numbered]
  exact List.nodup_range

/-- No task is taken twice, or taken and still in the queue. -/
theorem taken_nodup (agrees : Agrees state) :
    (state.taken ++ state.eventList).Nodup :=
  agrees.whole.nodup_iff.mpr agrees.accepted_nodup

theorem taken_not_queued
    (agrees : Agrees state)
    {event : Event}
    (taken : event ∈ state.taken) :
    event ∉ state.eventList :=
  fun queued => (List.nodup_append.mp agrees.taken_nodup).2.2
    event taken event queued rfl

theorem handled_taken
    (agrees : Agrees state)
    {event : Event}
    (handled : event ∈ state.passed ++ state.deleted ++ state.worker.hand) :
    event ∈ state.taken :=
  agrees.handled.subset handled

/-- No accepted task is the next one. -/
theorem event_not_accepted
    (agrees : Agrees state)
    (eventId : UInt32)
    (cycle : Nat) :
    state.event eventId cycle ∉ state.accepted := by
  intro member
  have number := List.mem_map_of_mem (f := Event.number) member
  rw [agrees.numbered] at number
  simp [State.event] at number

theorem accept
    (agrees : Agrees state)
    {eventId : UInt32}
    {cycle : Nat}
    {isTop : Bool}
    (distinct : DistinctIds (state.accept eventId cycle isTop)) :
    Agrees (state.accept eventId cycle isTop) := by
  have notStopped : state.event eventId cycle ∉ state.stopped :=
    fun stopped => agrees.event_not_accepted eventId cycle
      (agrees.stops _ stopped)
  have different : ∀ event ∈ state.eventList,
      event.eventId ≠ (state.event eventId cycle).eventId := by
    intro event queued same
    simp only [DistinctIds, State.accept, List.map_append,
      List.nodup_append, List.map_cons, List.map_nil] at distinct
    exact distinct.2.2 event.eventId (List.mem_map_of_mem queued)
      _ (List.mem_singleton_self _) same
  exact {
    whole := by
      simpa [State.accept] using
        agrees.whole.append_right [state.event eventId cycle]
    numbered := by
      have number : (state.event eventId cycle).number =
          state.accepted.length := rfl
      simp [State.accept, agrees.numbered, List.range_succ, number]
    active := by
      intro event member
      rcases List.mem_append.mp member with queued | last
      · simpa [State.accept, different event queued] using
          agrees.active event queued
      · obtain rfl := List.mem_singleton.mp last
        simpa [State.accept] using notStopped
    subset := by
      intro id member
      rcases Finset.mem_insert.mp member with rfl | earlier
      · exact ⟨state.event eventId cycle, by simp [State.accept], rfl⟩
      · obtain ⟨event, queued, same⟩ := agrees.subset id earlier
        exact ⟨event, by simp [State.accept, queued], same⟩
    handled := agrees.handled
    known := agrees.known
    passes := agrees.passes
    deletes := agrees.deletes
    stops := fun event stopped =>
      List.mem_append_left _ (agrees.stops event stopped)
    nonzero := by
      intro event member
      rcases List.mem_append.mp member with queued | last
      · exact agrees.nonzero event queued
      · obtain rfl := List.mem_singleton.mp last
        exact event_eventId_ne_zero state eventId cycle }

theorem erase
    (agrees : Agrees state)
    (eventId : UInt32) :
    Agrees (state.erase eventId) := by
  -- What is stopped now is in the queue, and so was not taken.
  have unchanged : ∀ event ∈ state.taken,
      (event ∈ (state.erase eventId).stopped ↔ event ∈ state.stopped) := by
    intro event taken
    simp [State.erase, agrees.taken_not_queued taken]
  exact {
    whole := agrees.whole
    numbered := agrees.numbered
    active := by
      intro event queued
      have active := agrees.active event queued
      have queued : event ∈ state.eventList := queued
      simp [State.erase, queued, active]
      tauto
    subset := by
      intro id member
      exact agrees.subset id (Finset.mem_of_mem_erase member)
    handled := agrees.handled
    known := by
      intro event runTask worker
      rw [unchanged event (agrees.handled_taken ?_)]
      · exact agrees.known event runTask worker
      · have worker : state.worker = .taken event runTask := worker
        simp [worker, Worker.hand]
    passes := by
      intro event passed
      rw [unchanged event (agrees.handled_taken (by simp_all [State.erase]))]
      exact agrees.passes event passed
    deletes := by
      intro event deleted
      exact List.mem_append_left _ (agrees.deletes event deleted)
    stops := by
      intro event member
      rcases List.mem_append.mp member with earlier | queued
      · exact agrees.stops event earlier
      · exact agrees.whole.subset
          (List.mem_append_right _ (List.mem_of_mem_filter queued))
    nonzero := agrees.nonzero }

theorem take
    (agrees : Agrees state)
    (distinct : DistinctIds state)
    (free : state.worker.hand = [])
    {top : Event}
    (queued : top ∈ state.eventList) :
    Agrees (state.take top) := by
  have nodup : state.eventList.Nodup :=
    (List.nodup_append.mp agrees.taken_nodup).2.1
  have different : ∀ event ∈ state.eventList, event ≠ top →
      event.eventId ≠ top.eventId := by
    intro event member notTop same
    exact notTop (List.inj_on_of_nodup_map distinct member queued same)
  exact {
    whole := by
      have split := (List.perm_cons_erase queued).append_left state.taken
      refine List.Perm.trans ?_ (split.symm.trans agrees.whole)
      simp [State.take]
    numbered := agrees.numbered
    active := by
      intro event member
      obtain ⟨notTop, queued⟩ := (nodup.mem_erase_iff).mp member
      have active := agrees.active event queued
      simpa [State.take, different event queued notTop] using active
    subset := by
      intro id member
      obtain ⟨notTop, member⟩ := Finset.mem_erase.mp member
      obtain ⟨event, queued, rfl⟩ := agrees.subset id member
      refine ⟨event, (nodup.mem_erase_iff).mpr ⟨?_, queued⟩, rfl⟩
      rintro rfl
      exact notTop rfl
    handled := by
      have handled := agrees.handled
      rw [free, List.append_nil] at handled
      exact handled.append_right [top]
    known := by
      rintro event runTask ⟨⟩
      have active := agrees.active top queued
      simpa [State.take] using active
    passes := agrees.passes
    deletes := agrees.deletes
    stops := agrees.stops
    nonzero := fun event member =>
      agrees.nonzero event (List.mem_of_mem_erase member) }

/-- The thread moves without a task. -/
theorem move
    (agrees : Agrees state)
    (free : state.worker.hand = [])
    (worker : Worker)
    (notTaken : worker.hand = []) :
    Agrees { state with worker := worker } :=
  { agrees with
    handled := by simpa [free, notTaken] using agrees.handled
    known := by
      rintro event runTask rfl
      simp [Worker.hand] at notTaken }

end Agrees

/-- While the scheduler is running, the set and the queue agree. -/
def Tracks (state : State) : Prop :=
  state.threadState = .running → Agrees state

namespace Tracks

variable {state state' : State}

theorem move
    (tracks : Tracks state)
    (free : state.worker.hand = [])
    (worker : Worker)
    (notTaken : worker.hand = []) :
    Tracks { state with worker := worker } :=
  fun running => (tracks running).move free worker notTaken

/-- Every action keeps the set and the queue in agreement, as long as the ids
of the queue are distinct. -/
theorem steps
    {action : Action}
    (tracks : Tracks state)
    (distinct : DistinctIds state)
    (distinct' : DistinctIds state')
    (steps : Steps state action state') :
    Tracks state' := by
  cases steps with
  | accepts running covered =>
      exact fun _ => (tracks running).accept distinct'
  | rejects => exact tracks
  | wakes pending waiting =>
      have moved := tracks.move (by simp [waiting, Worker.hand])
        (.woken false) rfl
      exact fun running => { moved running with }
  | notifies => exact fun running => { tracks running with }
  | stops => exact fun running => (tracks running).erase _
  | misses => exact tracks
  | enters head => exact tracks.move (by simp [head, Worker.hand]) _ rfl
  | leaves head => exact tracks.move (by simp [head, Worker.hand]) _ rfl
  | waits entering =>
      exact tracks.move (by simp [entering, Worker.hand]) _ rfl
  | stirs waiting => exact tracks.move (by simp [waiting, Worker.hand]) _ rfl
  | timesOut waiting =>
      exact tracks.move (by simp [waiting, Worker.hand]) _ rfl
  | takes woken notTerminated isTop =>
      exact fun running => (tracks running).take distinct
        (by simp [woken, Worker.hand]) isTop.1
  | passes woken => exact tracks.move (by simp [woken, Worker.hand]) _ rfl
  | @runs event taken =>
      intro running
      have agrees := tracks running
      refine { agrees with handled := ?_, known := nofun, passes := ?_ }
      · have handled := agrees.handled
        rw [taken] at handled
        refine List.Perm.trans ?_ handled
        have swap : List.Perm ([event] ++ state.deleted)
            (state.deleted ++ [event]) := List.perm_append_comm
        simpa [Worker.hand] using swap.append_left state.passed
      · intro other member
        rcases List.mem_append.mp member with earlier | last
        · exact agrees.passes other earlier
        · obtain rfl := List.mem_singleton.mp last
          exact (agrees.known other true taken).mp rfl
  | @deletes event taken =>
      intro running
      have agrees := tracks running
      refine { agrees with handled := ?_, known := nofun, deletes := ?_ }
      · have handled := agrees.handled
        rw [taken] at handled
        simpa [Worker.hand] using handled
      · intro other member
        rcases List.mem_append.mp member with earlier | last
        · exact agrees.deletes other earlier
        · obtain rfl := List.mem_singleton.mp last
          by_contra notStopped
          have runs := (agrees.known other false taken).mpr notStopped
          simp at runs
  | closes => exact nofun
  | shuts => exact nofun
  | tick => exact fun running => { tracks running with }

end Tracks

/-- What becomes of the events of a scheduler. -/
structure Handles (state : State) : Prop where
  /-- The events that were accepted are those that have left the queue and
  those that are in it. -/
  whole : (state.taken ++ state.eventList).Perm state.accepted
  /-- The ids of the set are those of queued tasks. -/
  subset : ∀ eventId ∈ state.eventIds,
    ∃ event ∈ state.eventList, event.eventId = eventId
  /-- An event that was stopped is not passed to the dispatcher. -/
  stopped : ∀ event ∈ state.stopped, event ∉ state.passed
  /-- No event is passed to the dispatcher twice. -/
  once : state.passed.Nodup
  /-- An event that is passed to the dispatcher has left the queue. -/
  left : ∀ event ∈ state.passed,
    event ∈ state.taken ∧ event ∉ state.eventList
  /-- An event that has left the queue without being stopped was passed to the
  dispatcher, unless the thread is about to pass it. -/
  passed : ∀ event ∈ state.taken, event ∉ state.stopped →
    event ∈ state.passed ∨ state.worker = .taken event true
  /-- `stopEvent` returns `false` for the ids that are not queued, and for
  those of events that were stopped. -/
  stopReturns : ∀ eventId, state.stopReturns eventId = false ↔
    ∀ event ∈ state.eventList, event.eventId = eventId →
      event ∈ state.stopped

theorem Agrees.handles {state : State} (agrees : Agrees state) :
    Handles state where
  whole := agrees.whole
  subset := agrees.subset
  stopped event stopped passed := agrees.passes event passed stopped
  once := by
    have taken := (List.nodup_append.mp agrees.taken_nodup).1
    have handled := agrees.handled.nodup_iff.mpr taken
    rw [List.append_assoc] at handled
    exact (List.nodup_append.mp handled).1
  left event passed := by
    have taken := agrees.handled_taken
      (show event ∈ _ by simp [passed])
    exact ⟨taken, agrees.taken_not_queued taken⟩
  passed event taken notStopped := by
    have handled := agrees.handled.symm.subset taken
    rw [List.mem_append, List.mem_append] at handled
    rcases handled with (passed | deleted) | inHand
    · exact .inl passed
    · exact absurd (agrees.deletes event deleted) notStopped
    · right
      cases worker : state.worker with
      | taken other runTask =>
          rw [worker] at inHand
          obtain rfl := List.mem_singleton.mp inHand
          rw [(agrees.known event runTask worker).mpr notStopped]
      | _ => simp [worker, Worker.hand] at inHand
  stopReturns eventId := by
    have returns : state.stopReturns eventId = false ↔
        ¬ (eventId ≠ 0 ∧ eventId ∈ state.eventIds) := by
      simp [State.stopReturns]
    rw [returns]
    constructor
    · rintro missing event queued rfl
      by_contra notStopped
      exact missing ⟨agrees.nonzero event queued,
        (agrees.active event queued).mpr notStopped⟩
    · rintro stopped ⟨-, active⟩
      obtain ⟨event, queued, rfl⟩ := agrees.subset eventId active
      exact (agrees.active event queued).mp active
        (stopped event queued rfl)

theorem tracks_start : Tracks machine.start := fun _ =>
  ⟨.refl _, rfl, nofun, nofun, .refl _, nofun, nofun, nofun, nofun, nofun⟩

/-- While the scheduler is running and no two queued tasks carry the same id,
an event that was stopped is never passed to the dispatcher, every other one
is passed to it once when it leaves the queue, and `stopEvent` returns `false`
for the ids that are not queued or were stopped. -/
theorem events_handled
    (actions : List Action)
    (distinct : machine.Always DistinctIds machine.start actions)
    (running : (machine.after actions).threadState = .running) :
    Handles (machine.after actions) :=
  (Machine.run_keeps_of_always
    (fun _ _ _ tracks first last step =>
      Tracks.steps tracks first last (steps_of_step step))
    tracks_start distinct running).handles

/-- Two events are added, one of them is stopped, and both leave the queue. -/
theorem events_handled_of_two :
    Handles (machine.after [.addEvent 0 20 true, .addEvent 0 30 false,
      .stopEvent 1, .test, .lock, .tick 30, .timeout, .relock ⟨0, 1, 20⟩,
      .dispatch, .test, .lock, .timeout, .relock ⟨1, 2, 30⟩, .stopEvent 2,
      .dispatch]) :=
  events_handled _ (by decide) (by decide)

end Scheduler
end Common
end Lotospp
