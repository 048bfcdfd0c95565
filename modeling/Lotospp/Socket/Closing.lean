import Lotospp.Socket.Invariant

/-!
# The close of a connection

A connection that a close is requested of has one task for it, and no other
connection has one.  The task ends in `CONNECTION_STATE_CLOSED` at most once,
so that the protocol and the connection are released at most once.  Whether
writes fail makes no difference to this.
-/

namespace Lotospp
namespace Socket

open Common Effect

/-! ## Invariants that do not look at the writes -/

/-- The invariant looks neither at the socket nor at the pending writes. -/
def BlindToWrites (inv : State → List Obs → Prop) : Prop :=
  ∀ state state' past,
    state'.connectionState = state.connectionState →
    state'.protocol = state.protocol → state'.running = state.running →
    state'.closeTasks = state.closeTasks → inv state past → inv state' past

/-- The functions keep the invariant on every way out. -/
abbrev Kept
    {α : Type}
    (inv : State → List Obs → Prop)
    (prog : ConnectionM α) : Prop :=
  Prog.Preserves inv (fun _ => inv) prog

/-- An invariant that does not look at the writes. -/
structure RequestInvariant (inv : State → List Obs → Prop) : Prop where
  /-- It does not look at the writes. -/
  blind : BlindToWrites inv
  /-- It survives the messages. -/
  shows : ∀ state past observation,
    observation = .written ∨ observation = .addedToAutoSend →
      inv state past → inv state (past ++ [observation])
  /-- It survives a request. -/
  requests : ∀ state past,
    state.connectionState = .open ∨ state.connectionState = .closing →
      inv state past → inv state.requested past
  /-- It survives a new protocol. -/
  makes : ∀ state past, state.connectionState = .open →
    inv state past → inv { state with protocol := true } past
  /-- It survives a task. -/
  closeTask : ∀ dispatchThrows, Kept inv (react (.closeTask dispatchThrows))
  /-- It survives the stop of the dispatcher. -/
  dispatcherStop : ∀ state past, inv state past →
    inv { state with running := false } past

section BlindToWrites

variable {inv : State → List Obs → Prop}

theorem BlindToWrites.toBlind (blind : BlindToWrites inv) : Blind inv :=
  fun state state' past same =>
    blind state state' past same.connectionState same.protocol same.running
      same.closeTasks

theorem BlindToWrites.exits
    (blind : BlindToWrites inv) : Exits inv (fun _ => inv) where
  blind := blind.toBlind
  blindExit _ := blind.toBlind
  leaves _ _ _ holds := holds
  caught _ _ holds := holds

theorem BlindToWrites.closeSocket (blind : BlindToWrites inv) :
    Kept inv Socket.closeSocket := by
  intro state past holds
  rw [run_closeSocket]
  cases state.socket with
  | «open» =>
      simp only [Run.ends_ok, List.append_nil]
      exact blind state _ past rfl rfl rfl rfl holds
  | closed => simpa using holds
  | deleted =>
      simp only [Run.ends_error, List.append_nil]
      exact blind state _ past rfl rfl rfl rfl holds

end BlindToWrites

namespace RequestInvariant

variable {inv : State → List Obs → Prop} (kept : RequestInvariant inv)

include kept

theorem closeConnection : Kept inv Socket.closeConnection := by
  intro state past holds
  rw [run_closeConnection, Run.ends_ok, List.append_nil]
  split
  · exact holds
  · refine kept.requests state past ?_ holds
    cases inState : state.connectionState <;> simp_all

/-- The socket is closed and the close is requested. -/
theorem closes :
    Kept inv (Socket.closeSocket >>= fun _ => Socket.closeConnection) :=
  Prog.Preserves.bind kept.blind.closeSocket fun _ => kept.closeConnection

theorem handleWriteError (error : ErrorCode) :
    Kept inv (Socket.handleWriteError error) := by
  refine kept.blind.exits.scopedLock (Prog.Preserves.bind ?_ fun _ =>
    kept.blind.toBlind.modify fun _ => ⟨rfl, rfl, rfl, rfl, rfl, rfl⟩)
  cases error with
  | operationAborted => exact Prog.Preserves.pure_intro ()
  | eof => exact kept.closeConnection
  | connectionReset => exact kept.closeConnection
  | connectionAborted => exact kept.closeConnection
  | other => exact kept.closeConnection

theorem pendingWrite (change : Int → Int) :
    Kept inv (Prog.modify fun state =>
      { state with pendingWrite := change state.pendingWrite } :
        ConnectionM Unit) :=
  Prog.Preserves.modify_intro fun state past =>
    kept.blind state _ past rfl rfl rfl rfl

theorem onWriteOperation (write : Write) :
    Kept inv (Socket.onWriteOperation write) := by
  have exits := kept.blind.exits
  refine Prog.Preserves.bind exits.blind.lock fun _ =>
    Prog.Preserves.bind (Prog.Preserves.ite (exits.raise .systemError) ?_)
      fun _ => Prog.Preserves.bind (keeps_ifError kept.handleWriteError)
        fun _ => Prog.Preserves.get_bind fun _ => Prog.Preserves.ite ?_ ?_
  · exact Prog.Preserves.pure_intro ()
  · exact Prog.Preserves.bind kept.blind.closeSocket fun _ =>
      Prog.Preserves.bind kept.closeConnection fun _ => exits.blind.unlock
  · exact Prog.Preserves.bind (kept.pendingWrite (· - 1)) fun _ =>
      exits.blind.unlock

theorem emits
    {observation : Obs}
    (message : observation = .written ∨ observation = .addedToAutoSend) :
    Kept inv (Prog.emit observation) :=
  Prog.Preserves.emit_intro fun state past =>
    kept.shows state past observation message

theorem internalSend (write : Write) :
    Kept inv (Socket.internalSend write) := by
  have exits := kept.blind.exits
  have logged : Kept inv (Socket.logError (pure ())) :=
    exits.blind.logError (Prog.Preserves.pure_intro ())
  refine exits.catchSystemError ?_ logged
  refine Prog.Preserves.bind (kept.pendingWrite (· + 1)) fun _ =>
    Prog.Preserves.bind (Prog.Preserves.ite (exits.raise .systemError) ?_)
      fun _ => Prog.Preserves.bind exits.getHandle fun _ =>
        Prog.Preserves.bind (kept.emits (.inl rfl)) fun _ =>
          Prog.Preserves.bind (kept.onWriteOperation write) fun _ =>
            Prog.Preserves.ite logged (Prog.Preserves.pure_intro ())
  exact Prog.Preserves.pure_intro ()

theorem send (write : Write) : Kept inv (Socket.send write) := by
  have exits := kept.blind.exits
  refine Prog.Preserves.bind exits.blind.lock fun _ =>
    Prog.Preserves.get_bind fun _ => Prog.Preserves.ite ?_ ?_
  · exact Prog.Preserves.bind exits.blind.unlock fun _ =>
      Prog.Preserves.pure_intro false
  · exact Prog.Preserves.bind
      (Prog.Preserves.ite (kept.internalSend write) (kept.emits (.inr rfl)))
      fun _ => Prog.Preserves.bind exits.blind.unlock fun _ =>
        Prog.Preserves.pure_intro true

theorem onStopOperation (cancelThrows : Bool) :
    Kept inv (Socket.onStopOperation cancelThrows) := by
  have exits := kept.blind.exits
  refine Prog.Preserves.bind exits.blind.lock fun _ =>
    Prog.Preserves.bind (Prog.Preserves.ite (exits.raise .systemError) ?_)
      fun _ => Prog.Preserves.bind exits.isOpen fun _ =>
        Prog.Preserves.bind (Prog.Preserves.modify_intro fun state past => ?_)
          fun _ => exits.blind.unlock
  · exact Prog.Preserves.pure_intro ()
  · exact kept.blind state _ past rfl rfl rfl rfl

/-- It is an invariant whatever messages are sent. -/
theorem toConnectionInvariant :
    ConnectionInvariant (fun _ => True) inv (fun _ => inv) where
  toExits := kept.blind.exits
  closeConnection := kept.closeConnection
  send write _ := kept.send write
  onReadTimeout := kept.blind.exits.scopedLock
    (Prog.Preserves.get_bind fun _ =>
      Prog.Preserves.ite kept.closes (Prog.Preserves.pure_intro ()))
  onWriteTimeout := kept.blind.exits.scopedLock
    (Prog.Preserves.get_bind fun _ =>
      Prog.Preserves.ite kept.closes (Prog.Preserves.pure_intro ()))
  makes := kept.makes
  closeTask := kept.closeTask
  onStopOperation := kept.onStopOperation
  dispatcherStop := kept.dispatcherStop

/-- It holds after a sequence of events, also where the server went down. -/
theorem foldl_keeps
    {world : World}
    (events : List (Nat × Event))
    (holds : inv world.state world.trace) :
    inv (events.foldl World.step world).state
      (events.foldl World.step world).trace := by
  have start : World.Holds inv (fun _ => inv) world := by
    unfold World.Holds
    split <;> exact holds
  have permitted : ∀ event ∈ events, event.2.Allowed fun _ => True :=
    fun event _ => event.2.allowed_true
  have reached :=
    World.foldl_keeps kept.toConnectionInvariant permitted start
  unfold World.Holds at reached
  split at reached <;> exact reached

/-- It holds after every run. -/
theorem after_keeps
    (start : inv {} [])
    (protocol : Bool)
    (delivery : Delivery)
    (events : List (Nat × Event)) :
    inv (World.after protocol delivery events).state
      (World.after protocol delivery events).trace := by
  have allows : Allows (fun _ => True) delivery.reactions :=
    fun _ _ => trivial
  have permitted : ∀ event ∈ events, event.2.Allowed fun _ => True :=
    fun event _ => event.2.allowed_true
  have reached := World.after_keeps kept.toConnectionInvariant start protocol
    allows permitted
  unfold World.Holds at reached
  split at reached <;> exact reached

end RequestInvariant

/-! ## Requests and tasks -/

/-- What holds of a connection and of what it has shown. -/
structure Closing (state : State) (past : List Obs) : Prop where
  /-- There is at most one task. -/
  single : state.closeTasks ≤ 1
  /-- A task is there because of a request. -/
  requested : 0 < state.closeTasks → state.connectionState = .requestClose
  /-- A request has added a task to a running dispatcher. -/
  queued : state.running → state.connectionState = .requestClose →
    state.closeTasks = 1
  /-- No task has found a wrong state. -/
  rightState : Obs.wrongState ∉ past
  /-- The protocol has been released at most once. -/
  released : past.count .protocolReleased ≤ 1
  /-- An open connection, or one with a protocol, has not released it. -/
  owned : state.connectionState = .open ∨ state.protocol →
    past.count .protocolReleased = 0
  /-- The release has been started at most once. -/
  started : past.count .releaseStarted ≤ 1
  /-- The release of a connection that is not closed has not been started. -/
  unstarted : state.connectionState ≠ .closed →
    past.count .releaseStarted = 0

namespace Closing

variable {state state' : State} {past : List Obs}

theorem start : Closing {} [] := by
  constructor <;> simp

theorem blind : BlindToWrites Closing := by
  rintro state state' past stateSame protocol running closeTasks ⟨single,
    requested, queued, right, released, owned, started, unstarted⟩
  constructor
  · rwa [closeTasks]
  · rwa [closeTasks, stateSame]
  · rwa [closeTasks, stateSame, running]
  · exact right
  · exact released
  · rwa [stateSame, protocol]
  · exact started
  · rwa [stateSame]

/-- Messages count for nothing. -/
theorem shows
    {observation : Obs}
    (message : observation = .written ∨ observation = .addedToAutoSend)
    (closing : Closing state past) :
    Closing state (past ++ [observation]) := by
  obtain ⟨single, requested, queued, right, released, owned, started,
    unstarted⟩ := closing
  have counts : (past ++ [observation]).count .protocolReleased =
        past.count .protocolReleased ∧
      (past ++ [observation]).count .releaseStarted =
        past.count .releaseStarted ∧
      Obs.wrongState ∉ past ++ [observation] := by
    rcases message with rfl | rfl <;> simp [right]
  refine ⟨single, requested, queued, counts.2.2, ?_, ?_, ?_, ?_⟩
  · rwa [counts.1]
  · rwa [counts.1]
  · rwa [counts.2.1]
  · rwa [counts.2.1]

/-- A request adds the only task. -/
theorem requests
    (active : state.connectionState = .open ∨
      state.connectionState = .closing)
    (closing : Closing state past) : Closing state.requested past := by
  have noTask : state.closeTasks = 0 := by
    by_contra task
    have request := closing.requested (Nat.pos_of_ne_zero task)
    rw [request] at active
    simp at active
  have unstarted : past.count .releaseStarted = 0 := by
    refine closing.unstarted fun closed => ?_
    rw [closed] at active
    simp at active
  unfold State.requested
  split
  · constructor <;>
      simp_all [closing.rightState, closing.released, closing.owned]
  · constructor <;>
      simp_all [closing.rightState, closing.released, closing.owned]

/-- A protocol is set before any release. -/
theorem makes
    (isOpen : state.connectionState = .open)
    (closing : Closing state past) :
    Closing { state with protocol := true } past := by
  obtain ⟨single, requested, queued, right, released, owned, started,
    unstarted⟩ := closing
  exact ⟨single, requested, queued, right, released,
    fun _ => owned (.inl isOpen), started, unstarted⟩

theorem dispatcherStop
    (closing : Closing state past) :
    Closing { state with running := false } past := by
  obtain ⟨single, requested, queued, right, released, owned, started,
    unstarted⟩ := closing
  exact ⟨single, requested, fun running => absurd running (by simp), right,
    released, owned, started, unstarted⟩

end Closing

/-- What holds while the last task runs: `inState` is the state it has
reached and `starts` counts the releases it has started. -/
structure TaskRuns
    (inState : ConnectionState)
    (starts : Nat)
    (state : State)
    (past : List Obs) : Prop where
  connectionState : state.connectionState = inState
  closeTasks : state.closeTasks = 0
  rightState : Obs.wrongState ∉ past
  released : past.count .protocolReleased ≤ 1
  owned : state.protocol → past.count .protocolReleased = 0
  started : past.count .releaseStarted = starts

namespace TaskRuns

variable {inState : ConnectionState} {starts : Nat}
variable {state : State} {past : List Obs}

theorem blind : BlindToWrites (TaskRuns inState starts) := by
  rintro state state' past stateSame protocol - closeTasks ⟨reached, tasks,
    right, released, owned, started⟩
  exact ⟨stateSame.trans reached, closeTasks.trans tasks, right, released,
    protocol ▸ owned, started⟩

/-- A task leaves a state that is not requested. -/
theorem closing
    (reached : inState = .closing ∧ starts = 0 ∨
      inState = .closed ∧ starts = 1)
    (runs : TaskRuns inState starts state past) : Closing state past := by
  obtain ⟨inside, tasks, right, released, owned, started⟩ := runs
  constructor
  · omega
  · omega
  · intro _ requested
    rcases reached with ⟨rfl, -⟩ | ⟨rfl, -⟩ <;> simp [inside] at requested
  · exact right
  · exact released
  · rintro (isOpen | protocol)
    · rcases reached with ⟨rfl, -⟩ | ⟨rfl, -⟩ <;> simp [inside] at isOpen
    · exact owned protocol
  · omega
  · intro notClosed
    rcases reached with ⟨rfl, rfl⟩ | ⟨rfl, -⟩
    · exact started
    · exact absurd inside notClosed

/-- The protocol is released while it is there. -/
theorem releases
    (runs : TaskRuns inState starts state past)
    (protocol : state.protocol) :
    TaskRuns inState starts { state with protocol := false }
      (past ++ [.protocolReleased]) := by
  obtain ⟨inside, tasks, right, released, owned, started⟩ := runs
  have none := owned protocol
  constructor <;> simp_all

/-- The state is set. -/
theorem moves
    (runs : TaskRuns inState starts state past)
    (next : ConnectionState) :
    TaskRuns next starts { state with connectionState := next } past :=
  ⟨rfl, runs.closeTasks, runs.rightState, runs.released, runs.owned,
    runs.started⟩

/-- The release of the connection is started. -/
theorem startsRelease
    (runs : TaskRuns inState starts state past) :
    TaskRuns inState (starts + 1) state (past ++ [.releaseStarted]) := by
  obtain ⟨inside, tasks, right, released, owned, started⟩ := runs
  constructor <;> simp_all

end TaskRuns

/-- The socket is closed and the release is started. -/
theorem finishes (dispatchThrows : Bool) :
    Prog.Spec (TaskRuns .closing 0)
      (do
        closeSocket
        Prog.emit .releaseStarted
        releaseConnection dispatchThrows
        Prog.modify fun state => { state with connectionState := .closed })
      (fun _ => Closing) (fun _ => Closing) := by
  have closed : Prog.Spec (TaskRuns .closing 0) closeSocket
      (fun _ => TaskRuns .closing 0) (fun _ => Closing) := by
    intro state past runs
    exact (TaskRuns.blind.closeSocket state past runs).mono
      (fun _ _ _ runs => runs) fun _ _ _ runs => runs.closing (.inl ⟨rfl, rfl⟩)
  refine Prog.Spec.bind closed fun _ =>
    Prog.Spec.bind (Prog.Spec.emit_intro fun _ _ runs => runs.startsRelease)
      fun _ => Prog.Spec.bind
        (TaskRuns.blind.toBlind.releaseConnection dispatchThrows)
        fun _ => Prog.Spec.modify_intro fun _ _ runs => ?_
  exact (runs.moves .closed).closing (.inr ⟨rfl, rfl⟩)

/-- The only task finds the state that it expects. -/
theorem closeConnectionTask_closing (dispatchThrows : Bool) :
    Prog.Spec (TaskRuns .requestClose 0) (closeConnectionTask dispatchThrows)
      (fun _ => Closing) (fun _ => Closing) := by
  have blind : Blind Closing := Closing.blind.toBlind
  refine Prog.Spec.bind TaskRuns.blind.toBlind.lock fun _ =>
    Prog.Spec.get_bind fun state => Prog.Spec.ite (fun wrong => ?_) fun _ => ?_
  · rintro current past ⟨rfl, runs⟩
    exact absurd runs.connectionState wrong
  have released : Prog.Spec
      (fun current past => current = state ∧
        TaskRuns .requestClose 0 state past)
      (Prog.when state.protocol do
        Prog.emit .protocolReleased
        Prog.modify fun state => { state with protocol := false })
      (fun _ => TaskRuns .requestClose 0) (fun _ : Throw => Closing) := by
    refine Prog.Spec.ite (fun protocol => ?_) fun _ => ?_
    · rintro current past ⟨rfl, runs⟩
      simpa using runs.releases protocol
    · exact Prog.Spec.pure_intro fun _ _ ⟨same, runs⟩ => same ▸ runs
  refine Prog.Spec.bind released fun _ =>
    Prog.Spec.bind
      (Prog.Spec.modify_intro fun _ _ runs => runs.moves .closing) fun _ =>
        Prog.Spec.bind (Prog.Spec.ite (fun _ => finishes dispatchThrows)
          fun _ => ?_) fun _ => blind.unlock
  exact Prog.Spec.pure_intro fun _ _ runs => runs.closing (.inl ⟨rfl, rfl⟩)

/-- The invariant holds over every run. -/
theorem closing_invariant : RequestInvariant Closing where
  blind := Closing.blind
  shows _ _ _ := Closing.shows
  requests _ _ := Closing.requests
  makes _ _ := Closing.makes
  dispatcherStop _ _ := Closing.dispatcherStop
  closeTask dispatchThrows := by
    refine Prog.Spec.get_bind fun state => Prog.Spec.ite (fun task => ?_)
      fun _ => Prog.Spec.pure_intro fun _ _ ⟨same, holds⟩ => same ▸ holds
    refine Prog.Spec.bind (Prog.Spec.modify_intro ?_) fun _ =>
      closeConnectionTask_closing dispatchThrows
    rintro current past ⟨rfl, holds⟩
    have requested := holds.requested task
    have single := holds.single
    refine ⟨requested, by simp only; omega, holds.rightState, holds.released,
      fun protocol => holds.owned (.inr protocol), holds.unstarted ?_⟩
    rw [requested]
    decide

/-- A closed connection stays closed. -/
theorem closed_invariant :
    RequestInvariant fun state _ => state.connectionState = .closed where
  blind _ _ _ same _ _ _ closed := same.trans closed
  shows _ _ _ _ closed := closed
  requests _ _ active closed := by
    rw [closed] at active
    simp at active
  makes _ _ _ closed := closed
  dispatcherStop _ _ closed := closed
  closeTask dispatchThrows := by
    refine Prog.Preserves.get_bind fun _ => Prog.Preserves.ite ?_
      (Prog.Preserves.pure_intro ())
    have blind : Blind fun state _ => state.connectionState = .closed :=
      fun _ _ _ same closed => same.connectionState.trans closed
    refine Prog.Preserves.bind
      (Prog.Preserves.modify_intro fun _ _ closed => closed)
      fun _ => Prog.Preserves.bind blind.lock fun _ =>
        Prog.Spec.get_bind fun state => Prog.Spec.ite (fun _ => ?_)
          fun requested => ?_
    · exact Prog.Spec.bind
        (Prog.Spec.emit_intro fun _ _ ⟨same, closed⟩ => same ▸ closed)
        fun _ => blind.unlock
    · rintro current past ⟨rfl, closed⟩
      rw [closed] at requested
      simp at requested

/-- What holds of every connection: there is one task while a close is
requested and none otherwise, no task finds a wrong state, a closed connection
stays closed, and the releases happen at most once. -/
structure ClosesOnce (world : World) : Prop where
  /-- The tasks of a running dispatcher. -/
  tasks : world.state.running → world.state.closeTasks =
    if world.state.connectionState = .requestClose then 1 else 0
  /-- The error branch is not reached. -/
  rightState : Obs.wrongState ∉ world.trace
  /-- `CONNECTION_STATE_CLOSED` is not left. -/
  closed : world.state.connectionState = .closed →
    ∀ events : List (Nat × Event),
      (events.foldl World.step world).state.connectionState = .closed
  /-- The protocol is released at most once. -/
  released : world.trace.count .protocolReleased ≤ 1
  /-- `releaseConnection` is started at most once. -/
  started : world.trace.count .releaseStarted ≤ 1

/-- Every run closes the connection at most once. -/
theorem closesOnce
    (protocol : Bool)
    (delivery : Delivery)
    (events : List (Nat × Event)) :
    ClosesOnce (World.after protocol delivery events) := by
  have holds := closing_invariant.after_keeps Closing.start protocol delivery
    events
  refine ⟨fun running => ?_, holds.rightState, fun closed more => ?_,
    holds.released, holds.started⟩
  · split
    · exact holds.queued running ‹_›
    · by_contra task
      exact absurd (holds.requested (Nat.pos_of_ne_zero task)) ‹_›
  · exact closed_invariant.foldl_keeps more closed

end Socket
end Lotospp
