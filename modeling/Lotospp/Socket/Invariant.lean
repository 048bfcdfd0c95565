import Lotospp.Socket.Connection

/-!
# Invariants of a connection

An invariant of the requests, the messages, the timeouts and the tasks is an
invariant of every function of a connection: the reading of packets and all
other functions change only members that the invariant does not look at.  The
messages may be limited to those that are allowed.
-/

namespace Lotospp
namespace Socket

open Common Effect

/-! ## Closing -/

/-- The state with a close requested. -/
def State.requested (state : State) : State :=
  if state.running then
    { state with
      connectionState := .requestClose
      closeTasks := state.closeTasks + 1 }
  else { state with connectionState := .requestClose }

/-- What `closeConnection` does. -/
theorem run_closeConnection (state : State) :
    closeConnection.run state =
      ⟨.ok (),
        if state.connectionState = .closed ∨
            state.connectionState = .requestClose then state
          else state.requested, []⟩ := by
  by_cases done : state.connectionState = .closed ∨
      state.connectionState = .requestClose
  · simp [closeConnection, scopedLock, lock, unlock, Prog.run_handle,
      Prog.run_bind, done]
  · by_cases running : state.running
    · simp [closeConnection, scopedLock, lock, unlock, Prog.run_handle,
        Prog.run_bind, done, addTask, State.requested, running]
    · simp [closeConnection, scopedLock, lock, unlock, Prog.run_handle,
        Prog.run_bind, done, addTask, State.requested, running]

/-- What `closeSocket` does. -/
theorem run_closeSocket (state : State) :
    closeSocket.run state =
      match state.socket with
      | .open =>
          ⟨.ok (), { state with
            pendingRead := 0, pendingWrite := 0, socket := .closed }, []⟩
      | .closed => ⟨.ok (), state, []⟩
      | .deleted =>
          ⟨.error .nullSocket,
            { state with connectionLock := state.connectionLock + 1 }, []⟩ := by
  cases socket : state.socket with
  | «open» => simp [closeSocket, isOpen, lock, unlock, Prog.run_bind, socket]
  | closed =>
      simp [closeSocket, isOpen, lock, unlock, Prog.run_bind, socket]
      rw [← socket]
  | deleted => simp [closeSocket, isOpen, lock, Prog.run_bind, socket]

/-! ## Bookkeeping -/

/-- The members that decide how the connection is written to and closed are
the same. -/
structure SameClosing (state state' : State) : Prop where
  connectionState : state'.connectionState = state.connectionState
  protocol : state'.protocol = state.protocol
  pendingWrite : state'.pendingWrite = state.pendingWrite
  socket : state'.socket = state.socket
  running : state'.running = state.running
  closeTasks : state'.closeTasks = state.closeTasks

/-- The invariant does not look at the other members. -/
def Blind (inv : State → List Obs → Prop) : Prop :=
  ∀ state state' past, SameClosing state state' → inv state past →
    inv state' past

/-- The ways out of a function that keeps an invariant. -/
structure Exits
    (inv : State → List Obs → Prop)
    (exit : Throw → State → List Obs → Prop) : Prop where
  /-- The invariant does not look at the other members. -/
  blind : Blind inv
  /-- Nor does what holds on a way out. -/
  blindExit : ∀ thrown, Blind (exit thrown)
  /-- A function may be left wherever the invariant holds. -/
  leaves : ∀ thrown state past, inv state past → exit thrown state past
  /-- Where a `system_error` is caught the invariant holds. -/
  caught : ∀ state past, exit .systemError state past → inv state past

section Bookkeeping

variable {inv : State → List Obs → Prop}
variable {exit : Throw → State → List Obs → Prop}

/-- A change of other members. -/
theorem Blind.modify
    (blind : Blind inv)
    {change : State → State}
    (same : ∀ state, SameClosing state (change state)) :
    Prog.Preserves inv exit (Prog.modify change : ConnectionM Unit) :=
  Prog.Preserves.modify_intro fun state past =>
    blind state (change state) past (same state)

theorem Blind.lock (blind : Blind inv) :
    Prog.Preserves inv exit Socket.lock :=
  blind.modify fun _ => ⟨rfl, rfl, rfl, rfl, rfl, rfl⟩

theorem Blind.unlock (blind : Blind inv) :
    Prog.Preserves inv exit Socket.unlock :=
  blind.modify fun _ => ⟨rfl, rfl, rfl, rfl, rfl, rfl⟩

theorem Blind.logError
    (blind : Blind inv)
    {after : ConnectionM Unit}
    (kept : Prog.Preserves inv exit after) :
    Prog.Preserves inv exit (Socket.logError after) :=
  Prog.Preserves.get_bind fun _ =>
    Prog.Preserves.ite
      (Prog.Preserves.bind
        (blind.modify fun _ => ⟨rfl, rfl, rfl, rfl, rfl, rfl⟩) fun _ => kept)
      (Prog.Preserves.pure_intro ())

theorem Blind.releaseConnection
    (blind : Blind inv)
    (dispatchThrows : Bool) :
    Prog.Preserves inv exit (Socket.releaseConnection dispatchThrows) := by
  refine Prog.Preserves.get_bind fun _ => Prog.Preserves.ite ?_ ?_
  · exact blind.modify fun _ => ⟨rfl, rfl, rfl, rfl, rfl, rfl⟩
  · exact Prog.Preserves.ite (blind.logError (Prog.Preserves.pure_intro ()))
      (blind.modify fun _ => ⟨rfl, rfl, rfl, rfl, rfl, rfl⟩)

/-- A function with a `scoped_lock`. -/
theorem Blind.scopedLock
    (blind : Blind inv)
    (blindExit : ∀ thrown, Blind (exit thrown))
    {prog : ConnectionM Unit}
    (kept : Prog.Preserves inv exit prog) :
    Prog.Preserves inv exit (Socket.scopedLock prog) := by
  have unlocks (thrown : Throw) :
      Prog.Preserves (exit thrown) exit Socket.unlock :=
    (blindExit thrown).unlock
  refine Prog.Preserves.bind blind.lock fun _ =>
    Prog.Spec.bind (Prog.Spec.handle_intro kept fun thrown => ?_)
      fun _ => blind.unlock
  exact Prog.Spec.bind (unlocks thrown) fun _ =>
    Prog.Spec.raise_intro fun _ _ left => left

namespace Exits

/-- A function with a `scoped_lock`. -/
theorem scopedLock
    (exits : Exits inv exit)
    {prog : ConnectionM Unit}
    (kept : Prog.Preserves inv exit prog) :
    Prog.Preserves inv exit (Socket.scopedLock prog) :=
  exits.blind.scopedLock exits.blindExit kept

theorem raise
    {α : Type}
    (exits : Exits inv exit)
    (thrown : Throw) :
    Prog.Preserves inv exit (Prog.raise thrown : ConnectionM α) :=
  Prog.Preserves.raise_intro (exits.leaves thrown)

theorem isOpen (exits : Exits inv exit) :
    Prog.Preserves inv exit Socket.isOpen := by
  refine Prog.Preserves.get_bind fun state => ?_
  cases state.socket with
  | «open» => exact Prog.Preserves.pure_intro true
  | closed => exact Prog.Preserves.pure_intro false
  | deleted => exact exits.raise .nullSocket

theorem getHandle (exits : Exits inv exit) :
    Prog.Preserves inv exit Socket.getHandle :=
  Prog.Preserves.get_bind fun _ =>
    Prog.Preserves.ite (exits.raise .nullSocket) (Prog.Preserves.pure_intro ())

/-- A `system_error` is caught. -/
theorem catchSystemError
    (exits : Exits inv exit)
    {prog handler : ConnectionM Unit}
    (kept : Prog.Preserves inv exit prog)
    (handled : Prog.Preserves inv exit handler) :
    Prog.Preserves inv exit (Socket.catchSystemError prog handler) := by
  refine Prog.Spec.handle_intro kept fun thrown =>
    Prog.Spec.ite (fun isSystemError => ?_) fun _ =>
      Prog.Spec.raise_intro fun _ _ left => left
  subst isSystemError
  exact Prog.Spec.conseq handled exits.caught fun _ _ _ holds => holds

end Exits

/-- What an error calls for, if there is one. -/
theorem keeps_ifError
    {error : Option ErrorCode}
    {handle : ErrorCode → ConnectionM Unit}
    (kept : ∀ error, Prog.Preserves inv exit (handle error)) :
    Prog.Preserves inv exit (ifError error handle) := by
  cases error with
  | none => exact Prog.Preserves.pure_intro ()
  | some error => exact kept error

end Bookkeeping

/-! ## Invariants -/

/-- An invariant of a connection to which only allowed messages are sent. -/
structure ConnectionInvariant
    (allowed : Write → Prop)
    (inv : State → List Obs → Prop)
    (exit : Throw → State → List Obs → Prop) : Prop
    extends Exits inv exit where
  /-- A close is requested. -/
  closeConnection : Prog.Preserves inv exit Socket.closeConnection
  /-- A message is sent. -/
  send : ∀ write, allowed write → Prog.Preserves inv exit (Socket.send write)
  /-- The read timer expires. -/
  onReadTimeout : Prog.Preserves inv exit Socket.onReadTimeout
  /-- The write timer expires. -/
  onWriteTimeout : Prog.Preserves inv exit Socket.onWriteTimeout
  /-- The protocol is set. -/
  makes : ∀ state past, state.connectionState = .open →
    inv state past → inv { state with protocol := true } past
  /-- The dispatcher runs a task. -/
  closeTask : ∀ dispatchThrows,
    Prog.Preserves inv exit (react (.closeTask dispatchThrows))
  /-- The socket is deleted. -/
  onStopOperation : ∀ cancelThrows,
    Prog.Preserves inv exit (Socket.onStopOperation cancelThrows)
  /-- The dispatcher stops. -/
  dispatcherStop : ∀ state past, inv state past →
    inv { state with running := false } past

/-- The protocol sends only allowed messages. -/
def Allows (allowed : Write → Prop) (reactions : List Reaction) : Prop :=
  ∀ write, .send write ∈ reactions → allowed write

/-- An event sends only allowed messages. -/
def Event.Allowed (allowed : Write → Prop) : Event → Prop
  | .readCompletion _ delivery => Allows allowed delivery.reactions
  | .send write => allowed write
  | _ => True

theorem Event.allowed_true (event : Event) :
    event.Allowed fun _ => True := by
  cases event with
  | readCompletion error delivery => exact fun _ _ => trivial
  | _ => trivial

namespace ConnectionInvariant

variable {allowed : Write → Prop}
variable {inv : State → List Obs → Prop}
variable {exit : Throw → State → List Obs → Prop}
variable (kept : ConnectionInvariant allowed inv exit)

include kept

/-! ### Packets -/

theorem closeOnError (error : ErrorCode) :
    Prog.Preserves inv exit (Socket.closeOnError error) := by
  cases error with
  | operationAborted => exact Prog.Preserves.pure_intro ()
  | eof => exact kept.closeConnection
  | connectionReset => exact kept.closeConnection
  | connectionAborted => exact kept.closeConnection
  | other => exact kept.closeConnection

theorem handleReadError (error : ErrorCode) :
    Prog.Preserves inv exit (Socket.handleReadError error) :=
  kept.scopedLock (Prog.Preserves.bind (kept.closeOnError error) fun _ =>
    kept.blind.modify fun _ => ⟨rfl, rfl, rfl, rfl, rfl, rfl⟩)

theorem onRecvMessage
    {reactions : List Reaction}
    (allows : Allows allowed reactions) :
    Prog.Preserves inv exit (Socket.onRecvMessage reactions) := by
  refine Prog.Preserves.get_bind fun _ =>
    Prog.Preserves.ite (Prog.Spec.forEach fun reaction inside => ?_)
      (kept.raise .nullProtocol)
  cases reaction with
  | send write =>
      exact Prog.Preserves.bind (kept.send write (allows write inside))
        fun _ => Prog.Preserves.pure_intro ()
  | close => exact kept.closeConnection

theorem readNext (readThrows : Bool) :
    Prog.Preserves inv exit (Socket.readNext readThrows) := by
  refine kept.catchSystemError
    (Prog.Preserves.bind
      (kept.blind.modify fun _ => ⟨rfl, rfl, rfl, rfl, rfl, rfl⟩)
      fun _ => Prog.Preserves.bind kept.getHandle fun _ =>
        Prog.Preserves.ite (kept.raise .systemError) ?_)
    (kept.blind.logError kept.closeConnection)
  exact Prog.Preserves.pure_intro ()

/-- A packet is delivered to an open connection. -/
theorem deliver
    {delivery : Delivery}
    (allows : Allows allowed delivery.reactions) :
    Prog.Spec (fun state past => state.connectionState = .open ∧
        inv state past)
      (Socket.deliver delivery) (fun _ => inv) exit := by
  have rest : Prog.Preserves inv exit (do
      Socket.onRecvMessage delivery.reactions
      Socket.readNext delivery.readThrows
      Socket.unlock) :=
    Prog.Preserves.bind (kept.onRecvMessage allows) fun _ =>
      Prog.Preserves.bind (kept.readNext _) fun _ => kept.blind.unlock
  have isOpen : Blind fun state past =>
      state.connectionState = .open ∧ inv state past :=
    fun state state' past same holds =>
      ⟨same.connectionState.trans holds.1,
        kept.blind state state' past same holds.2⟩
  refine Prog.Spec.bind
    (isOpen.modify fun _ => ⟨rfl, rfl, rfl, rfl, rfl, rfl⟩) fun _ =>
      Prog.Spec.get_bind fun state => Prog.Spec.ite (fun _ => ?_) fun _ => ?_
  · refine Prog.Spec.bind
      (Prog.Spec.conseq
        (isOpen.modify fun _ => ⟨rfl, rfl, rfl, rfl, rfl, rfl⟩)
        (fun _ _ ⟨same, holds⟩ => same ▸ holds) fun _ _ _ holds => holds)
      fun _ => ?_
    refine Prog.Spec.ite (fun _ => ?_) fun _ => ?_
    · exact Prog.Spec.conseq
        (Prog.Preserves.bind kept.closeConnection fun _ => kept.blind.unlock)
        (fun _ _ holds => holds.2) fun _ _ _ holds => holds
    · exact Prog.Spec.bind
        (Prog.Spec.modify_intro fun state past holds =>
          kept.makes state past holds.1 holds.2) fun _ => rest
  · exact Prog.Spec.conseq rest (fun _ _ ⟨same, holds⟩ => same ▸ holds.2)
      fun _ _ _ holds => holds

theorem parsePacket
    (error : Option ErrorCode)
    {delivery : Delivery}
    (allows : Allows allowed delivery.reactions) :
    Prog.Preserves inv exit (Socket.parsePacket error delivery) := by
  refine Prog.Preserves.bind kept.blind.lock fun _ =>
    Prog.Preserves.bind (keeps_ifError kept.handleReadError) fun _ =>
      Prog.Spec.get_bind fun state =>
        Prog.Spec.ite (fun _ => ?_) fun isOpen => ?_
  · exact Prog.Spec.conseq
      (Prog.Preserves.bind kept.closeConnection fun _ => kept.blind.unlock)
      (fun _ _ ⟨same, holds⟩ => same ▸ holds) fun _ _ _ holds => holds
  · refine Prog.Spec.conseq (kept.deliver allows) ?_ fun _ _ _ holds => holds
    rintro current past ⟨rfl, holds⟩
    exact ⟨not_not.mp fun closed => isOpen (.inl closed), holds⟩

/-- A connection that is accepted is open. -/
theorem acceptConnection
    (protocol : Bool)
    {delivery : Delivery}
    (allows : Allows allowed delivery.reactions) :
    Prog.Spec (fun state past => state.connectionState = .open ∧
        inv state past)
      (Socket.acceptConnection protocol delivery) (fun _ => inv) exit := by
  have made : Prog.Spec (fun state past => state.connectionState = .open ∧
        inv state past)
      (Prog.modify fun state => { state with protocol := true } :
        ConnectionM Unit) (fun _ => inv) exit :=
    Prog.Spec.modify_intro fun state past holds =>
      kept.makes state past holds.1 holds.2
  refine Prog.Spec.bind (Prog.Spec.ite (fun _ => Prog.Spec.bind made
    fun _ => kept.onRecvMessage allows) fun _ => ?_) fun _ => kept.readNext _
  exact Prog.Spec.pure_intro fun _ _ holds => holds.2

/-! ### Events -/

/-- One event. -/
theorem reacts
    {event : Event}
    (permitted : event.Allowed allowed) :
    Prog.Preserves inv exit (react event) := by
  have pass : Prog.Preserves inv exit (pure () : ConnectionM Unit) :=
    Prog.Preserves.pure_intro ()
  have other : ∀ change : State → State,
      (∀ state, SameClosing state (change state)) →
        Prog.Preserves inv exit (Prog.modify change : ConnectionM Unit) :=
    fun _ same => kept.blind.modify same
  cases event with
  | closeConnection => exact kept.closeConnection
  | readCompletion error delivery => exact kept.parsePacket error permitted
  | send write =>
      exact Prog.Preserves.bind (kept.send write permitted) fun _ => pass
  | readTimeout => exact kept.onReadTimeout
  | writeTimeout => exact kept.onWriteTimeout
  | closeTask dispatchThrows => exact kept.closeTask dispatchThrows
  | releaseAgain dispatchThrows =>
      refine Prog.Preserves.get_bind fun _ => Prog.Preserves.ite ?_ pass
      exact Prog.Preserves.bind
        (other _ fun _ => ⟨rfl, rfl, rfl, rfl, rfl, rfl⟩)
        fun _ => kept.blind.releaseConnection dispatchThrows
  | stopOperation cancelThrows =>
      refine Prog.Preserves.get_bind fun _ => Prog.Preserves.ite ?_ pass
      exact Prog.Preserves.bind
        (other _ fun _ => ⟨rfl, rfl, rfl, rfl, rfl, rfl⟩)
        fun _ => kept.onStopOperation cancelThrows
  | addRef => exact other _ fun _ => ⟨rfl, rfl, rfl, rfl, rfl, rfl⟩
  | unRef => exact other _ fun _ => ⟨rfl, rfl, rfl, rfl, rfl, rfl⟩
  | errorLogged => exact other _ fun _ => ⟨rfl, rfl, rfl, rfl, rfl, rfl⟩
  | dispatcherStop => exact Prog.Preserves.modify_intro kept.dispatcherStop

end ConnectionInvariant

/-! ## Runs -/

namespace World

/-- What holds of a connection, and what holds where the server went down. -/
def Holds
    (inv : State → List Obs → Prop)
    (exit : Throw → State → List Obs → Prop)
    (world : World) : Prop :=
  match world.down with
  | none => inv world.state world.trace
  | some thrown => exit thrown world.state world.trace

section Runs

variable {allowed : Write → Prop}
variable {inv : State → List Obs → Prop}
variable {exit : Throw → State → List Obs → Prop}

/-- An outcome of a function that a thread runs. -/
theorem perform_of_ends
    {world : World}
    {thread : Nat}
    {prog : ConnectionM Unit}
    (ends : (prog.run world.state).Ends world.trace (fun _ => inv) exit) :
    Holds inv exit (world.perform thread prog) := by
  unfold World.perform
  generalize prog.run world.state = ran at ends
  obtain ⟨thrown | value, reached, obs⟩ := ran
  · exact ends
  · exact ends

variable (kept : ConnectionInvariant allowed inv exit)

include kept

/-- One event keeps an invariant. -/
theorem step_keeps
    {world : World}
    {event : Nat × Event}
    (permitted : event.2.Allowed allowed)
    (holds : Holds inv exit world) : Holds inv exit (world.step event) := by
  unfold World.step
  split
  · rename_i free
    unfold Holds at holds
    rw [free.1] at holds
    exact perform_of_ends (kept.reacts permitted _ _ holds)
  · exact holds

/-- A sequence of events keeps an invariant. -/
theorem foldl_keeps
    {world : World}
    {events : List (Nat × Event)}
    (permitted : ∀ event ∈ events, event.2.Allowed allowed)
    (holds : Holds inv exit world) :
    Holds inv exit (events.foldl World.step world) := by
  induction events generalizing world with
  | nil => exact holds
  | cons event rest inductionHypothesis =>
      obtain ⟨first, others⟩ := List.forall_mem_cons.mp permitted
      exact inductionHypothesis others (step_keeps kept first holds)

/-- An invariant of a fresh connection holds after every run. -/
theorem after_keeps
    (start : inv {} [])
    (protocol : Bool)
    {delivery : Delivery}
    {events : List (Nat × Event)}
    (allows : Allows allowed delivery.reactions)
    (permitted : ∀ event ∈ events, event.2.Allowed allowed) :
    Holds inv exit (after protocol delivery events) :=
  foldl_keeps kept permitted (perform_of_ends
    (kept.acceptConnection protocol allows {} [] ⟨rfl, start⟩))

end Runs
end World
end Socket
end Lotospp
