import Lotospp.Common.Core

/-!
# One connection

The members of `class Connection` that close it and write to it.  Every member
function holds `m_connectionLock` while it acts, so that they act one after
the other; a function that an exception leaves before its `unlock` goes on
holding the lock for its thread.

What the socket, the timers and the protocol do is part of an event.
-/

namespace Lotospp
namespace Socket

open Common Effect

/-- What leaves a function of the connection. -/
inductive Throw
  /-- A `boost::system::system_error`. -/
  | systemError
  /-- `m_socket` is followed after it has been deleted. -/
  | nullSocket
  /-- `m_protocol` is followed while it is null. -/
  | nullProtocol
  deriving DecidableEq, Repr

/-- What the other parts of the server see of the connection. -/
inductive Obs
  /-- The protocol is released. -/
  | protocolReleased
  /-- `closeConnectionTask` starts `releaseConnection`. -/
  | releaseStarted
  /-- `closeConnectionTask` reports a wrong state. -/
  | wrongState
  /-- A message goes to the socket. -/
  | written
  /-- A message waits for the end of a write. -/
  | addedToAutoSend
  deriving DecidableEq, Repr

/-- `m_socket`. -/
inductive SocketState
  | open
  | closed
  | deleted
  deriving DecidableEq, Repr

/-- The members of `class Connection`, and the tasks that concern it. -/
structure State where
  /-- `m_connectionState`. -/
  connectionState : ConnectionState := .open
  /-- `m_protocol` is not null. -/
  protocol : Bool := false
  /-- `m_receivedFirst`. -/
  receivedFirst : Bool := false
  /-- `m_writeError`. -/
  writeError : Bool := false
  /-- `m_readError`. -/
  readError : Bool := false
  /-- `m_pendingWrite`. -/
  pendingWrite : Int := 0
  /-- `m_pendingRead`. -/
  pendingRead : Int := 0
  /-- `m_refCount`. -/
  refCount : UInt32 := 0
  /-- `m_logError`, which all connections share. -/
  logError : Bool := true
  /-- `m_socket`. -/
  socket : SocketState := .open
  /-- How often `m_connectionLock` is held. -/
  connectionLock : Nat := 0
  /-- The dispatcher is in `STATE_RUNNING`. -/
  running : Bool := true
  /-- The tasks for `closeConnectionTask` that have not got the lock yet. -/
  closeTasks : Nat := 0
  /-- The events of the scheduler for `releaseConnection`. -/
  releases : Nat := 0
  /-- The handlers of the service for `onStopOperation`. -/
  stops : Nat := 0
  deriving DecidableEq

/-- A function of the connection. -/
abbrev ConnectionM : Type → Type :=
  Prog Throw State Obs

/-! ## The lock -/

/-- `m_connectionLock.lock()`. -/
def lock : ConnectionM Unit :=
  Prog.modify fun state =>
    { state with connectionLock := state.connectionLock + 1 }

/-- `m_connectionLock.unlock()`. -/
def unlock : ConnectionM Unit :=
  Prog.modify fun state =>
    { state with connectionLock := state.connectionLock - 1 }

/-- A function with a `scoped_lock`, which is given up on every way out. -/
def scopedLock (prog : ConnectionM Unit) : ConnectionM Unit := do
  lock
  Prog.handle prog fun thrown => do
    unlock
    Prog.raise thrown
  unlock

/-! ## Closing -/

/-- `Dispatcher::addTask` for a `closeConnectionTask`. -/
def addTask : ConnectionM Unit :=
  Prog.modify fun state =>
    if state.running then { state with closeTasks := state.closeTasks + 1 }
    else state

/-- `Connection::closeConnection`. -/
def closeConnection : ConnectionM Unit :=
  scopedLock do
    let state ← Prog.get
    if state.connectionState = .closed ∨
        state.connectionState = .requestClose then pure ()
    else do
      Prog.modify fun state => { state with connectionState := .requestClose }
      addTask

/-- Report an error once. -/
def logError (after : ConnectionM Unit) : ConnectionM Unit := do
  let state ← Prog.get
  Prog.when state.logError do
    Prog.modify fun state => { state with logError := false }
    after

/-- `m_socket->is_open()`. -/
def isOpen : ConnectionM Bool := do
  let state ← Prog.get
  match state.socket with
  | .open => pure true
  | .closed => pure false
  | .deleted => Prog.raise .nullSocket

/-- `Connection::closeSocket`. -/
def closeSocket : ConnectionM Unit := do
  lock
  let isOpen ← isOpen
  Prog.when isOpen do
    Prog.modify fun state => { state with pendingRead := 0, pendingWrite := 0 }
    Prog.modify fun state => { state with socket := .closed }
  unlock

/-- `Connection::deleteConnectionTask`. -/
def deleteConnectionTask (dispatchThrows : Bool) : ConnectionM Unit :=
  if dispatchThrows then logError (pure ())
  else Prog.modify fun state => { state with stops := state.stops + 1 }

/-- `Connection::releaseConnection`. -/
def releaseConnection (dispatchThrows : Bool) : ConnectionM Unit := do
  let state ← Prog.get
  if state.refCount > 0 then
    Prog.modify fun state => { state with releases := state.releases + 1 }
  else deleteConnectionTask dispatchThrows

/-- `Connection::closeConnectionTask`. -/
def closeConnectionTask (dispatchThrows : Bool) : ConnectionM Unit := do
  lock
  let state ← Prog.get
  if state.connectionState ≠ .requestClose then do
    Prog.emit .wrongState
    unlock
  else do
    Prog.when state.protocol do
      Prog.emit .protocolReleased
      Prog.modify fun state => { state with protocol := false }
    Prog.modify fun state => { state with connectionState := .closing }
    Prog.when (state.pendingWrite = 0 ∨ state.writeError) do
      closeSocket
      Prog.emit .releaseStarted
      releaseConnection dispatchThrows
      Prog.modify fun state => { state with connectionState := .closed }
    unlock

/-- `Connection::onStopOperation`. -/
def onStopOperation (cancelThrows : Bool) : ConnectionM Unit := do
  lock
  Prog.when cancelThrows (Prog.raise .systemError)
  let _ ← isOpen
  Prog.modify fun state => { state with socket := .deleted }
  unlock

/-! ## Errors -/

/-- The errors of the socket that are told apart. -/
inductive ErrorCode
  | operationAborted
  | eof
  | connectionReset
  | connectionAborted
  | other
  deriving DecidableEq, Repr

/-- What an error calls for. -/
def closeOnError : ErrorCode → ConnectionM Unit
  | .operationAborted => pure ()
  | .eof => closeConnection
  | .connectionReset | .connectionAborted => closeConnection
  | .other => closeConnection

/-- Handle an error if there is one. -/
def ifError
    (error : Option ErrorCode)
    (handle : ErrorCode → ConnectionM Unit) : ConnectionM Unit :=
  match error with
  | some error => handle error
  | none => pure ()

/-- `Connection::handleReadError`. -/
def handleReadError (error : ErrorCode) : ConnectionM Unit :=
  scopedLock do
    closeOnError error
    Prog.modify fun state => { state with readError := true }

/-- `Connection::handleWriteError`. -/
def handleWriteError (error : ErrorCode) : ConnectionM Unit :=
  scopedLock do
    closeOnError error
    Prog.modify fun state => { state with writeError := true }

/-- `Connection::onReadTimeout`. -/
def onReadTimeout : ConnectionM Unit :=
  scopedLock do
    let state ← Prog.get
    Prog.when (state.pendingRead > 0 ∨ state.readError) do
      closeSocket
      closeConnection

/-- `Connection::onWriteTimeout`. -/
def onWriteTimeout : ConnectionM Unit :=
  scopedLock do
    let state ← Prog.get
    Prog.when (state.pendingWrite > 0 ∨ state.writeError) do
      closeSocket
      closeConnection

/-! ## Writing -/

/-- What the timer and the socket do while a message is written. -/
structure Write where
  /-- The timer throws when it is set. -/
  timerThrows : Bool := false
  /-- The error of the write. -/
  error : Option ErrorCode := none
  /-- The timer throws when it is cancelled. -/
  cancelThrows : Bool := false
  /-- Not all bytes have been written. -/
  short : Bool := false
  deriving DecidableEq

/-- `Connection::onWriteOperation`. -/
def onWriteOperation (write : Write) : ConnectionM Unit := do
  lock
  Prog.when write.cancelThrows (Prog.raise .systemError)
  ifError write.error handleWriteError
  let state ← Prog.get
  if state.connectionState ≠ .open ∨ state.writeError then do
    closeSocket
    closeConnection
    unlock
  else do
    Prog.modify fun state =>
      { state with pendingWrite := state.pendingWrite - 1 }
    unlock

/-- `getHandle()`. -/
def getHandle : ConnectionM Unit := do
  let state ← Prog.get
  Prog.when (state.socket = .deleted) (Prog.raise .nullSocket)

/-- Continue from a `system_error`. -/
def catchSystemError (prog handler : ConnectionM Unit) : ConnectionM Unit :=
  Prog.handle prog fun thrown =>
    if thrown = .systemError then handler else Prog.raise thrown

/-- `Connection::internalSend`. -/
def internalSend (write : Write) : ConnectionM Unit :=
  catchSystemError
    (do
      Prog.modify fun state =>
        { state with pendingWrite := state.pendingWrite + 1 }
      Prog.when write.timerThrows (Prog.raise .systemError)
      getHandle
      Prog.emit .written
      onWriteOperation write
      Prog.when write.short (logError (pure ())))
    (logError (pure ()))

/-- `Connection::send`. -/
def send (write : Write) : ConnectionM Bool := do
  lock
  let state ← Prog.get
  if state.connectionState ≠ .open ∨ state.writeError then do
    unlock
    pure false
  else do
    (if state.pendingWrite = 0 then internalSend write
      else Prog.emit .addedToAutoSend)
    unlock
    pure true

/-! ## Reading -/

/-- What a protocol does to its connection while it handles a message. -/
inductive Reaction
  /-- It sends a message. -/
  | send (write : Write)
  /-- It closes the connection. -/
  | close
  deriving DecidableEq

/-- A reaction of the protocol. -/
def perform : Reaction → ConnectionM Unit
  | .send write => do
      let _ ← send write
  | .close => closeConnection

/-- `m_protocol->onRecvFirstMessage` and `m_protocol->onRecvMessage`. -/
def onRecvMessage (reactions : List Reaction) : ConnectionM Unit := do
  let state ← Prog.get
  if state.protocol then Prog.forEach reactions perform
  else Prog.raise .nullProtocol

/-- Wait for the next packet. -/
def readNext (readThrows : Bool) : ConnectionM Unit :=
  catchSystemError
    (do
      Prog.modify fun state =>
        { state with pendingRead := state.pendingRead + 1 }
      getHandle
      Prog.when readThrows (Prog.raise .systemError))
    (logError closeConnection)

/-- What the service, the protocol and the socket do with a packet. -/
structure Delivery where
  /-- `makeProtocol` gives a protocol. -/
  made : Bool := true
  /-- What the protocol does. -/
  reactions : List Reaction := []
  /-- The start of the next read throws. -/
  readThrows : Bool := false
  deriving DecidableEq

/-- `Connection::parsePacket` of a packet. -/
def deliver (delivery : Delivery) : ConnectionM Unit := do
  Prog.modify fun state => { state with pendingRead := state.pendingRead - 1 }
  let state ← Prog.get
  if ¬ state.receivedFirst then do
    Prog.modify fun state => { state with receivedFirst := true }
    if ¬ state.protocol ∧ ¬ delivery.made then do
      closeConnection
      unlock
    else do
      Prog.modify fun state => { state with protocol := true }
      onRecvMessage delivery.reactions
      readNext delivery.readThrows
      unlock
  else do
    onRecvMessage delivery.reactions
    readNext delivery.readThrows
    unlock

/-- `Connection::parsePacket`. -/
def parsePacket (error : Option ErrorCode) (delivery : Delivery) :
    ConnectionM Unit := do
  lock
  ifError error handleReadError
  let state ← Prog.get
  if state.connectionState ≠ .open ∨ state.readError then do
    closeConnection
    unlock
  else deliver delivery

/-- `Connection::acceptConnection`, with a protocol that `onConnect` lets send
first, or without. -/
def acceptConnection (protocol : Bool) (delivery : Delivery) :
    ConnectionM Unit := do
  Prog.when protocol do
    Prog.modify fun state => { state with protocol := true }
    onRecvMessage delivery.reactions
  readNext delivery.readThrows

/-! ## Runs -/

/-- What can happen to a connection. -/
inductive Event
  /-- `closeConnection` is called. -/
  | closeConnection
  /-- A read completes. -/
  | readCompletion (error : Option ErrorCode) (delivery : Delivery)
  /-- A message is sent. -/
  | send (write : Write)
  /-- The read timer expires. -/
  | readTimeout
  /-- The write timer expires. -/
  | writeTimeout
  /-- The dispatcher runs a `closeConnectionTask`. -/
  | closeTask (dispatchThrows : Bool)
  /-- The scheduler runs `releaseConnection` again. -/
  | releaseAgain (dispatchThrows : Bool)
  /-- The service runs `onStopOperation`. -/
  | stopOperation (cancelThrows : Bool)
  /-- A message refers to the connection. -/
  | addRef
  /-- A message has been freed. -/
  | unRef
  /-- Another connection has reported an error. -/
  | errorLogged
  /-- `Dispatcher::stop` is called. -/
  | dispatcherStop
  deriving DecidableEq

/-- What an event does. -/
def react : Event → ConnectionM Unit
  | .closeConnection => Socket.closeConnection
  | .readCompletion error delivery => parsePacket error delivery
  | .send write => do
      let _ ← Socket.send write
  | .readTimeout => onReadTimeout
  | .writeTimeout => onWriteTimeout
  | .closeTask dispatchThrows => do
      let state ← Prog.get
      Prog.when (0 < state.closeTasks) do
        Prog.modify fun state =>
          { state with closeTasks := state.closeTasks - 1 }
        closeConnectionTask dispatchThrows
  | .releaseAgain dispatchThrows => do
      let state ← Prog.get
      Prog.when (0 < state.releases) do
        Prog.modify fun state => { state with releases := state.releases - 1 }
        releaseConnection dispatchThrows
  | .stopOperation cancelThrows => do
      let state ← Prog.get
      Prog.when (0 < state.stops) do
        Prog.modify fun state => { state with stops := state.stops - 1 }
        onStopOperation cancelThrows
  | .addRef =>
      Prog.modify fun state => { state with refCount := state.refCount + 1 }
  | .unRef =>
      Prog.modify fun state => { state with refCount := state.refCount - 1 }
  | .errorLogged => Prog.modify fun state => { state with logError := false }
  | .dispatcherStop => Prog.modify fun state => { state with running := false }

/-- A connection with what it has shown so far. -/
structure World where
  /-- The connection. -/
  state : State := {}
  /-- What it has shown. -/
  trace : List Obs := []
  /-- The thread that has held the lock last. -/
  holder : Nat := 0
  /-- What has brought the server down. -/
  down : Option Throw := none
  deriving DecidableEq

namespace World

/-- A thread runs a function of the connection. -/
def perform (world : World) (thread : Nat) (prog : ConnectionM Unit) : World :=
  let run := prog.run world.state
  { state := run.state
    trace := world.trace ++ run.obs
    holder := thread
    down := match run.val with
      | .ok _ => none
      | .error thrown => some thrown }

/-- The event takes place unless the server is down, or the lock is held by
another thread. -/
def step (world : World) (event : Nat × Event) : World :=
  if world.down = none ∧
      (world.state.connectionLock = 0 ∨ world.holder = event.1) then
    world.perform event.1 (react event.2)
  else world

/-- A connection that has been accepted. -/
def accepted (protocol : Bool) (delivery : Delivery) : World :=
  World.perform {} 0 (acceptConnection protocol delivery)

/-- The connection after a sequence of events, each with its thread. -/
def after
    (protocol : Bool)
    (delivery : Delivery)
    (events : List (Nat × Event)) : World :=
  events.foldl World.step (accepted protocol delivery)

end World
end Socket
end Lotospp
