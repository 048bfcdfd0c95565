import Lotospp.Common.Core
import Lotospp.Effect.Machine

/-!
# The pool of output messages

`OutputMessagePool` with the protocols and connections that its messages refer
to, and with the tasks and events that release messages, protocols and
connections.  The dispatcher and the scheduler are running, so that every task
and every event is accepted; each function is one action.

A message is held by shared pointers: those of the two queues of the pool, the
`m_outputBuffer` of a protocol, and any others.  When the last pointer goes,
its deleter adds the task that releases the message.

Reference counts are natural numbers: a count of 32 bits would need as many
messages, with a buffer each, to go round.
-/

namespace Lotospp
namespace Network
namespace OutputPool

open Common Effect

/-- `OutputMessage::OutputMessageState`. -/
inductive MessageState
  | free
  | allocated
  | allocatedNoAutosend
  | waiting
  deriving DecidableEq, Repr

/-- `class OutputMessage`. -/
structure Message where
  /-- `m_state`. -/
  state : MessageState := .free
  /-- `m_protocol`. -/
  protocol : Option Nat := none
  /-- `m_connection`. -/
  connection : Option Nat := none
  /-- `m_frame`. -/
  frame : Nat := 0
  /-- `m_outputBufferStart`. -/
  outputBufferStart : Nat := 0
  /-- `m_MsgSize`. -/
  msgSize : Nat := 0
  /-- `m_ReadPos`. -/
  readPos : Nat := 0
  deriving DecidableEq, Repr

/-- `OutputMessage::freeMessage`. -/
def Message.freeMessage (message : Message) : Message :=
  { message with
    connection := none
    protocol := none
    frame := 0
    outputBufferStart := 0
    state := .free }

/-- `NetworkMessage::Reset`. -/
def Message.reset (message : Message) : Message :=
  { message with msgSize := 0, readPos := 0 }

/-- `class Protocol`. -/
structure Protocol where
  /-- `m_connection`. -/
  connection : Option Nat := none
  /-- `m_refCount`, a `uint32_t`: below 2³² messages it does not wrap. -/
  refCount : Nat := 0
  /-- `m_outputBuffer`. -/
  outputBuffer : Option Nat := none
  /-- The protocol has been deleted. -/
  deleted : Bool := false
  deriving DecidableEq, Repr

/-- `class Connection`. -/
structure Connection where
  /-- `m_connectionState`. -/
  connectionState : ConnectionState := .open
  /-- `m_protocol`. -/
  protocol : Option Nat := none
  /-- `m_pendingWrite` is not 0. -/
  pendingWrite : Bool := false
  /-- `m_writeError`. -/
  writeError : Bool := false
  /-- `m_refCount`, a `uint32_t`: below 2³² messages it does not wrap. -/
  refCount : Nat := 0
  /-- `deleteConnectionTask` has been called. -/
  deleted : Bool := false
  deriving DecidableEq

/-- What a write leaves behind. -/
structure Write where
  /-- `m_pendingWrite` is not 0. -/
  pendingWrite : Bool := false
  /-- `m_writeError`. -/
  writeError : Bool := false
  /-- `closeConnection` is called. -/
  closes : Bool := false
  deriving DecidableEq

/-- An event of the scheduler. -/
inductive Event
  /-- `Protocol::releaseProtocol`. -/
  | releaseProtocol (protocol : Nat)
  /-- `Connection::releaseConnection`. -/
  | releaseConnection (connection : Nat)
  deriving DecidableEq, Repr

/-- A task of the dispatcher. -/
inductive Task
  /-- `OutputMessagePool::internalReleaseMessage`. -/
  | releaseMessage (message : Nat)
  /-- `Connection::closeConnectionTask`. -/
  | closeConnection (connection : Nat)
  /-- An event that was due. -/
  | event (event : Event)
  deriving DecidableEq, Repr

/-- The pool and what its messages refer to. -/
structure World where
  /-- `m_isOpen`. -/
  isOpen : Bool := false
  /-- `m_frameTime`. -/
  frameTime : Nat := 0
  /-- The messages by number. -/
  messages : Nat → Message := fun _ => {}
  /-- How many messages have been created. -/
  created : Nat
  /-- `m_outputMessages`, the back first. -/
  outputMessages : List Nat
  /-- `m_autoSendOutputMessages`. -/
  autoSend : List Nat := []
  /-- `m_toAddQueue`. -/
  toAddQueue : List Nat := []
  /-- The other pointers to messages, but those of protocols. -/
  held : List Nat := []
  /-- The protocols by number. -/
  protocols : Nat → Protocol := fun _ => {}
  /-- How many protocols have been made. -/
  protocolCount : Nat := 0
  /-- The connections by number. -/
  connections : Nat → Connection := fun _ => {}
  /-- How many connections have been created. -/
  connectionCount : Nat := 0
  /-- `Dispatcher::m_taskList`, as far as it concerns the pool. -/
  tasks : List Task := []
  /-- `Scheduler::m_eventList`, as far as it concerns the pool. -/
  events : List Event := []

namespace World

/-- Change a message. -/
def updateMessage
    (world : World)
    (message : Nat)
    (change : Message → Message) : World :=
  { world with
    messages := Function.update world.messages message
      (change (world.messages message)) }

/-- Change a protocol. -/
def updateProtocol
    (world : World)
    (protocol : Nat)
    (change : Protocol → Protocol) : World :=
  { world with
    protocols := Function.update world.protocols protocol
      (change (world.protocols protocol)) }

/-- Change a connection. -/
def updateConnection
    (world : World)
    (connection : Nat)
    (change : Connection → Connection) : World :=
  { world with
    connections := Function.update world.connections connection
      (change (world.connections connection)) }

/-- The messages that live pointers point to. -/
def pointers (world : World) : List Nat :=
  world.autoSend ++ world.toAddQueue ++ world.held ++
    (List.range world.protocolCount).filterMap fun protocol =>
      (world.protocols protocol).outputBuffer

/-! ## Releasing messages -/

/-- `OutputMessagePool::releaseMessage`. -/
def releaseMessage (world : World) (message : Nat) : World :=
  { world with tasks := .releaseMessage message :: world.tasks }

/-- A pointer to the message has gone; the deleter is called if it was the
last one. -/
def dropped (world : World) (message : Nat) : World :=
  if message ∈ world.pointers then world else world.releaseMessage message

/-- `OutputMessagePool::internalReleaseMessage`. -/
def internalReleaseMessage (world : World) (message : Nat) : World :=
  let world := match (world.messages message).protocol with
    | some protocol =>
        world.updateProtocol protocol fun protocol =>
          { protocol with refCount := protocol.refCount - 1 }
    | none => world
  let world := match (world.messages message).connection with
    | some connection =>
        world.updateConnection connection fun connection =>
          { connection with refCount := connection.refCount - 1 }
    | none => world
  let world := world.updateMessage message Message.freeMessage
  { world with outputMessages := message :: world.outputMessages }

/-- `m_outputBuffer.reset()`. -/
def resetOutputBuffer (world : World) (protocol : Nat) : World :=
  match (world.protocols protocol).outputBuffer with
  | none => world
  | some message =>
      (world.updateProtocol protocol fun protocol =>
        { protocol with outputBuffer := none }).dropped message

/-- `Protocol::onSendMessage`, of the protocol of the message. -/
def onSendMessage (world : World) (message : Nat) : World :=
  match (world.messages message).protocol with
  | none => world
  | some protocol =>
      if (world.protocols protocol).outputBuffer = some message then
        world.resetOutputBuffer protocol
      else world

/-! ## Getting messages -/

/-- A message of the free list, or a new one if there is none. -/
def takeFree (world : World) : Nat × World :=
  match world.outputMessages with
  | [] =>
      (world.created,
        { world with
          messages := Function.update world.messages world.created {}
          created := world.created + 1 })
  | message :: rest => (message, { world with outputMessages := rest })

/-- `OutputMessagePool::configureOutputMessage`. -/
def configureOutputMessage
    (world : World)
    (message protocol connection : Nat)
    (autosend : Bool) : World :=
  let world := world.updateMessage message fun message =>
    { message.reset with
      state := if autosend then .allocated else .allocatedNoAutosend
      protocol := some protocol
      connection := some connection
      frame := world.frameTime }
  let world := world.updateProtocol protocol fun protocol =>
    { protocol with refCount := protocol.refCount + 1 }
  let world := world.updateConnection connection fun connection =>
    { connection with refCount := connection.refCount + 1 }
  if autosend then { world with autoSend := world.autoSend ++ [message] }
  else world

/-- `OutputMessagePool::getOutputMessage`; the pointer that it returns is a
live one. -/
def getOutputMessage (world : World) (protocol : Nat) (autosend : Bool) :
    Option Nat × World :=
  if world.isOpen then
    match (world.protocols protocol).connection with
    | none => (none, world)
    | some connection =>
        let (message, world) := world.takeFree
        let world := { world with held := message :: world.held }
        (some message,
          world.configureOutputMessage message protocol connection autosend)
  else (none, world)

/-- `NetworkMessage::MAXSIZE`. -/
def maxSize : Nat := 15340

/-- `Protocol::getOutputBuffer`; the pointer that it returns is a live one. -/
def getOutputBuffer (world : World) (protocol : Nat) : World :=
  match (world.protocols protocol).outputBuffer.filter fun message =>
      (world.messages message).msgSize < maxSize - 4096 with
  | some message => { world with held := message :: world.held }
  | none =>
      if (world.protocols protocol).connection = none then world
      else
        match world.getOutputMessage protocol true with
        | (none, world) => world.resetOutputBuffer protocol
        | (some message, world) =>
            let world := world.resetOutputBuffer protocol
            world.updateProtocol protocol fun protocol =>
              { protocol with outputBuffer := some message }

/-! ## Closing and releasing -/

/-- `Connection::closeConnection`. -/
def closeConnection (world : World) (connection : Nat) : World :=
  let state := (world.connections connection).connectionState
  if state = .closed ∨ state = .requestClose then world
  else
    let world := world.updateConnection connection fun connection =>
      { connection with connectionState := .requestClose }
    { world with tasks := world.tasks ++ [.closeConnection connection] }

/-- `Connection::onWriteTimeout`. -/
def onWriteTimeout (world : World) (connection : Nat) : World :=
  if (world.connections connection).pendingWrite ∨
      (world.connections connection).writeError then
    (world.updateConnection connection fun connection =>
      { connection with pendingWrite := false }).closeConnection connection
  else world

/-- `Scheduler::addEvent`. -/
def addEvent (world : World) (event : Event) : World :=
  { world with events := world.events ++ [event] }

/-- `Protocol::deleteProtocolTask`. -/
def deleteProtocolTask (world : World) (protocol : Nat) : World :=
  (world.updateProtocol protocol fun protocol =>
    { protocol with connection := none, deleted := true }).resetOutputBuffer
      protocol

/-- `Protocol::releaseProtocol`. -/
def releaseProtocol (world : World) (protocol : Nat) : World :=
  if (world.protocols protocol).refCount > 0 then
    world.addEvent (.releaseProtocol protocol)
  else world.deleteProtocolTask protocol

/-- `Connection::deleteConnectionTask`. -/
def deleteConnectionTask (world : World) (connection : Nat) : World :=
  world.updateConnection connection fun connection =>
    { connection with deleted := true }

/-- `Connection::releaseConnection`. -/
def releaseConnection (world : World) (connection : Nat) : World :=
  if (world.connections connection).refCount > 0 then
    world.addEvent (.releaseConnection connection)
  else world.deleteConnectionTask connection

/-- The protocol of a connection is released, in `closeConnectionTask`. -/
def releaseOwnProtocol (world : World) (connection : Nat) : World :=
  match (world.connections connection).protocol with
  | none => world
  | some protocol =>
      let world := world.updateProtocol protocol fun protocol =>
        { protocol with connection := none }
      let world := world.releaseProtocol protocol
      world.updateConnection connection fun connection =>
        { connection with protocol := none }

/-- `Connection::closeConnectionTask`. -/
def closeConnectionTask (world : World) (connection : Nat) : World :=
  if (world.connections connection).connectionState ≠ .requestClose then world
  else
    let world := world.releaseOwnProtocol connection
    let world := world.updateConnection connection fun connection =>
      { connection with connectionState := .closing }
    if (world.connections connection).pendingWrite = false ∨
        (world.connections connection).writeError then
      let world := world.updateConnection connection fun connection =>
        { connection with pendingWrite := false }
      let world := world.releaseConnection connection
      world.updateConnection connection fun connection =>
        { connection with connectionState := .closed }
    else world

/-! ## Sending -/

/-- `Connection::send`. -/
def connectionSend
    (world : World)
    (connection message : Nat)
    (write : Write) : Bool × World :=
  if (world.connections connection).connectionState ≠ .open ∨
      (world.connections connection).writeError then (false, world)
  else if (world.connections connection).pendingWrite then
    (true, { world with toAddQueue := world.toAddQueue ++ [message] })
  else
    let world := world.onSendMessage message
    let world := world.updateConnection connection fun connection =>
      { connection with
        pendingWrite := write.pendingWrite
        writeError := write.writeError }
    (true, if write.closes then world.closeConnection connection else world)

/-- A message is sent to its connection, and reported to its protocol if that
fails. -/
def sendOrReport (world : World) (message : Nat) (write : Write) : World :=
  match (world.messages message).connection with
  | none => world
  | some connection =>
      match world.connectionSend connection message write with
      | (true, world) => world
      | (false, world) => world.onSendMessage message

/-- `OutputMessagePool::send`. -/
def send (world : World) (message : Nat) (write : Write) : World :=
  if (world.messages message).state = .allocatedNoAutosend then
    world.sendOrReport message write
  else world

/-- One turn of the loop of `sendAll` over `m_toAddQueue`. -/
def addToSend
    (world : World)
    (old : Bool)
    (message : Nat)
    (rest : List Nat) : World :=
  if old then
    let world := world.onSendMessage message
    { world with toAddQueue := rest }.dropped message
  else
    let world := world.updateMessage message fun message =>
      { message with state := .allocated }
    { world with
      autoSend := world.autoSend ++ [message], toAddQueue := rest }

/-- One turn of the loop of `sendAll` over `m_autoSendOutputMessages`; `omsg`
holds the message meanwhile. -/
def sendNext
    (world : World)
    (write : Write)
    (message : Nat)
    (rest : List Nat) : World :=
  let world := { world with held := message :: world.held }
  let world := world.sendOrReport message write
  let world := { world with autoSend := rest }
  { world with held := world.held.erase message }.dropped message

/-- The loop of `sendAll` over `m_toAddQueue`. -/
def addAllToSend (old : Nat → Bool) : List Nat → World → World
  | [], world => world
  | message :: rest, world =>
      addAllToSend old rest (world.addToSend (old message) message rest)

/-- The loop of `sendAll` over `m_autoSendOutputMessages`. -/
def sendEach (write : Nat → Write) : List Nat → World → World
  | [], world => world
  | message :: rest, world =>
      sendEach write rest (world.sendNext (write message) message rest)

/-- `OutputMessagePool::sendAll`. -/
def sendAll (world : World) (old : Nat → Bool) (write : Nat → Write) : World :=
  let world := addAllToSend old world.toAddQueue world
  sendEach write world.autoSend world

/-- A pointer that is held goes. -/
def drop (world : World) (message : Nat) : World :=
  { world with held := world.held.erase message }.dropped message

/-- `Protocol::write`, unless it follows a null pointer. -/
def write
    (world : World)
    (protocol size : Nat)
    (write : Write) : Option World :=
  match world.getOutputMessage protocol false with
  | (none, _) => none
  | (some message, world) =>
      let world := world.updateMessage message fun message =>
        { message with msgSize := size, readPos := size }
      (world.protocols protocol).connection.map fun connection =>
        (world.connectionSend connection message write).2.drop message

/-! ## New connections -/

/-- `ServicePort::onAccept`: a new connection, with a protocol if its service
sends first. -/
def onAccept (world : World) (singleSocket : Bool) : World :=
  let connection := world.connectionCount
  let protocol := world.protocolCount
  if singleSocket then
    { world with
      connections := Function.update world.connections connection
        { protocol := some protocol }
      connectionCount := connection + 1
      protocols := Function.update world.protocols protocol
        { connection := some connection }
      protocolCount := protocol + 1 }
  else
    { world with
      connections := Function.update world.connections connection {}
      connectionCount := connection + 1 }

/-- `Connection::parsePacket` makes the protocol of an open connection. -/
def makeProtocol (world : World) (connection : Nat) : Option World :=
  if connection < world.connectionCount ∧
      (world.connections connection).connectionState = .open ∧
      (world.connections connection).protocol = none then
    let protocol := world.protocolCount
    let world := world.updateConnection connection fun connection =>
      { connection with protocol := some protocol }
    some
      { world with
        protocols := Function.update world.protocols protocol
          { connection := some connection }
        protocolCount := protocol + 1 }
  else none

/-- `Telnet::parseFirstPacket`: `addRef`, and `unRef` in `connect`. -/
def parseFirstPacket (world : World) (protocol : Nat) : World :=
  (world.updateProtocol protocol fun protocol =>
    { protocol with refCount := protocol.refCount + 1 }).updateProtocol
      protocol fun protocol =>
        { protocol with refCount := protocol.refCount - 1 }

/-- The dispatcher runs a task. -/
def perform (world : World) : Task → World
  | .releaseMessage message => world.internalReleaseMessage message
  | .closeConnection connection => world.closeConnectionTask connection
  | .event (.releaseProtocol protocol) => world.releaseProtocol protocol
  | .event (.releaseConnection connection) =>
      world.releaseConnection connection

end World

/-! ## Runs -/

/-- What can happen. -/
inductive Action
  /-- `startExecutionFrame`. -/
  | startExecutionFrame (time : Nat)
  /-- `OutputMessagePool::stop`. -/
  | stop
  /-- A client connects. -/
  | onAccept (singleSocket : Bool)
  /-- The first packet of a connection without a protocol arrives. -/
  | makeProtocol (connection : Nat)
  /-- A protocol parses its first packet. -/
  | parseFirstPacket (protocol : Nat)
  /-- A message is asked for. -/
  | getOutputMessage (protocol : Nat) (autosend : Bool)
  /-- The output buffer of a protocol is asked for. -/
  | getOutputBuffer (protocol : Nat)
  /-- A pointer to a message is copied. -/
  | copy (message : Nat)
  /-- A pointer to a message goes. -/
  | drop (message : Nat)
  /-- Text is added to a message. -/
  | add (message size : Nat)
  /-- A message is sent. -/
  | send (message : Nat) (write : Write)
  /-- A protocol writes a text. -/
  | write (protocol size : Nat) (write : Write)
  /-- The dispatcher sends what is to be sent by itself. -/
  | sendAll (old : Nat → Bool) (write : Nat → Write)
  /-- `closeConnection` is called. -/
  | closeConnection (connection : Nat)
  /-- A write takes too long. -/
  | onWriteTimeout (connection : Nat)
  /-- An event is due. -/
  | due (event : Event)
  /-- The dispatcher runs its first task. -/
  | runTask

/-- What an action does. -/
def step (world : World) : Action → Option World
  | .startExecutionFrame time =>
      some { world with frameTime := time, isOpen := true }
  | .stop => some { world with isOpen := false }
  | .onAccept singleSocket => some (world.onAccept singleSocket)
  | .makeProtocol connection => world.makeProtocol connection
  | .parseFirstPacket protocol => some (world.parseFirstPacket protocol)
  | .getOutputMessage protocol autosend =>
      some (world.getOutputMessage protocol autosend).2
  | .getOutputBuffer protocol => some (world.getOutputBuffer protocol)
  | .copy message =>
      if message ∈ world.pointers then
        some { world with held := message :: world.held }
      else none
  | .drop message =>
      if message ∈ world.held then some (world.drop message) else none
  | .add message size =>
      if message ∈ world.pointers then
        some
          (world.updateMessage message fun message =>
            { message with
              msgSize := message.msgSize + size
              readPos := message.readPos + size })
      else none
  | .send message write =>
      if message ∈ world.held then some (world.send message write) else none
  | .write protocol size write => world.write protocol size write
  | .sendAll old write => some (world.sendAll old write)
  | .closeConnection connection =>
      if connection < world.connectionCount then
        some (world.closeConnection connection)
      else none
  | .onWriteTimeout connection =>
      if connection < world.connectionCount then
        some (world.onWriteTimeout connection)
      else none
  | .due event =>
      if event ∈ world.events then
        some
          { world with
            events := world.events.erase event
            tasks := world.tasks ++ [.event event] }
      else none
  | .runTask =>
      match world.tasks with
      | [] => none
      | task :: rest => some ({ world with tasks := rest }.perform task)

/-- `OUTPUT_POOL_SIZE`. -/
def outputPoolSize : Nat := 100

/-- The pool after its constructor. -/
def machine : Machine World Action where
  start :=
    { created := outputPoolSize
      outputMessages := (List.range outputPoolSize).reverse }
  step := step

end OutputPool
end Network
end Lotospp
