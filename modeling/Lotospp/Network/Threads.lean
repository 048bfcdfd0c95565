import Lotospp.Effect.Locks
import Lotospp.Socket.Connection

/-!
# The threads of the server

The handlers of the io service, the tasks of the dispatcher and the events of
the scheduler run in three threads, which share the locks of the connections,
of the pool of messages and of some lists.  Each function is modelled by the
locks that it acquires and releases, in the order of the source; on what it
finds in the members it reads, and on what the sockets and timers do, depends
which branch it takes.

A handler that holds a connection's lock acquires the pool's lock to write.
`OutputMessagePool::sendAll` holds the pool's lock while it acquires the
connection's lock, and that is the only function that acquires locks against
their order.

The functions are followed as they return.  One that is left by an exception
between `lock` and `unlock` (a session that throws, a timer that cannot be
cancelled) keeps the lock for ever; that is left out here.
-/

namespace Lotospp
namespace Network
namespace Threads

open Common Effect
open Socket (ErrorCode)

/-- The locks that the threads share. -/
inductive Lock
  /-- `Connection::m_connectionLock` of a connection. -/
  | connectionLock (connection : Nat)
  /-- `OutputMessagePool::m_outputPoolLock`. -/
  | outputPoolLock
  /-- `Dispatcher::m_taskLock`. -/
  | taskLock
  /-- `Scheduler::m_eventLock`. -/
  | eventLock
  /-- `ConnectionManager::m_connectionManagerLock`. -/
  | connectionManagerLock
  /-- `AutoID::autoIDLock`. -/
  | autoIDLock
  /-- `Query::database_lock`. -/
  | databaseLock
  deriving DecidableEq, Repr

/-- The locks of the dispatcher and the scheduler are plain mutexes. -/
def Lock.recursive : Lock → Bool
  | .taskLock | .eventLock => false
  | _ => true

/-- What a function does to the locks. -/
abbrev LockUse := List (LockOp Lock)

/-! ## Tasks and messages -/

/-- `Dispatcher::addTask`. -/
def addTask : LockUse :=
  locked .taskLock []

/-- `Scheduler::addEvent`. -/
def addEvent : LockUse :=
  locked .eventLock []

/-- `OutputMessagePool::releaseMessage`. -/
def releaseMessage : LockUse :=
  addTask

/-- `OutputMessagePool::internalReleaseMessage`. -/
def internalReleaseMessage : LockUse :=
  locked .outputPoolLock []

/-- `OutputMessagePool::getOutputMessage` of an open pool. -/
def getOutputMessage : LockUse :=
  locked .outputPoolLock []

/-- `OutputMessagePool::addToAutoSend`. -/
def addToAutoSend : LockUse :=
  locked .outputPoolLock []

/-! ## Connections -/

/-- `Connection::closeConnection`, with `m_connectionState`. -/
def closeConnection (connection : Nat) (state : ConnectionState) : LockUse :=
  locked (.connectionLock connection)
    (if state = .closed ∨ state = .requestClose then [] else addTask)

/-- `Connection::closeSocket`. -/
def closeSocket (connection : Nat) : LockUse :=
  locked (.connectionLock connection) []

/-- What an error calls for. -/
def closeOnError
    (connection : Nat)
    (state : ConnectionState) : ErrorCode → LockUse
  | .operationAborted => []
  | .eof => closeConnection connection state
  | .connectionReset | .connectionAborted => closeConnection connection state
  | .other => closeConnection connection state

/-- `m_connectionState` after an error. -/
def stateAfter (state : ConnectionState) : ErrorCode → ConnectionState
  | .operationAborted => state
  | _ => if state = .closed then .closed else .requestClose

/-- `Connection::handleReadError`. -/
def handleReadError
    (connection : Nat)
    (state : ConnectionState)
    (error : ErrorCode) : LockUse :=
  locked (.connectionLock connection) (closeOnError connection state error)

/-- `Connection::handleWriteError`. -/
def handleWriteError
    (connection : Nat)
    (state : ConnectionState)
    (error : ErrorCode) : LockUse :=
  locked (.connectionLock connection) (closeOnError connection state error)

/-- `Connection::onWriteOperation`, called for an open connection without a
write error. -/
def onWriteOperation (connection : Nat) (error : Option ErrorCode) : LockUse :=
  locked (.connectionLock connection)
    (match error with
      | none => []
      | some error =>
          handleWriteError connection .open error ++ closeSocket connection ++
            closeConnection connection (stateAfter .open error))

/-- `Connection::onWriteTimeout` and `Connection::onReadTimeout`, with
`m_connectionState` if something is pending. -/
def onTimeout (connection : Nat) (pending : Option ConnectionState) : LockUse :=
  locked (.connectionLock connection)
    (pending.elim [] fun state =>
      closeSocket connection ++ closeConnection connection state)

/-- `Connection::onStopOperation`, and in it
`ConnectionManager::releaseConnection`. -/
def onStopOperation (connection : Nat) : LockUse :=
  locked (.connectionLock connection) [] ++ locked .connectionManagerLock []

/-! ## Writing -/

/-- What becomes of a message in `Connection::send`. -/
inductive Sending
  /-- The connection is not open, or has a write error. -/
  | refused
  /-- A write is pending. -/
  | queued
  /-- The timer throws before the message is written. -/
  | timerThrows
  /-- The message is written, with or without an error. -/
  | written (error : Option ErrorCode)
  deriving DecidableEq, Repr

/-- `Connection::send`, and in it `Connection::internalSend`. -/
def send (connection : Nat) (sending : Sending) : LockUse :=
  locked (.connectionLock connection)
    (match sending with
      | .refused => []
      | .queued => addToAutoSend
      | .timerThrows => []
      | .written error => onWriteOperation connection error)

/-- The caller's pointer to the message goes, which is the last one unless the
message waits in the pool. -/
def dropMessage : Sending → LockUse
  | .queued => []
  | _ => releaseMessage

/-- `Protocol::write`. -/
def write (connection : Nat) (sending : Sending) : LockUse :=
  getOutputMessage ++ send connection sending ++ dropMessage sending

/-- `OutputMessagePool::send`. -/
def sendMessage (connection : Nat) (sending : Sending) : LockUse :=
  locked .outputPoolLock [] ++ send connection sending

/-- `Telnet::sendEchoOn` and the other functions that send a message of their
own. -/
def sendCommand (connection : Nat) (sending : Sending) : LockUse :=
  getOutputMessage ++ sendMessage connection sending ++ dropMessage sending

/-- A message in the pool, with its connection. -/
abbrev QueuedMessage := Option (Nat × Sending)

/-- `OutputMessagePool::sendAll` with one message of the list. -/
def sendQueued : QueuedMessage → LockUse
  | none => releaseMessage
  | some (connection, sending) =>
      send connection sending ++ dropMessage sending

/-- `OutputMessagePool::sendAll`, which drops so many old messages. -/
def sendAll (old : Nat) (messages : List QueuedMessage) : LockUse :=
  locked .outputPoolLock
    ((List.range old).flatMap (fun _ => releaseMessage) ++
      messages.flatMap sendQueued)

/-! ## The io service -/

/-- What a session does while it handles a packet. -/
inductive Act
  /-- It writes to the user of a connection. -/
  | write (connection : Nat) (sending : Sending)
  /-- It sends a telnet command. -/
  | sendCommand (connection : Nat) (sending : Sending)
  /-- It closes a connection, its own or another. -/
  | closeConnection (connection : Nat) (state : ConnectionState)
  /-- It makes a user, with `AutoID::AutoID`. -/
  | autoID
  /-- It asks the database, and holds a `Query` meanwhile. -/
  | query
  deriving DecidableEq, Repr

/-- The locks that a session uses. -/
def Act.lockUse : Act → LockUse
  | .write connection sending => Threads.write connection sending
  | .sendCommand connection sending => Threads.sendCommand connection sending
  | .closeConnection connection state =>
      Threads.closeConnection connection state
  | .autoID => locked .autoIDLock []
  | .query => locked .databaseLock []

/-- What `Connection::parsePacket` finds. -/
inductive Reading
  /-- A read error, or a connection that is not open any more. -/
  | closes (error : Option ErrorCode) (state : ConnectionState)
  /-- The service makes no protocol. -/
  | noProtocol
  /-- A packet; if the next read throws, `m_connectionState` then. -/
  | packet (acts : List Act) (throws : Option ConnectionState)
  deriving DecidableEq, Repr

/-- `Connection::parsePacket`. -/
def parsePacket (connection : Nat) (reading : Reading) : LockUse :=
  locked (.connectionLock connection)
    (match reading with
      | .closes none state => closeConnection connection state
      | .closes (some error) state =>
          handleReadError connection state error ++
            closeConnection connection (stateAfter state error)
      | .noProtocol => closeConnection connection .open
      | .packet acts throws =>
          acts.flatMap Act.lockUse ++
            throws.elim [] (closeConnection connection))

/-- What `ServicePort::onAccept` finds. -/
inductive Acceptance
  /-- A connection, which may be greeted; if its first read throws,
  `m_connectionState` then. -/
  | accepted (greeting : Option Sending) (throws : Option ConnectionState)
  /-- No connection; the port may be opened again later. -/
  | failed (reopens : Bool)
  deriving DecidableEq, Repr

/-- `ServicePort::onAccept`, and in it `ConnectionManager::createConnection`
and `Connection::acceptConnection`. -/
def onAccept (connection : Nat) : Acceptance → LockUse
  | .accepted greeting throws =>
      locked .connectionManagerLock [] ++
        greeting.elim [] (sendCommand connection) ++
        throws.elim [] (closeConnection connection)
  | .failed reopens => if reopens then addEvent else []

/-- A handler of the io service. -/
inductive Handler
  | onAccept (connection : Nat) (acceptance : Acceptance)
  | parsePacket (connection : Nat) (reading : Reading)
  | onTimeout (connection : Nat) (pending : Option ConnectionState)
  | onStopOperation (connection : Nat)
  deriving DecidableEq, Repr

/-- The locks that a handler uses. -/
def Handler.lockUse : Handler → LockUse
  | .onAccept connection acceptance => Threads.onAccept connection acceptance
  | .parsePacket connection reading => Threads.parsePacket connection reading
  | .onTimeout connection pending => Threads.onTimeout connection pending
  | .onStopOperation connection => Threads.onStopOperation connection

/-! ## The dispatcher and the scheduler -/

/-- `Protocol::releaseProtocol`; a protocol without references is deleted. -/
def releaseProtocol (referenced : Bool) : LockUse :=
  if referenced then addEvent else []

/-- `Connection::releaseConnection`; a connection without references leaves
a handler to the io service. -/
def releaseConnection (referenced : Bool) : LockUse :=
  if referenced then addEvent else []

/-- What `Connection::closeConnectionTask` finds. -/
inductive Closing
  /-- The connection is not in `CONNECTION_STATE_REQUEST_CLOSE`. -/
  | wrongState
  /-- Whether there is a protocol, and whether the socket is to be closed; and
  whether what is released is still referenced. -/
  | closes (protocol socket : Option Bool)
  deriving DecidableEq, Repr

/-- `Connection::closeConnectionTask`. -/
def closeConnectionTask (connection : Nat) (closing : Closing) : LockUse :=
  locked (.connectionLock connection)
    (match closing with
      | .wrongState => []
      | .closes protocol socket =>
          protocol.elim [] releaseProtocol ++
            socket.elim [] fun referenced =>
              closeSocket connection ++ releaseConnection referenced)

/-- `ServicePort::open`, which tries again later if it fails. -/
def openPort (throws : Bool) : LockUse :=
  if throws then addEvent else []

/-- A task of the dispatcher. -/
inductive Task
  | closeConnectionTask (connection : Nat) (closing : Closing)
  | releaseConnection (referenced : Bool)
  | releaseProtocol (referenced : Bool)
  | internalReleaseMessage
  | openPort (throws : Bool)
  deriving DecidableEq, Repr

/-- The locks that a task uses. -/
def Task.lockUse : Task → LockUse
  | .closeConnectionTask connection closing =>
      Threads.closeConnectionTask connection closing
  | .releaseConnection referenced => Threads.releaseConnection referenced
  | .releaseProtocol referenced => Threads.releaseProtocol referenced
  | .internalReleaseMessage => Threads.internalReleaseMessage
  | .openPort throws => Threads.openPort throws

/-- A task that the dispatcher runs, and what it then finds in the pool. -/
structure Frame where
  task : Task
  /-- How many messages are too old. -/
  old : Nat
  /-- The other messages. -/
  messages : List QueuedMessage
  deriving DecidableEq, Repr

/-- The locks that a task and `sendAll` use. -/
def Frame.lockUse (frame : Frame) : LockUse :=
  frame.task.lockUse ++ sendAll frame.old frame.messages

/-- A turn of the dispatcher's loop. -/
structure Turn where
  /-- The list of tasks is empty, and the dispatcher waits for a signal. -/
  waits : Bool
  /-- The task that is taken and has not expired. -/
  frame : Option Frame
  deriving DecidableEq, Repr

/-- The locks that a turn of the dispatcher's loop uses. -/
def Turn.lockUse (turn : Turn) : LockUse :=
  locked .taskLock [] ++ (if turn.waits then locked .taskLock [] else []) ++
    turn.frame.elim [] Frame.lockUse

/-- `Dispatcher::dispatcherThread`. -/
def dispatcherThread (turns : List Turn) : LockUse :=
  turns.flatMap Turn.lockUse

/-- `Scheduler::schedulerThread`, which waits in every turn and may then add
the event's task. -/
def schedulerThread (fires : List Bool) : LockUse :=
  fires.flatMap fun fires =>
    locked .eventLock [] ++ locked .eventLock [] ++
      if fires then addTask else []

/-- The threads of the server. -/
inductive Runner
  | ioService
  | dispatcher
  | scheduler
  deriving DecidableEq, Repr

instance : Fintype Runner where
  elems := {.ioService, .dispatcher, .scheduler}
  complete runner := by cases runner <;> simp

/-- What the threads run. -/
def programs
    (handlers : List Handler)
    (turns : List Turn)
    (fires : List Bool) : Runner → LockUse
  | .ioService => handlers.flatMap Handler.lockUse
  | .dispatcher => dispatcherThread turns
  | .scheduler => schedulerThread fires

/-! ## What functions may be called with which locks held -/

/-- With locks held of which something holds, the functions of a connection
may be called. -/
structure Admits
    (allowed : List Lock → Lock → Prop)
    (connection : Nat)
    (holds : List Lock → Prop) : Prop where
  task : ∀ held, holds held → allowed held .taskLock
  event : ∀ held, holds held → allowed held .eventLock
  outputPool : ∀ held, holds held → allowed held .outputPoolLock
  connectionLock : ∀ held, holds held →
    allowed held (.connectionLock connection)
  again : ∀ held, holds held → holds (.connectionLock connection :: held)

namespace Admits

variable {allowed : List Lock → Lock → Prop} {connection : Nat}
variable {holds : List Lock → Prop} {held : List Lock}

/-- A function that keeps the connection locked. -/
theorem locks
    (admits : Admits allowed connection holds)
    (now : holds held)
    {inside : LockUse}
    (nests : ∀ held, holds held → Nests allowed held inside) :
    Nests allowed held (locked (.connectionLock connection) inside) :=
  Nests.locked (admits.connectionLock held now)
    (nests _ (admits.again held now))

theorem addTask
    (admits : Admits allowed connection holds)
    (now : holds held) :
    Nests allowed held addTask :=
  Nests.locked (admits.task held now) Nests.nil

theorem addEvent
    (admits : Admits allowed connection holds)
    (now : holds held) :
    Nests allowed held addEvent :=
  Nests.locked (admits.event held now) Nests.nil

theorem usesPool
    (admits : Admits allowed connection holds)
    (now : holds held) :
    Nests allowed held (locked .outputPoolLock []) :=
  Nests.locked (admits.outputPool held now) Nests.nil

theorem closeConnection
    (admits : Admits allowed connection holds)
    (state : ConnectionState)
    (now : holds held) :
    Nests allowed held (closeConnection connection state) := by
  refine admits.locks now fun held now => ?_
  split
  · exact Nests.nil
  · exact admits.addTask now

theorem closeSocket
    (admits : Admits allowed connection holds)
    (now : holds held) :
    Nests allowed held (closeSocket connection) :=
  admits.locks now fun _ _ => Nests.nil

theorem closeOnError
    (admits : Admits allowed connection holds)
    (state : ConnectionState)
    (error : ErrorCode)
    (now : holds held) :
    Nests allowed held (closeOnError connection state error) := by
  cases error with
  | operationAborted => exact Nests.nil
  | eof => exact admits.closeConnection state now
  | connectionReset => exact admits.closeConnection state now
  | connectionAborted => exact admits.closeConnection state now
  | other => exact admits.closeConnection state now

theorem handleError
    (admits : Admits allowed connection holds)
    (state : ConnectionState)
    (error : ErrorCode)
    (now : holds held) :
    Nests allowed held
      (locked (.connectionLock connection)
        (Threads.closeOnError connection state error)) :=
  admits.locks now fun _ now => admits.closeOnError state error now

theorem onWriteOperation
    (admits : Admits allowed connection holds)
    (error : Option ErrorCode)
    (now : holds held) :
    Nests allowed held (onWriteOperation connection error) := by
  refine admits.locks now fun held now => ?_
  cases error with
  | none => exact Nests.nil
  | some error =>
      exact ((admits.handleError .open error now).append
        (admits.closeSocket now)).append (admits.closeConnection _ now)

theorem send
    (admits : Admits allowed connection holds)
    (sending : Sending)
    (now : holds held) :
    Nests allowed held (send connection sending) := by
  refine admits.locks now fun held now => ?_
  cases sending with
  | refused => exact Nests.nil
  | queued => exact admits.usesPool now
  | timerThrows => exact Nests.nil
  | written error => exact admits.onWriteOperation error now

theorem dropMessage
    (admits : Admits allowed connection holds)
    (sending : Sending)
    (now : holds held) :
    Nests allowed held (dropMessage sending) := by
  cases sending with
  | queued => exact Nests.nil
  | refused => exact admits.addTask now
  | timerThrows => exact admits.addTask now
  | written error => exact admits.addTask now

theorem write
    (admits : Admits allowed connection holds)
    (sending : Sending)
    (now : holds held) :
    Nests allowed held (write connection sending) :=
  ((admits.usesPool now).append (admits.send sending now)).append
    (admits.dropMessage sending now)

theorem sendCommand
    (admits : Admits allowed connection holds)
    (sending : Sending)
    (now : holds held) :
    Nests allowed held (sendCommand connection sending) :=
  ((admits.usesPool now).append
    ((admits.usesPool now).append (admits.send sending now))).append
      (admits.dropMessage sending now)

theorem sendQueued
    (admits : Admits allowed connection holds)
    (sending : Sending)
    (now : holds held) :
    Nests allowed held (sendQueued (some (connection, sending))) :=
  (admits.send sending now).append (admits.dropMessage sending now)

theorem onTimeout
    (admits : Admits allowed connection holds)
    (pending : Option ConnectionState)
    (now : holds held) :
    Nests allowed held (onTimeout connection pending) := by
  refine admits.locks now fun held now => ?_
  cases pending with
  | none => exact Nests.nil
  | some state =>
      exact (admits.closeSocket now).append (admits.closeConnection state now)

/-- What has been released may be referenced still. -/
theorem addEvent_if
    (admits : Admits allowed connection holds)
    (referenced : Bool)
    (now : holds held) :
    Nests allowed held (if referenced then Threads.addEvent else []) := by
  cases referenced with
  | false => exact Nests.nil
  | true => exact admits.addEvent now

theorem closeConnectionTask
    (admits : Admits allowed connection holds)
    (closing : Closing)
    (now : holds held) :
    Nests allowed held (closeConnectionTask connection closing) := by
  refine admits.locks now fun held now => ?_
  cases closing with
  | wrongState => exact Nests.nil
  | closes protocol socket =>
      refine Nests.append ?_ ?_
      · cases protocol with
        | none => exact Nests.nil
        | some referenced => exact admits.addEvent_if referenced now
      · cases socket with
        | none => exact Nests.nil
        | some referenced =>
            exact (admits.closeSocket now).append
              (admits.addEvent_if referenced now)

end Admits

/-! ## The dispatcher's turns -/

/-- Locks that the dispatcher may acquire. -/
structure Dispatches (allowed : List Lock → Lock → Prop) : Prop where
  /-- With no lock held, it may call the functions of every connection. -/
  admits : ∀ connection, ∃ holds, Admits allowed connection holds ∧ holds []
  /-- In `sendAll` it may add a task. -/
  task : allowed [.outputPoolLock] .taskLock

namespace Dispatches

variable {allowed : List Lock → Lock → Prop}

theorem task_nests
    (dispatches : Dispatches allowed)
    (task : Task) :
    Nests allowed [] task.lockUse := by
  obtain ⟨holds, admits, now⟩ := dispatches.admits 0
  cases task with
  | closeConnectionTask connection closing =>
      obtain ⟨holds, admits, now⟩ := dispatches.admits connection
      exact admits.closeConnectionTask closing now
  | releaseConnection referenced => exact admits.addEvent_if referenced now
  | releaseProtocol referenced => exact admits.addEvent_if referenced now
  | internalReleaseMessage => exact admits.usesPool now
  | openPort throws => exact admits.addEvent_if throws now

theorem releaseMessage_nests (dispatches : Dispatches allowed) :
    Nests allowed [.outputPoolLock] releaseMessage :=
  Nests.locked dispatches.task Nests.nil

theorem old_nests
    (dispatches : Dispatches allowed)
    (old : Nat) :
    Nests allowed [.outputPoolLock]
      ((List.range old).flatMap fun _ => releaseMessage) :=
  Nests.flatMap fun _ _ => dispatches.releaseMessage_nests

theorem outputPool (dispatches : Dispatches allowed) :
    allowed [] .outputPoolLock := by
  obtain ⟨holds, admits, now⟩ := dispatches.admits 0
  exact admits.outputPool [] now

theorem waits_nests
    (dispatches : Dispatches allowed)
    (turn : Turn) :
    Nests allowed []
      (locked .taskLock [] ++
        if turn.waits then locked .taskLock [] else []) := by
  obtain ⟨holds, admits, now⟩ := dispatches.admits 0
  refine (admits.addTask now).append ?_
  split
  · exact admits.addTask now
  · exact Nests.nil

/-- A turn is as good as the messages that `sendAll` sends. -/
theorem turn_nests
    (dispatches : Dispatches allowed)
    {turn : Turn}
    (sends : ∀ frame, turn.frame = some frame →
      ∀ message ∈ frame.messages,
        Nests allowed [.outputPoolLock] (sendQueued message)) :
    Nests allowed [] turn.lockUse := by
  refine (dispatches.waits_nests turn).append ?_
  cases found : turn.frame with
  | none => exact Nests.nil
  | some frame =>
      refine (dispatches.task_nests frame.task).append ?_
      exact Nests.locked dispatches.outputPool
        ((dispatches.old_nests frame.old).append
          (Nests.flatMap (sends frame found)))

/-- A turn in which a message is sent comes to acquire the connection's lock
while the dispatcher holds the pool's lock. -/
theorem turn_arrives
    (dispatches : Dispatches allowed)
    {turn : Turn}
    {frame : Frame}
    (found : turn.frame = some frame)
    (sends : ∀ message ∈ frame.messages,
      Nests allowed [.outputPoolLock] (sendQueued message))
    {connection : Nat}
    {sending : Sending}
    (member : some (connection, sending) ∈ frame.messages) :
    Arrives allowed [] turn.lockUse [.outputPoolLock]
      (.connectionLock connection) := by
  refine Arrives.after (dispatches.waits_nests turn) ?_
  rw [found]
  refine Arrives.after (dispatches.task_nests frame.task) ?_
  refine Arrives.inside dispatches.outputPool ?_
  refine Arrives.after (dispatches.old_nests frame.old) ?_
  exact Arrives.flatMap sends member ((Arrives.locked _ _).before _)

end Dispatches

/-! ## The order of the locks -/

/-- A connection's lock comes first, then the pool's, then the others. -/
def Lock.rank : Lock → Nat
  | .connectionLock _ => 0
  | .outputPoolLock => 1
  | _ => 2

/-- Only the io service holds the locks of several connections. -/
def order : LockOrder Lock Runner where
  recursive := Lock.recursive
  rank := Lock.rank
  leader _ := .ioService

/-- No lock but those of connections is held. -/
def OnlyConnections (held : List Lock) : Prop :=
  ∀ lock ∈ held, lock.rank = 0

namespace OnlyConnections

variable {held : List Lock}

theorem nil : OnlyConnections [] := by
  simp [OnlyConnections]

theorem cons
    (only : OnlyConnections held)
    (connection : Nat) :
    OnlyConnections (.connectionLock connection :: held) :=
  List.forall_mem_cons.mpr ⟨rfl, only⟩

theorem allows
    (only : OnlyConnections held)
    (runner : Runner)
    {lock : Lock}
    (high : 0 < lock.rank) :
    order.Allows runner held lock := by
  refine LockOrder.allows_of_lt runner fun other member => ?_
  rw [show order.rank other = 0 from only other member]
  exact high

end OnlyConnections

/-- The io service may hold one connection while it acquires another. -/
theorem ioService_admits (connection : Nat) :
    Admits (order.Allows .ioService) connection OnlyConnections where
  task _ only := only.allows _ (by decide)
  event _ only := only.allows _ (by decide)
  outputPool _ only := only.allows _ (by decide)
  connectionLock _ only :=
    ⟨fun _ => rfl, .inr fun other member => .inr ⟨only other member, rfl⟩⟩
  again _ only := only.cons connection

/-- The dispatcher holds at most the connection that it acquires. -/
theorem dispatcher_admits (connection : Nat) :
    Admits (order.Allows .dispatcher) connection fun held =>
      OnlyConnections held ∧ (held = [] ∨ .connectionLock connection ∈ held) where
  task _ holds := holds.1.allows _ (by decide)
  event _ holds := holds.1.allows _ (by decide)
  outputPool _ holds := holds.1.allows _ (by decide)
  connectionLock held holds := by
    refine ⟨fun _ => rfl, ?_⟩
    rcases holds.2 with rfl | member
    · exact .inr (by simp)
    · exact .inl member
  again _ holds := ⟨holds.1.cons connection, .inr List.mem_cons_self⟩

theorem dispatches : Dispatches (order.Allows .dispatcher) where
  admits connection :=
    ⟨_, dispatcher_admits connection, OnlyConnections.nil, .inl rfl⟩
  task := LockOrder.allows_of_lt _ (by simp [order, Lock.rank])

/-- The dispatcher's mutex and the scheduler's are free. -/
def NoMutex (held : List Lock) : Prop :=
  .taskLock ∉ held ∧ .eventLock ∉ held

/-- A thread that is alone only has to leave the mutexes that it holds. -/
theorem alone_admits (connection : Nat) :
    Admits (Alone Lock.recursive) connection NoMutex where
  task _ free member := absurd member free.1
  event _ free member := absurd member free.2
  outputPool _ _ _ := rfl
  connectionLock _ _ _ := rfl
  again _ free := ⟨by simpa using free.1, by simpa using free.2⟩

theorem alone_dispatches : Dispatches (Alone Lock.recursive) where
  admits connection := ⟨_, alone_admits connection, by simp [NoMutex]⟩
  task := by simp [Alone]

theorem alone_sends (message : QueuedMessage) :
    Nests (Alone Lock.recursive) [.outputPoolLock] (sendQueued message) := by
  cases message with
  | none => exact alone_dispatches.releaseMessage_nests
  | some sent => exact (alone_admits sent.1).sendQueued sent.2 (by simp [NoMutex])

/-! ## Handlers -/

theorem Act.nests
    {held : List Lock}
    (only : OnlyConnections held)
    (act : Act) :
    Nests (order.Allows .ioService) held act.lockUse := by
  cases act with
  | write connection sending =>
      exact (ioService_admits connection).write sending only
  | sendCommand connection sending =>
      exact (ioService_admits connection).sendCommand sending only
  | closeConnection connection state =>
      exact (ioService_admits connection).closeConnection state only
  | autoID => exact Nests.locked (only.allows _ (by decide)) Nests.nil
  | query => exact Nests.locked (only.allows _ (by decide)) Nests.nil

theorem parsePacket_nests
    (connection : Nat)
    (reading : Reading) :
    Nests (order.Allows .ioService) [] (parsePacket connection reading) := by
  have admits := ioService_admits connection
  refine admits.locks OnlyConnections.nil fun held only => ?_
  match reading with
  | .closes none state => exact admits.closeConnection state only
  | .closes (some error) state =>
      exact (admits.handleError state error only).append
        (admits.closeConnection _ only)
  | .noProtocol => exact admits.closeConnection .open only
  | .packet acts throws =>
      refine (Nests.flatMap fun act _ => act.nests only).append ?_
      cases throws with
      | none => exact Nests.nil
      | some state => exact admits.closeConnection state only

theorem onAccept_nests
    (connection : Nat)
    (acceptance : Acceptance) :
    Nests (order.Allows .ioService) [] (onAccept connection acceptance) := by
  have admits := ioService_admits connection
  have only := OnlyConnections.nil
  cases acceptance with
  | accepted greeting throws =>
      refine ((Nests.locked (only.allows _ (by decide)) Nests.nil).append
        ?_).append ?_
      · cases greeting with
        | none => exact Nests.nil
        | some sending => exact admits.sendCommand sending only
      · cases throws with
        | none => exact Nests.nil
        | some state => exact admits.closeConnection state only
  | failed reopens => exact admits.addEvent_if reopens only

theorem Handler.nests (handler : Handler) :
    Nests (order.Allows .ioService) [] handler.lockUse := by
  have only := OnlyConnections.nil
  cases handler with
  | onAccept connection acceptance => exact onAccept_nests connection acceptance
  | parsePacket connection reading => exact parsePacket_nests connection reading
  | onTimeout connection pending =>
      exact (ioService_admits connection).onTimeout pending only
  | onStopOperation connection =>
      exact ((ioService_admits connection).closeSocket only).append
        (Nests.locked (only.allows _ (by decide)) Nests.nil)

theorem scheduler_nests (fires : List Bool) :
    Nests (order.Allows .scheduler) [] (schedulerThread fires) := by
  have only := OnlyConnections.nil
  refine Nests.flatMap fun fires _ => ?_
  refine ((Nests.locked (only.allows _ (by decide)) Nests.nil).append
    (Nests.locked (only.allows _ (by decide)) Nests.nil)).append ?_
  cases fires with
  | false => exact Nests.nil
  | true => exact Nests.locked (only.allows _ (by decide)) Nests.nil

/-! ## All threads together -/

/-- In this turn `sendAll` finds a message with a connection. -/
def Turn.Sends (turn : Turn) : Prop :=
  ∃ frame, turn.frame = some frame ∧
    ∃ connection sending, some (connection, sending) ∈ frame.messages

theorem dispatcher_nests
    {turns : List Turn}
    (quiet : ∀ turn ∈ turns, ¬turn.Sends) :
    Nests (order.Allows .dispatcher) [] (dispatcherThread turns) := by
  refine Nests.flatMap fun turn member => dispatches.turn_nests ?_
  intro frame found message queued
  cases message with
  | none => exact dispatches.releaseMessage_nests
  | some sent => exact absurd ⟨frame, found, _, _, queued⟩ (quiet turn member)

/-- The dispatcher comes to send a message to a connection. -/
theorem dispatcher_arrives
    {turns : List Turn}
    {turn : Turn}
    (member : turn ∈ turns)
    {frame : Frame}
    (found : turn.frame = some frame)
    {connection : Nat}
    {sending : Sending}
    (queued : some (connection, sending) ∈ frame.messages) :
    Arrives (Alone Lock.recursive) [] (dispatcherThread turns)
      [.outputPoolLock] (.connectionLock connection) := by
  refine Arrives.flatMap (fun other _ => ?_) member
    (alone_dispatches.turn_arrives found (fun message _ => alone_sends message)
      queued)
  exact alone_dispatches.turn_nests fun _ _ message _ => alone_sends message

/-- A handler that writes to the connection it has read from. -/
def echo (connection : Nat) : Handler :=
  .parsePacket connection (.packet [.write connection (.written none)] none)

/-- The handler comes to take a message from the pool. -/
theorem echo_arrives (connection : Nat) :
    Arrives
      (fun held lock => Alone Lock.recursive held lock ∧
        lock ∉ [Lock.outputPoolLock])
      [] ([echo connection].flatMap Handler.lockUse)
      [.connectionLock connection] .outputPoolLock := by
  refine Arrives.before (Arrives.inside ?_ ?_) _
  · simp [Alone]
  · exact ((((Arrives.locked _ _).before _).before _).before _).before _

/-- While the handler waits for the pool, the dispatcher waits for the
handler's connection. -/
theorem echo_blocks
    {turns : List Turn}
    {turn : Turn}
    (member : turn ∈ turns)
    {frame : Frame}
    (found : turn.frame = some frame)
    {connection : Nat}
    {sending : Sending}
    (queued : some (connection, sending) ∈ frame.messages)
    (fires : List Bool) :
    ¬AlwaysFinishes Lock.recursive
      (programs [echo connection] turns fires) := by
  have differ : Runner.dispatcher ≠ .ioService := by decide
  refine not_alwaysFinishes_of_crossed differ
    (dispatcher_arrives member found queued) (echo_arrives connection) ?_ ?_
  · exact List.mem_singleton_self _
  · exact List.mem_singleton_self _

/-- Whatever the handlers, the tasks and the events are, and whatever has
happened, the three threads can finish, unless `sendAll` finds a message to
send: then a handler may wait for the pool, and the dispatcher for the handler,
for ever. -/
theorem alwaysFinishes_iff
    (turns : List Turn)
    (fires : List Bool) :
    (∀ handlers, AlwaysFinishes Lock.recursive
      (programs handlers turns fires)) ↔
      ∀ turn ∈ turns, ¬turn.Sends := by
  constructor
  · intro finishes turn member sends
    obtain ⟨frame, found, connection, sending, queued⟩ := sends
    exact echo_blocks member found queued fires (finishes [echo connection])
  · intro quiet handlers
    refine @LockOrder.alwaysFinishes _ _ _ _ _ order _ fun runner => ?_
    cases runner with
    | ioService => exact Nests.flatMap fun handler _ => handler.nests
    | dispatcher => exact dispatcher_nests quiet
    | scheduler => exact scheduler_nests fires

end Threads
end Network
end Lotospp
