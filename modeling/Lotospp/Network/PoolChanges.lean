import Lotospp.Network.PoolMessages
import Mathlib.Logic.Relation

/-!
# What the functions of the pool change

Every function of the pool is a sequence of a few kinds of small changes.
What all of them keep, every run keeps.
-/

namespace Lotospp
namespace Network
namespace OutputPool

open Common Effect

namespace World

variable {world world' : World}

/-- Nothing but pointers to messages differs. -/
structure SameButPointers (world world' : World) : Prop where
  messages : world'.messages = world.messages
  created : world'.created = world.created
  outputMessages : world'.outputMessages = world.outputMessages
  protocolCount : world'.protocolCount = world.protocolCount
  connections : world'.connections = world.connections
  connectionCount : world'.connectionCount = world.connectionCount
  tasks : world'.tasks = world.tasks
  events : world'.events = world.events
  connection : ∀ protocol, (world'.protocols protocol).connection =
    (world.protocols protocol).connection
  refCount : ∀ protocol, (world'.protocols protocol).refCount =
    (world.protocols protocol).refCount
  deleted : ∀ protocol, (world'.protocols protocol).deleted =
    (world.protocols protocol).deleted

theorem SameButPointers.of_lists (world : World)
    (autoSend toAddQueue held : List Nat) :
    SameButPointers world
      { world with
        autoSend := autoSend, toAddQueue := toAddQueue, held := held } :=
  ⟨rfl, rfl, rfl, rfl, rfl, rfl, rfl, rfl, fun _ => rfl, fun _ => rfl,
    fun _ => rfl⟩

theorem SameButPointers.of_outputBuffer (world : World)
    (protocol : Nat) (outputBuffer : Option Nat) :
    SameButPointers world
      (world.updateProtocol protocol fun protocol =>
        { protocol with outputBuffer := outputBuffer }) := by
  refine ⟨rfl, rfl, rfl, rfl, rfl, rfl, rfl, rfl, ?_, ?_, ?_⟩ <;>
    intro other <;> by_cases same : other = protocol <;>
      simp [updateProtocol, same]

/-- The connection is closing and has no protocol any more. -/
def Detached (world : World) (connection : Nat) : Prop :=
  (world.connections connection).connectionState ≠ .open ∧
    (world.connections connection).protocol = none

/-- The event is still to be handled. -/
def Pending (world : World) (event : Event) : Prop :=
  event ∈ world.events ∨ .event event ∈ world.tasks

/-- What the event releases may be released. -/
def Ready (world : World) : Event → Prop
  | .releaseProtocol protocol => protocol < world.protocolCount
  | .releaseConnection connection => world.Detached connection

end World

open World

/-- The small changes. -/
inductive Change : World → World → Prop
  /-- Pointers are copied, or dropped while others remain. -/
  | points {world world' : World}
      (same : SameButPointers world world')
      (pointers : ∀ message,
        message ∈ world'.pointers ↔ message ∈ world.pointers)
      (buffers : ∀ protocol message,
        (world'.protocols protocol).outputBuffer = some message →
        (world.protocols protocol).outputBuffer = some message ∨
          (world.messages message).protocol = some protocol ∧
            protocol < world.protocolCount) :
      Change world world'
  /-- A pointer is dropped. -/
  | drops {world world' : World} {message : Nat}
      (same : SameButPointers world world')
      (pointed : message ∈ world.pointers)
      (pointers : ∀ other, other ∈ world.pointers ↔
        other ∈ world'.pointers ∨ other = message)
      (buffers : ∀ protocol message,
        (world'.protocols protocol).outputBuffer = some message →
        (world.protocols protocol).outputBuffer = some message) :
      Change world (world'.dropped message)
  /-- A message is handed out. -/
  | takes {world : World} {protocol connection : Nat} {autosend : Bool}
      (connected :
        (world.protocols protocol).connection = some connection) :
      Change world (world.handOut protocol connection autosend)
  /-- A message goes back to the pool. -/
  | releases {world : World} {message : Nat} {rest : List Task}
      (first : world.tasks = .releaseMessage message :: rest) :
      Change world
        ({ world with tasks := rest }.internalReleaseMessage message)
  /-- The text or the state of a message in use changes. -/
  | texts {world : World} {message : Nat} {change : Message → Message}
      (pointed : message ∈ world.pointers)
      (protocol : ∀ message, (change message).protocol = message.protocol)
      (connection : ∀ message,
        (change message).connection = message.connection)
      (start : ∀ message,
        (change message).outputBufferStart = message.outputBufferStart) :
      Change world (world.updateMessage message change)
  /-- The pool opens or closes. -/
  | opens {world : World} {isOpen : Bool} {frameTime : Nat} :
      Change world { world with isOpen := isOpen, frameTime := frameTime }
  /-- A write leaves its marks. -/
  | writes {world : World} {connection : Nat}
      (pendingWrite writeError : Bool) :
      Change world
        (world.updateConnection connection fun connection =>
          { connection with
            pendingWrite := pendingWrite, writeError := writeError })
  /-- The state of a connection changes, but not to open. -/
  | closes {world : World} {connection : Nat} (state : ConnectionState)
      (created : connection < world.connectionCount)
      (notOpen : state ≠ .open) :
      Change world
        (world.updateConnection connection fun connection =>
          { connection with connectionState := state })
  /-- A task that closes a connection is added. -/
  | requests {world : World} {connection : Nat} :
      Change world
        { world with tasks := world.tasks ++ [.closeConnection connection] }
  /-- A protocol loses its connection. -/
  | unlinks {world : World} {protocol : Nat} :
      Change world
        (world.updateProtocol protocol fun protocol =>
          { protocol with connection := none })
  /-- A protocol is deleted. -/
  | deletesProtocol {world : World} {protocol : Nat}
      (made : protocol < world.protocolCount)
      (idle : (world.protocols protocol).refCount = 0) :
      Change world
        (world.updateProtocol protocol fun protocol =>
          { protocol with connection := none, deleted := true })
  /-- A closing connection forgets its protocol. -/
  | detaches {world : World} {connection : Nat}
      (free : ∀ protocol,
        (world.protocols protocol).connection ≠ some connection) :
      Change world
        (world.updateConnection connection fun connection =>
          { connection with protocol := none })
  /-- An event is added. -/
  | schedules {world : World} {event : Event}
      (ready : world.Ready event) :
      Change world (world.addEvent event)
  /-- A connection is deleted. -/
  | deletesConnection {world : World} {connection : Nat}
      (idle : (world.connections connection).refCount = 0)
      (detached : world.Detached connection) :
      Change world (world.deleteConnectionTask connection)
  /-- An event is due. -/
  | due {world : World} {event : Event}
      (scheduled : event ∈ world.events) :
      Change world
        { world with
          events := world.events.erase event
          tasks := world.tasks ++ [.event event] }
  /-- The dispatcher takes another task than one that releases a message. -/
  | takesTask {world : World} {task : Task} {rest : List Task}
      (first : world.tasks = task :: rest)
      (other : ∀ message, task ≠ .releaseMessage message) :
      Change world { world with tasks := rest }
  /-- A connection is accepted. -/
  | accepts {world : World} (singleSocket : Bool) :
      Change world (world.onAccept singleSocket)
  /-- A connection gets its protocol. -/
  | makes {world world' : World} {connection : Nat}
      (made : world.makeProtocol connection = some world') :
      Change world world'

/-- A sequence of small changes. -/
def Changes : World → World → Prop :=
  Relation.ReflTransGen Change

namespace Changes

variable {world world' world'' : World}

theorem refl (world : World) : Changes world world :=
  Relation.ReflTransGen.refl

theorem trans
    (first : Changes world world')
    (second : Changes world' world'') :
    Changes world world'' :=
  Relation.ReflTransGen.trans first second

theorem of_change (change : Change world world') : Changes world world' :=
  Relation.ReflTransGen.single change

theorem change
    (first : Changes world world')
    (second : Change world' world'') :
    Changes world world'' :=
  Relation.ReflTransGen.tail first second

/-- What every small change keeps, a sequence of them keeps. -/
theorem keeps
    {inv : World → Prop}
    (step : ∀ world world', inv world → Change world world' → inv world')
    (changes : Changes world world')
    (holds : inv world) :
    inv world' := by
  induction changes with
  | refl => exact holds
  | tail _ change inductionHypothesis =>
      exact step _ _ inductionHypothesis change

end Changes

/-! ## What holds in every state -/

/-- Protocols and connections know each other, and what is to be released may
be released. -/
structure Sound (world : World) : Prop where
  unmadeProtocol : ∀ protocol, world.protocolCount ≤ protocol →
    world.protocols protocol = {}
  unmadeState : ∀ connection, world.connectionCount ≤ connection →
    (world.connections connection).connectionState = .open
  unmadeConnection : ∀ connection, world.connectionCount ≤ connection →
    (world.connections connection).protocol = none ∧
      (world.connections connection).refCount = 0
  link : ∀ protocol connection,
    (world.protocols protocol).connection = some connection →
      (world.connections connection).protocol = some protocol
  made : ∀ connection protocol,
    (world.connections connection).protocol = some protocol →
      protocol < world.protocolCount
  addressed : ∀ message connection,
    (world.messages message).connection = some connection →
      connection < world.connectionCount
  ready : ∀ event, world.Pending event → world.Ready event

namespace Sound

variable {world world' : World}

theorem unmadeBuffer
    (sound : Sound world)
    {protocol message : Nat}
    (buffer : (world.protocols protocol).outputBuffer = some message) :
    protocol < world.protocolCount := by
  by_contra unmade
  simp [sound.unmadeProtocol protocol (Nat.le_of_not_lt unmade)] at buffer

theorem connected
    (sound : Sound world)
    {protocol connection : Nat}
    (connected : (world.protocols protocol).connection = some connection) :
    protocol < world.protocolCount ∧ connection < world.connectionCount := by
  have linked := sound.link protocol connection connected
  refine ⟨sound.made connection protocol linked, ?_⟩
  by_contra unmade
  have unmade := sound.unmadeConnection connection (Nat.le_of_not_lt unmade)
  rw [unmade.1] at linked
  cases linked

/-- Only pointers differ. -/
theorem points
    (sound : Sound world)
    (same : SameButPointers world world')
    (buffers : ∀ protocol message,
      (world'.protocols protocol).outputBuffer = some message →
        protocol < world.protocolCount) :
    Sound world' := by
  obtain ⟨messages, _, _, count, connections, connectionCount, tasks, events,
    connection, refCount, deleted⟩ := same
  refine ⟨fun protocol unmade => ?_, ?_, ?_, ?_, ?_, ?_,
    fun event pending => ?_⟩
  · rw [count] at unmade
    have before := sound.unmadeProtocol protocol unmade
    have connection := connection protocol
    have refCount := refCount protocol
    have deleted := deleted protocol
    have buffer : (world'.protocols protocol).outputBuffer = none := by
      cases buffer : (world'.protocols protocol).outputBuffer with
      | none => rfl
      | some message =>
          exact absurd (buffers protocol message buffer) (Nat.not_lt.mpr unmade)
    rw [before] at connection refCount deleted
    cases found : world'.protocols protocol
    simp_all
  · simpa only [connections, connectionCount] using sound.unmadeState
  · simpa only [connections, connectionCount] using sound.unmadeConnection
  · simpa only [connections, connection] using sound.link
  · simpa only [connections, count] using sound.made
  · simpa only [messages, connectionCount] using sound.addressed
  · have ready := sound.ready event
      (by simpa only [World.Pending, events, tasks] using pending)
    cases event <;>
      simpa only [World.Ready, World.Detached, connections, count] using ready

/-- Only tasks and events differ. -/
theorem tasks
    (sound : Sound world)
    {tasks : List Task} {events : List Event}
    (ready : ∀ event, event ∈ events ∨ .event event ∈ tasks →
      world.Ready event) :
    Sound { world with tasks := tasks, events := events } :=
  ⟨sound.unmadeProtocol, sound.unmadeState, sound.unmadeConnection, sound.link,
    sound.made, sound.addressed, ready⟩

/-- It is about protocols, connections, tasks, events and addresses. -/
theorem congr
    (sound : Sound world)
    (protocols : world'.protocols = world.protocols)
    (protocolCount : world'.protocolCount = world.protocolCount)
    (connections : world'.connections = world.connections)
    (connectionCount : world'.connectionCount = world.connectionCount)
    (messages : ∀ message connection,
      (world'.messages message).connection = some connection →
        connection < world.connectionCount)
    (pending : ∀ event, world'.Pending event → world.Pending event) :
    Sound world' := by
  refine ⟨?_, ?_, ?_, ?_, ?_, ?_, fun event found => ?_⟩
  · simpa only [protocols, protocolCount] using sound.unmadeProtocol
  · simpa only [connections, connectionCount] using sound.unmadeState
  · simpa only [connections, connectionCount] using sound.unmadeConnection
  · simpa only [protocols, connections] using sound.link
  · simpa only [connections, protocolCount] using sound.made
  · simpa only [connectionCount] using messages
  · have ready := sound.ready event (pending event found)
    cases event <;>
      simpa only [World.Ready, World.Detached, connections, protocolCount]
        using ready

theorem updateProtocol
    (sound : Sound world)
    {protocol : Nat} {change : Protocol → Protocol}
    (fresh : world.protocolCount ≤ protocol → change {} = {})
    (connection : ∀ connection,
      (change (world.protocols protocol)).connection = some connection →
        (world.protocols protocol).connection = some connection) :
    Sound (world.updateProtocol protocol change) := by
  refine ⟨fun other unmade => ?_, sound.unmadeState, sound.unmadeConnection,
    fun other target linked => ?_, sound.made, sound.addressed, sound.ready⟩
  · have before := sound.unmadeProtocol other unmade
    by_cases same : other = protocol
    · subst same
      simpa [World.updateProtocol, before] using fresh unmade
    · simpa [World.updateProtocol, same] using before
  · apply sound.link other target
    by_cases same : other = protocol
    · subst same
      exact connection target (by simpa [World.updateProtocol] using linked)
    · simpa [World.updateProtocol, same] using linked

theorem updateConnection
    (sound : Sound world)
    {connection : Nat} {change : Connection → Connection}
    (protocol : ∀ connection,
      (change connection).protocol = connection.protocol)
    (state : (world.connections connection).connectionState ≠ .open →
      (change (world.connections connection)).connectionState ≠ .open)
    (fresh : world.connectionCount ≤ connection →
      (change (world.connections connection)).connectionState =
          (world.connections connection).connectionState ∧
        (change (world.connections connection)).refCount =
          (world.connections connection).refCount) :
    Sound (world.updateConnection connection change) := by
  have protocols : ∀ other,
      ((world.updateConnection connection change).connections other).protocol =
        (world.connections other).protocol := by
    intro other
    by_cases same : other = connection <;>
      simp [World.updateConnection, same, protocol]
  refine ⟨sound.unmadeProtocol, fun other unmade => ?_,
    fun other unmade => ⟨?_, ?_⟩, fun other target linked => ?_,
    fun other target linked => ?_, sound.addressed, fun event pending => ?_⟩
  · have before := sound.unmadeState other unmade
    by_cases same : other = connection
    · subst same
      simpa [World.updateConnection, (fresh unmade).1] using before
    · simpa [World.updateConnection, same] using before
  · rw [protocols]
    exact (sound.unmadeConnection other unmade).1
  · have before := (sound.unmadeConnection other unmade).2
    by_cases same : other = connection
    · subst same
      simpa [World.updateConnection, (fresh unmade).2] using before
    · simpa [World.updateConnection, same] using before
  · rw [protocols]
    exact sound.link other target linked
  · rw [protocols] at linked
    exact sound.made other target linked
  · have ready := sound.ready event pending
    cases event with
    | releaseProtocol other => exact ready
    | releaseConnection other =>
        refine ⟨?_, (protocols other).trans ready.2⟩
        by_cases same : other = connection
        · subst same
          simpa [World.updateConnection] using state ready.1
        · simpa [World.updateConnection, same] using ready.1

/-- A message is handed out. -/
theorem takes
    (sound : Sound world)
    {protocol connection : Nat} {autosend : Bool}
    (connected :
      (world.protocols protocol).connection = some connection) :
    Sound (world.handOut protocol connection autosend) := by
  have bounds := sound.connected connected
  have counted : Sound
      ((world.updateProtocol protocol fun protocol =>
        { protocol with refCount := protocol.refCount + 1 }).updateConnection
          connection fun connection =>
            { connection with refCount := connection.refCount + 1 }) := by
    refine (sound.updateProtocol ?_ fun _ => id).updateConnection
      (fun _ => rfl) id ?_
    · exact fun unmade => absurd bounds.1 (Nat.not_lt.mpr unmade)
    · exact fun unmade => absurd bounds.2 (Nat.not_lt.mpr unmade)
  refine counted.congr handOut_protocols handOut_protocolCount
    handOut_connections handOut_connectionCount (fun message other => ?_)
    fun event => ?_
  · rw [handOut_messages]
    by_cases same : message = world.takeFree.1
    · subst same
      simp only [Function.update_self, Option.some.injEq]
      rintro rfl
      exact bounds.2
    · rw [Function.update_of_ne same]
      exact sound.addressed message other
  · rw [Pending, handOut_events, handOut_tasks]
    exact id

theorem unrefProtocol
    (sound : Sound world)
    (protocol : Nat) :
    Sound
      (world.updateProtocol protocol fun protocol =>
        { protocol with refCount := protocol.refCount - 1 }) :=
  sound.updateProtocol (fun _ => rfl) fun _ => id

theorem unrefConnection
    (sound : Sound world)
    (connection : Nat) :
    Sound
      (world.updateConnection connection fun connection =>
        { connection with refCount := connection.refCount - 1 }) := by
  refine sound.updateConnection (fun _ => rfl) id fun unmade => ⟨rfl, ?_⟩
  simp [(sound.unmadeConnection connection unmade).2]

/-- A message goes back to the pool. -/
theorem releases
    (sound : Sound world)
    (message : Nat) :
    Sound (world.internalReleaseMessage message) := by
  have counted : Sound
      { world with
        protocols := (world.internalReleaseMessage message).protocols
        connections := (world.internalReleaseMessage message).connections } := by
    rw [internalReleaseMessage_protocols, internalReleaseMessage_connections]
    cases (world.messages message).protocol <;>
      cases (world.messages message).connection
    · exact sound
    · exact sound.unrefConnection _
    · exact sound.unrefProtocol _
    · exact (sound.unrefProtocol _).unrefConnection _
  rw [internalReleaseMessage_eq]
  refine counted.congr rfl rfl rfl rfl (fun other target => ?_) fun _ => id
  rw [internalReleaseMessage_messages]
  by_cases same : other = message
  · simp [same, Message.freeMessage]
  · rw [Function.update_of_ne same]
    exact sound.addressed other target

/-- A protocol is made for a connection that has none. -/
theorem makesProtocol
    (sound : Sound world)
    (connection : Nat)
    (unlinked : (world.connections connection).protocol = none)
    (opened : (world.connections connection).connectionState = .open)
    (created : connection < world.connectionCount)
    (connections : world'.connections =
      Function.update world.connections connection
        { world.connections connection with
          protocol := some world.protocolCount })
    (connectionCount : world'.connectionCount = world.connectionCount)
    (protocols : world'.protocols =
      Function.update world.protocols world.protocolCount
        { connection := some connection })
    (protocolCount : world'.protocolCount = world.protocolCount + 1)
    (messages : world'.messages = world.messages)
    (tasks : world'.tasks = world.tasks)
    (events : world'.events = world.events) :
    Sound world' := by
  refine ⟨fun protocol unmade => ?_, fun other unmade => ?_,
    fun other unmade => ?_, fun protocol other linked => ?_,
    fun other protocol linked => ?_, ?_, fun event pending => ?_⟩
  · rw [protocolCount] at unmade
    rw [protocols, Function.update_of_ne (by omega)]
    exact sound.unmadeProtocol protocol (by omega)
  · rw [connectionCount] at unmade
    rw [connections, Function.update_of_ne (by omega)]
    exact sound.unmadeState other unmade
  · rw [connectionCount] at unmade
    rw [connections, Function.update_of_ne (by omega)]
    exact sound.unmadeConnection other unmade
  · rw [protocols] at linked
    rw [connections]
    by_cases new : protocol = world.protocolCount
    · subst new
      obtain rfl : connection = other := by simpa using linked
      simp
    · rw [Function.update_of_ne new] at linked
      have before := sound.link protocol other linked
      have different : other ≠ connection := by
        rintro rfl
        simp [unlinked] at before
      rwa [Function.update_of_ne different]
  · rw [connections] at linked
    rw [protocolCount]
    by_cases same : other = connection
    · subst same
      have : world.protocolCount = protocol := by simpa using linked
      omega
    · rw [Function.update_of_ne same] at linked
      have := sound.made other protocol linked
      omega
  · simpa only [messages, connectionCount] using sound.addressed
  · have ready := sound.ready event
      (by simpa only [World.Pending, tasks, events] using pending)
    cases event with
    | releaseProtocol protocol =>
        have : protocol < world.protocolCount := ready
        show protocol < world'.protocolCount
        omega
    | releaseConnection other =>
        have detached : world.Detached other := ready
        have different : other ≠ connection := by
          rintro rfl
          exact detached.1 opened
        simpa only [World.Ready, World.Detached, connections,
          Function.update_of_ne different] using detached

/-- A connection is accepted. -/
theorem acceptsConnection
    (sound : Sound world)
    (connections : world'.connections =
      Function.update world.connections world.connectionCount {})
    (connectionCount : world'.connectionCount = world.connectionCount + 1)
    (protocols : world'.protocols = world.protocols)
    (protocolCount : world'.protocolCount = world.protocolCount)
    (messages : world'.messages = world.messages)
    (tasks : world'.tasks = world.tasks)
    (events : world'.events = world.events) :
    Sound world' := by
  have fresh := sound.unmadeConnection world.connectionCount (Nat.le_refl _)
  have protocolKept : ∀ other, (world'.connections other).protocol =
      (world.connections other).protocol := by
    intro other
    by_cases same : other = world.connectionCount
    · simp [connections, same, fresh.1]
    · simp [connections, same]
  refine ⟨?_, fun other unmade => ?_, fun other unmade => ?_,
    fun protocol other linked => ?_, fun other protocol linked => ?_,
    fun message other found => ?_, fun event pending => ?_⟩
  · simpa only [protocols, protocolCount] using sound.unmadeProtocol
  · rw [connectionCount] at unmade
    rw [connections, Function.update_of_ne (by omega)]
    exact sound.unmadeState other (by omega)
  · rw [connectionCount] at unmade
    rw [connections, Function.update_of_ne (by omega)]
    exact sound.unmadeConnection other (by omega)
  · rw [protocolKept]
    exact sound.link protocol other (by rwa [protocols] at linked)
  · rw [protocolKept] at linked
    rw [protocolCount]
    exact sound.made other protocol linked
  · rw [messages] at found
    rw [connectionCount]
    exact Nat.lt_succ_of_lt (sound.addressed message other found)
  · have ready := sound.ready event
      (by simpa only [World.Pending, tasks, events] using pending)
    cases event with
    | releaseProtocol protocol =>
        simpa only [World.Ready, protocolCount] using ready
    | releaseConnection other =>
        refine ⟨?_, (protocolKept other).trans ready.2⟩
        have different : other ≠ world.connectionCount := by
          rintro rfl
          exact ready.1 (sound.unmadeState _ (Nat.le_refl _))
        rw [connections, Function.update_of_ne different]
        exact ready.1

/-- A new connection may come with its protocol. -/
theorem accepts
    (sound : Sound world)
    (singleSocket : Bool) :
    Sound (world.onAccept singleSocket) := by
  have accepted : Sound (world.onAccept false) :=
    sound.acceptsConnection rfl rfl rfl rfl rfl rfl rfl
  cases singleSocket with
  | false => exact accepted
  | true =>
      refine accepted.makesProtocol world.connectionCount
        ?_ ?_ ?_ ?_ rfl rfl rfl rfl rfl rfl
      all_goals simp [onAccept]

/-- A connection whose protocol has no connection any more forgets it. -/
theorem detaches
    (sound : Sound world)
    {connection : Nat}
    (free : ∀ protocol,
      (world.protocols protocol).connection ≠ some connection) :
    Sound
      (world.updateConnection connection fun connection =>
        { connection with protocol := none }) := by
  refine ⟨sound.unmadeProtocol, fun other unmade => ?_,
    fun other unmade => ?_, fun protocol other linked => ?_,
    fun other protocol linked => ?_, sound.addressed,
    fun event pending => ?_⟩
  · have before := sound.unmadeState other unmade
    by_cases same : other = connection
    · subst same
      simpa [World.updateConnection] using before
    · simpa [World.updateConnection, same] using before
  · have before := sound.unmadeConnection other unmade
    by_cases same : other = connection
    · subst same
      simpa [World.updateConnection] using before.2
    · simpa [World.updateConnection, same] using before
  · have different : other ≠ connection := by
      rintro rfl
      exact free protocol linked
    simpa [World.updateConnection, different] using
      sound.link protocol other linked
  · apply sound.made other protocol
    by_cases same : other = connection
    · subst same
      simp [World.updateConnection] at linked
    · simpa [World.updateConnection, same] using linked
  · have ready := sound.ready event pending
    cases event with
    | releaseProtocol protocol => exact ready
    | releaseConnection other =>
        have detached : world.Detached other := ready
        by_cases same : other = connection
        · subst same
          simpa [World.Ready, World.Detached, World.updateConnection]
            using detached.1
        · simpa [World.Ready, World.Detached, World.updateConnection, same]
            using detached

/-- Every small change keeps it. -/
theorem change
    (sound : Sound world)
    (change : Change world world') :
    Sound world' := by
  cases change with
  | points same _ buffers =>
      refine sound.points same fun protocol message buffer => ?_
      rcases buffers protocol message buffer with before | new
      · exact sound.unmadeBuffer before
      · exact new.2
  | drops same _ _ buffers =>
      have kept := sound.points same fun protocol message buffer =>
        sound.unmadeBuffer (buffers protocol message buffer)
      unfold dropped releaseMessage
      split
      · exact kept
      · refine kept.congr rfl rfl rfl rfl kept.addressed fun event => ?_
        simp [Pending]
  | takes connected => exact sound.takes connected
  | releases first =>
      apply Sound.releases
      refine sound.congr rfl rfl rfl rfl sound.addressed fun event => ?_
      simp [Pending, first]
  | @texts message change _ _ connection =>
      refine sound.congr rfl rfl rfl rfl (fun other target => ?_) fun _ => id
      by_cases same : other = message
      · subst same
        simpa [World.updateMessage, connection] using sound.addressed other target
      · simpa [World.updateMessage, same] using sound.addressed other target
  | opens => exact sound.congr rfl rfl rfl rfl sound.addressed fun _ => id
  | writes =>
      exact sound.updateConnection (fun _ => rfl) id fun _ => ⟨rfl, rfl⟩
  | closes _ created notOpen =>
      exact sound.updateConnection (fun _ => rfl) (fun _ => notOpen)
        fun unmade => absurd created (Nat.not_lt.mpr unmade)
  | requests =>
      refine sound.congr rfl rfl rfl rfl sound.addressed fun event => ?_
      simp [Pending]
  | unlinks => exact sound.updateProtocol (fun _ => rfl) (by simp)
  | deletesProtocol made =>
      exact sound.updateProtocol
        (fun unmade => absurd made (Nat.not_lt.mpr unmade)) (by simp)
  | detaches free => exact sound.detaches free
  | schedules ready =>
      refine sound.tasks fun event pending => ?_
      rcases pending with scheduled | queued
      · rcases List.mem_append.mp scheduled with before | new
        · exact sound.ready event (.inl before)
        · rwa [List.mem_singleton.mp new]
      · exact sound.ready event (.inr queued)
  | deletesConnection =>
      exact sound.updateConnection (fun _ => rfl) id fun _ => ⟨rfl, rfl⟩
  | due scheduled =>
      refine sound.tasks fun event pending => sound.ready event ?_
      rcases pending with later | queued
      · exact .inl (List.mem_of_mem_erase later)
      · rcases List.mem_append.mp queued with before | new
        · exact .inr before
        · obtain ⟨rfl⟩ : event = _ := by simpa using new
          exact .inl scheduled
  | takesTask first =>
      refine sound.congr rfl rfl rfl rfl sound.addressed fun event => ?_
      simp only [Pending, first, List.mem_cons]
      tauto
  | accepts singleSocket => exact sound.accepts singleSocket
  | makes made =>
      unfold makeProtocol at made
      split at made
      · next fresh =>
          cases made
          exact sound.makesProtocol _ fresh.2.2 fresh.2.1 fresh.1
            rfl rfl rfl rfl rfl rfl rfl
      · cases made

end Sound

/-- So does every sequence of small changes. -/
theorem Changes.sound
    {world world' : World}
    (changes : Changes world world')
    (sound : Sound world) :
    Sound world' :=
  changes.keeps (fun _ _ => Sound.change) sound

end OutputPool
end Network
end Lotospp
