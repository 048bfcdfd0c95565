import Lotospp.Network.OutputPool
import Mathlib.Tactic.Tauto

/-!
# Messages of the pool

The pointers to messages, and what handing a message out and taking it back
change.
-/

namespace Lotospp
namespace Network
namespace OutputPool

open Common Effect

namespace World

variable {world world' : World}

/-! ## Pointers -/

theorem mem_pointers {message : Nat} :
    message ∈ world.pointers ↔
      message ∈ world.autoSend ∨ message ∈ world.toAddQueue ∨
        message ∈ world.held ∨
        ∃ protocol < world.protocolCount,
          (world.protocols protocol).outputBuffer = some message := by
  simp [pointers]

/-- The pointers to messages are in the queues, with the holders and in the
output buffers. -/
theorem pointers_congr
    (autoSend : world'.autoSend = world.autoSend)
    (toAddQueue : world'.toAddQueue = world.toAddQueue)
    (held : world'.held = world.held)
    (count : world'.protocolCount = world.protocolCount)
    (buffers : ∀ protocol, (world'.protocols protocol).outputBuffer =
      (world.protocols protocol).outputBuffer) :
    world'.pointers = world.pointers := by
  simp [pointers, autoSend, toAddQueue, held, count, buffers]

/-- Dropping a pointer adds a task at most. -/
theorem dropped_eq (message : Nat) :
    world.dropped message =
      { world with tasks := (world.dropped message).tasks } := by
  unfold dropped releaseMessage
  split <;> rfl

@[simp] theorem dropped_messages (message : Nat) :
    (world.dropped message).messages = world.messages := by
  rw [dropped_eq]

@[simp] theorem dropped_created (message : Nat) :
    (world.dropped message).created = world.created := by
  rw [dropped_eq]

@[simp] theorem dropped_autoSend (message : Nat) :
    (world.dropped message).autoSend = world.autoSend := by
  rw [dropped_eq]

@[simp] theorem dropped_toAddQueue (message : Nat) :
    (world.dropped message).toAddQueue = world.toAddQueue := by
  rw [dropped_eq]

@[simp] theorem dropped_protocols (message : Nat) :
    (world.dropped message).protocols = world.protocols := by
  rw [dropped_eq]

@[simp] theorem dropped_protocolCount (message : Nat) :
    (world.dropped message).protocolCount = world.protocolCount := by
  rw [dropped_eq]

@[simp] theorem dropped_connections (message : Nat) :
    (world.dropped message).connections = world.connections := by
  rw [dropped_eq]

/-! ## A message is handed out -/

/-- What `getOutputMessage` does when the protocol has a connection. -/
def handOut
    (world : World)
    (protocol connection : Nat)
    (autosend : Bool) : World :=
  { world.takeFree.2 with
    held := world.takeFree.1 :: world.takeFree.2.held
    }.configureOutputMessage world.takeFree.1 protocol connection autosend

section HandOut

variable {protocol connection : Nat} {autosend : Bool}

theorem handOut_messages :
    (world.handOut protocol connection autosend).messages =
      Function.update world.messages world.takeFree.1
        { (world.takeFree.2.messages world.takeFree.1).reset with
          state := if autosend then .allocated else .allocatedNoAutosend
          protocol := some protocol
          connection := some connection
          frame := world.frameTime } := by
  cases free : world.outputMessages <;> cases autosend <;>
    simp [handOut, takeFree, free, configureOutputMessage, updateMessage,
      updateProtocol, updateConnection]

theorem handOut_protocols :
    (world.handOut protocol connection autosend).protocols =
      Function.update world.protocols protocol
        { world.protocols protocol with
          refCount := (world.protocols protocol).refCount + 1 } := by
  cases free : world.outputMessages <;> cases autosend <;>
    simp [handOut, takeFree, free, configureOutputMessage, updateMessage,
      updateProtocol, updateConnection]

theorem handOut_connections :
    (world.handOut protocol connection autosend).connections =
      Function.update world.connections connection
        { world.connections connection with
          refCount := (world.connections connection).refCount + 1 } := by
  cases free : world.outputMessages <;> cases autosend <;>
    simp [handOut, takeFree, free, configureOutputMessage, updateMessage,
      updateProtocol, updateConnection]

theorem handOut_held :
    (world.handOut protocol connection autosend).held =
      world.takeFree.1 :: world.held := by
  cases free : world.outputMessages <;> cases autosend <;>
    simp [handOut, takeFree, free, configureOutputMessage, updateMessage,
      updateProtocol, updateConnection]

theorem handOut_autoSend :
    (world.handOut protocol connection autosend).autoSend =
      if autosend then world.autoSend ++ [world.takeFree.1]
      else world.autoSend := by
  cases free : world.outputMessages <;> cases autosend <;>
    simp [handOut, takeFree, free, configureOutputMessage, updateMessage,
      updateProtocol, updateConnection]

theorem handOut_outputMessages :
    (world.handOut protocol connection autosend).outputMessages =
      world.outputMessages.tail := by
  cases free : world.outputMessages <;> cases autosend <;>
    simp [handOut, takeFree, free, configureOutputMessage, updateMessage,
      updateProtocol, updateConnection]

theorem handOut_created :
    (world.handOut protocol connection autosend).created =
      if world.outputMessages = [] then world.created + 1
      else world.created := by
  cases free : world.outputMessages <;> cases autosend <;>
    simp [handOut, takeFree, free, configureOutputMessage, updateMessage,
      updateProtocol, updateConnection]

/-- Nothing else changes. -/
theorem handOut_eq :
    world.handOut protocol connection autosend =
      { world with
        messages := (world.handOut protocol connection autosend).messages
        created := (world.handOut protocol connection autosend).created
        outputMessages :=
          (world.handOut protocol connection autosend).outputMessages
        autoSend := (world.handOut protocol connection autosend).autoSend
        held := (world.handOut protocol connection autosend).held
        protocols := (world.handOut protocol connection autosend).protocols
        connections :=
          (world.handOut protocol connection autosend).connections } := by
  cases free : world.outputMessages <;> cases autosend <;>
    simp [handOut, takeFree, free, configureOutputMessage, updateMessage,
      updateProtocol, updateConnection]

@[simp] theorem handOut_protocolCount :
    (world.handOut protocol connection autosend).protocolCount =
      world.protocolCount := by
  rw [handOut_eq]

@[simp] theorem handOut_connectionCount :
    (world.handOut protocol connection autosend).connectionCount =
      world.connectionCount := by
  rw [handOut_eq]

@[simp] theorem handOut_tasks :
    (world.handOut protocol connection autosend).tasks = world.tasks := by
  rw [handOut_eq]

@[simp] theorem handOut_events :
    (world.handOut protocol connection autosend).events = world.events := by
  rw [handOut_eq]

@[simp] theorem handOut_toAddQueue :
    (world.handOut protocol connection autosend).toAddQueue =
      world.toAddQueue := by
  rw [handOut_eq]

/-- Nothing else becomes pointed to. -/
theorem mem_pointers_handOut {message : Nat} :
    message ∈ (world.handOut protocol connection autosend).pointers ↔
      message = world.takeFree.1 ∨ message ∈ world.pointers := by
  have buffers : ∀ other,
      ((world.handOut protocol connection autosend).protocols
        other).outputBuffer = (world.protocols other).outputBuffer := by
    intro other
    rw [handOut_protocols]
    by_cases same : other = protocol <;> simp [same]
  simp only [pointers, handOut_held, handOut_autoSend, handOut_toAddQueue,
    handOut_protocolCount, buffers]
  cases autosend <;> simp <;> tauto

end HandOut

/-! ## A message is released -/

section Release

variable {message : Nat}

theorem internalReleaseMessage_messages :
    (world.internalReleaseMessage message).messages =
      Function.update world.messages message
        (world.messages message).freeMessage := by
  cases protocol : (world.messages message).protocol <;>
    cases connection : (world.messages message).connection <;>
      simp [internalReleaseMessage, protocol, connection, updateMessage,
        updateProtocol, updateConnection]

theorem internalReleaseMessage_protocols :
    (world.internalReleaseMessage message).protocols =
      match (world.messages message).protocol with
      | some protocol =>
          Function.update world.protocols protocol
            { world.protocols protocol with
              refCount := (world.protocols protocol).refCount - 1 }
      | none => world.protocols := by
  cases protocol : (world.messages message).protocol <;>
    cases connection : (world.messages message).connection <;>
      simp [internalReleaseMessage, protocol, connection, updateMessage,
        updateProtocol, updateConnection]

theorem internalReleaseMessage_connections :
    (world.internalReleaseMessage message).connections =
      match (world.messages message).connection with
      | some connection =>
          Function.update world.connections connection
            { world.connections connection with
              refCount := (world.connections connection).refCount - 1 }
      | none => world.connections := by
  cases protocol : (world.messages message).protocol <;>
    cases connection : (world.messages message).connection <;>
      simp [internalReleaseMessage, protocol, connection, updateMessage,
        updateProtocol, updateConnection]

/-- Nothing is created, queued or held. -/
theorem internalReleaseMessage_eq :
    world.internalReleaseMessage message =
      { world with
        messages := (world.internalReleaseMessage message).messages
        protocols := (world.internalReleaseMessage message).protocols
        connections := (world.internalReleaseMessage message).connections
        outputMessages := message :: world.outputMessages } := by
  cases protocol : (world.messages message).protocol <;>
    cases connection : (world.messages message).connection <;>
      simp [internalReleaseMessage, protocol, connection, updateMessage,
        updateProtocol, updateConnection]

/-- What is pointed to does not change. -/
theorem internalReleaseMessage_pointers :
    (world.internalReleaseMessage message).pointers = world.pointers := by
  have buffers : ∀ protocol,
      ((world.internalReleaseMessage message).protocols
        protocol).outputBuffer = (world.protocols protocol).outputBuffer := by
    intro protocol
    rw [internalReleaseMessage_protocols]
    cases (world.messages message).protocol with
    | none => rfl
    | some other => by_cases same : protocol = other <;> simp [same]
  rw [internalReleaseMessage_eq]
  exact pointers_congr rfl rfl rfl rfl buffers

end Release
end World
end OutputPool
end Network
end Lotospp
