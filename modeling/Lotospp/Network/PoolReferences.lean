import Lotospp.Network.PoolPlaces

/-!
# The references of messages

The reference count of a protocol or a connection is the number of messages
that point to it.  Once a protocol has lost its connection no message is
handed out for it any more, so that the number only falls; and the protocol
and the connection are deleted when it has come to 0.
-/

namespace Lotospp
namespace Network
namespace OutputPool

open Common Effect World

/-- Changing one member of a range changes what is counted by that member. -/
theorem countP_range_of_ne
    (before after : Nat → Bool)
    {member count : Nat}
    (bound : member < count)
    (same : ∀ other, other ≠ member → after other = before other) :
    (List.range count).countP after + (before member).toNat =
      (List.range count).countP before + (after member).toNat := by
  induction count with
  | zero => exact absurd bound (Nat.not_lt_zero member)
  | succ count inductionHypothesis =>
      rw [List.range_succ, List.countP_append, List.countP_append,
        List.countP_singleton, List.countP_singleton]
      by_cases last : member = count
      · subst last
        have others : (List.range member).countP after =
            (List.range member).countP before := by
          refine List.countP_congr fun other found => ?_
          rw [same other (by have := List.mem_range.mp found; omega)]
        rw [others]
        cases before member <;> cases after member <;> simp
      · have earlier := inductionHypothesis (by omega)
        rw [same count (Ne.symm last)]
        omega

namespace World

variable {world world' : World}

/-- How many messages refer to a protocol, or a connection. -/
def references
    (world : World)
    (target : Message → Option Nat)
    (number : Nat) : Nat :=
  (List.range world.created).countP fun message =>
    target (world.messages message) = some number

theorem references_congr
    {target : Message → Option Nat}
    (created : world'.created = world.created)
    (same : ∀ message, target (world'.messages message) =
      target (world.messages message))
    (number : Nat) :
    world'.references target number = world.references target number := by
  simp only [references, created, same]

/-- A message that is handed out refers to its protocol and connection. -/
theorem references_handOut
    (places : Places world)
    {protocol connection : Nat} {autosend : Bool}
    {target : Message → Option Nat} {number : Nat}
    (nobody : ∀ message : Message,
      message.protocol = none → message.connection = none →
        target message = none)
    (refers : ∀ message : Message,
      message.protocol = some protocol →
        message.connection = some connection → target message = some number)
    (other : Nat) :
    (world.handOut protocol connection autosend).references target other =
      world.references target other + if other = number then 1 else 0 := by
  have taken : target ((world.handOut protocol connection autosend).messages
      world.takeFree.1) = some number := by
    refine refers _ ?_ ?_ <;> simp [handOut_messages]
  have kept : ∀ message ≠ world.takeFree.1,
      (world.handOut protocol connection autosend).messages message =
        world.messages message := by
    intro message different
    rw [handOut_messages, Function.update_of_ne different]
  unfold references
  rw [handOut_created]
  cases free : world.outputMessages with
  | nil =>
      simp only [takeFree, free] at taken kept
      rw [if_pos rfl, List.range_succ, List.countP_append,
        List.countP_singleton]
      congr 1
      · refine List.countP_congr fun message found => ?_
        rw [kept message (by have := List.mem_range.mp found; omega)]
      · simp [taken, eq_comm]
  | cons head rest =>
      simp only [takeFree, free] at taken kept
      have unset : target (world.messages head) = none := by
        have := places.free head (by simp [free])
        exact nobody _ this.2.1 this.2.2
      have created := (places.of_free (by simp [free] : head ∈ _)).1
      have counted := countP_range_of_ne
        (fun message => decide (target (world.messages message) = some other))
        (fun message => decide
          (target ((world.handOut protocol connection autosend).messages
            message) = some other))
        created fun message different => by rw [kept message different]
      by_cases own : other = number
      · simpa [unset, taken, own] using counted
      · simpa [unset, taken, own, Ne.symm own] using counted

/-- A message that is released refers to nothing. -/
theorem references_internalReleaseMessage
    {message : Nat}
    (created : message < world.created)
    (target : Message → Option Nat)
    (released : ∀ message : Message, target message.freeMessage = none)
    (other : Nat) :
    (world.internalReleaseMessage message).references target other +
        (if target (world.messages message) = some other then 1 else 0) =
      world.references target other := by
  have counted := countP_range_of_ne
    (fun message => decide (target (world.messages message) = some other))
    (fun found => decide
      (target ((world.internalReleaseMessage message).messages found) =
        some other))
    created fun found different => by
      rw [internalReleaseMessage_messages, Function.update_of_ne different]
  have same : (world.internalReleaseMessage message).created =
      world.created := by
    rw [internalReleaseMessage_eq]
  unfold references
  rw [same]
  have gone : target ((world.internalReleaseMessage message).messages
      message) = none := by
    rw [internalReleaseMessage_messages, Function.update_self, released]
  by_cases found : target (world.messages message) = some other
  · simpa [found, gone] using counted
  · simpa [found, gone] using counted

/-- A protocol that has lost its connection. -/
def Cleared (world : World) (protocol : Nat) : Prop :=
  protocol < world.protocolCount ∧
    (world.protocols protocol).connection = none

/-- What is cleared stays so, and no message more refers to it. -/
structure Settles (world world' : World) : Prop where
  cleared : ∀ protocol, world.Cleared protocol →
    world'.Cleared protocol ∧
      world'.references Message.protocol protocol ≤
        world.references Message.protocol protocol
  detached : ∀ connection, world.Detached connection →
    world'.Detached connection ∧
      world'.references Message.connection connection ≤
        world.references Message.connection connection

theorem Settles.refl (world : World) : Settles world world :=
  ⟨fun _ cleared => ⟨cleared, Nat.le_refl _⟩,
    fun _ detached => ⟨detached, Nat.le_refl _⟩⟩

theorem Settles.trans
    {world'' : World}
    (first : Settles world world')
    (second : Settles world' world'') :
    Settles world world'' := by
  constructor
  · intro protocol cleared
    obtain ⟨middle, fewer⟩ := first.cleared protocol cleared
    obtain ⟨last, fewest⟩ := second.cleared protocol middle
    exact ⟨last, Nat.le_trans fewest fewer⟩
  · intro connection detached
    obtain ⟨middle, fewer⟩ := first.detached connection detached
    obtain ⟨last, fewest⟩ := second.detached connection middle
    exact ⟨last, Nat.le_trans fewest fewer⟩

/-- No message changes hands. -/
theorem Settles.of_messages
    (created : world'.created = world.created)
    (protocol : ∀ message, (world'.messages message).protocol =
      (world.messages message).protocol)
    (connection : ∀ message, (world'.messages message).connection =
      (world.messages message).connection)
    (cleared : ∀ protocol, world.Cleared protocol → world'.Cleared protocol)
    (detached : ∀ connection,
      world.Detached connection → world'.Detached connection) :
    Settles world world' :=
  ⟨fun number found => ⟨cleared number found,
      Nat.le_of_eq (references_congr created protocol number)⟩,
    fun number found => ⟨detached number found,
      Nat.le_of_eq (references_congr created connection number)⟩⟩

/-- A protocol changes, but does not get a connection. -/
theorem Settles.of_protocol
    {protocol : Nat} {change : Protocol → Protocol}
    (kept : ∀ protocol,
      protocol.connection = none → (change protocol).connection = none) :
    Settles world (world.updateProtocol protocol change) := by
  refine .of_messages rfl (fun _ => rfl) (fun _ => rfl)
    (fun other cleared => ⟨cleared.1, ?_⟩) fun _ => id
  by_cases same : other = protocol
  · subst same
    simpa [updateProtocol] using kept _ cleared.2
  · simpa [updateProtocol, same] using cleared.2

/-- A connection changes, but neither opens nor gets a protocol. -/
theorem Settles.of_connection
    {connection : Nat} {change : Connection → Connection}
    (state : ∀ connection, connection.connectionState ≠ .open →
      (change connection).connectionState ≠ .open)
    (protocol : ∀ connection,
      connection.protocol = none → (change connection).protocol = none) :
    Settles world (world.updateConnection connection change) := by
  refine .of_messages rfl (fun _ => rfl) (fun _ => rfl) (fun _ => id)
    fun other detached => ?_
  by_cases same : other = connection
  · subst same
    simpa [Detached, updateConnection] using
      ⟨state _ detached.1, protocol _ detached.2⟩
  · simpa [Detached, updateConnection, same] using detached

/-- A protocol is made for a connection that is open. -/
theorem Settles.of_newProtocol
    {connections : Nat → Connection} {connectionCount : Nat}
    {connection : Option Nat}
    (same : ∀ connection, world.Detached connection →
      connections connection = world.connections connection) :
    Settles world
      { world with
        connections := connections
        connectionCount := connectionCount
        protocols := Function.update world.protocols world.protocolCount
          { connection := connection }
        protocolCount := world.protocolCount + 1 } := by
  refine .of_messages rfl (fun _ => rfl) (fun _ => rfl)
    (fun protocol cleared => ?_) fun other detached => ?_
  · have different : protocol ≠ world.protocolCount :=
      Nat.ne_of_lt cleared.1
    exact ⟨Nat.lt_succ_of_lt cleared.1, by simpa [different] using cleared.2⟩
  · simpa [Detached, same other detached] using detached

/-- Whatever is handed out is for a protocol that has a connection. -/
theorem Settles.takes
    (sound : Sound world)
    (places : Places world)
    {protocol connection : Nat} {autosend : Bool}
    (connected :
      (world.protocols protocol).connection = some connection) :
    Settles world (world.handOut protocol connection autosend) := by
  constructor
  · intro other cleared
    have different : other ≠ protocol := by
      rintro rfl
      rw [cleared.2] at connected
      cases connected
    refine ⟨⟨?_, ?_⟩, ?_⟩
    · rw [handOut_protocolCount]
      exact cleared.1
    · rw [handOut_protocols, Function.update_of_ne different]
      exact cleared.2
    · rw [references_handOut places (fun _ unset _ => unset)
        (fun _ set _ => set), if_neg different]
      exact Nat.le_refl _
  · intro other detached
    have different : other ≠ connection := by
      rintro rfl
      have linked := sound.link protocol other connected
      rw [detached.2] at linked
      cases linked
    refine ⟨?_, ?_⟩
    · unfold Detached
      rw [handOut_connections, Function.update_of_ne different]
      exact detached
    · rw [references_handOut places (fun _ _ unset => unset)
        (fun _ _ set => set), if_neg different]
      exact Nat.le_refl _

theorem internalReleaseMessage_connection (message protocol : Nat) :
    ((world.internalReleaseMessage message).protocols protocol).connection =
        (world.protocols protocol).connection ∧
      ((world.internalReleaseMessage message).protocols protocol).deleted =
        (world.protocols protocol).deleted := by
  rw [internalReleaseMessage_protocols]
  cases (world.messages message).protocol with
  | none => exact ⟨rfl, rfl⟩
  | some other => by_cases same : protocol = other <;> simp [same]

theorem internalReleaseMessage_state (message connection : Nat) :
    ((world.internalReleaseMessage message).connections
          connection).connectionState =
        (world.connections connection).connectionState ∧
      ((world.internalReleaseMessage message).connections
          connection).protocol =
        (world.connections connection).protocol ∧
      ((world.internalReleaseMessage message).connections
          connection).deleted =
        (world.connections connection).deleted := by
  rw [internalReleaseMessage_connections]
  cases (world.messages message).connection with
  | none => exact ⟨rfl, rfl, rfl⟩
  | some other => by_cases same : connection = other <;> simp [same]

/-- A message that is released refers to nothing any more. -/
theorem Settles.releases
    {message : Nat}
    (created : message < world.created) :
    Settles world (world.internalReleaseMessage message) := by
  constructor
  · intro other cleared
    have counted := references_internalReleaseMessage created
      Message.protocol (fun _ => rfl) other
    refine ⟨⟨?_, ?_⟩, by omega⟩
    · rw [internalReleaseMessage_eq]
      exact cleared.1
    · exact (internalReleaseMessage_connection message other).1.trans cleared.2
  · intro other detached
    have counted := references_internalReleaseMessage created
      Message.connection (fun _ => rfl) other
    obtain ⟨state, protocol, -⟩ :=
      @internalReleaseMessage_state world message other
    refine ⟨⟨?_, protocol.trans detached.2⟩, by omega⟩
    rw [state]
    exact detached.1

end World

open World

/-- Every small change settles. -/
theorem Change.settles
    {world world' : World}
    (sound : Sound world)
    (places : Places world)
    (change : Change world world') :
    Settles world world' := by
  have messages : ∀ {after : World},
      after.messages = world.messages → after.created = world.created →
      (∀ protocol, world.Cleared protocol → after.Cleared protocol) →
      (∀ connection, world.Detached connection →
        after.Detached connection) →
      Settles world after :=
    fun same created => .of_messages created (fun _ => by rw [same])
      fun _ => by rw [same]
  cases change with
  | points same =>
      refine messages same.messages same.created (fun protocol cleared => ?_)
        fun connection detached => ?_
      · rwa [Cleared, same.protocolCount, same.connection]
      · rwa [Detached, same.connections]
  | drops same =>
      refine messages (by simp [same.messages]) (by simp [same.created])
        (fun protocol cleared => ?_) fun connection detached => ?_
      · rwa [Cleared, dropped_protocolCount, dropped_protocols,
          same.protocolCount, same.connection]
      · rwa [Detached, dropped_connections, same.connections]
  | takes connected => exact .takes sound places connected
  | @releases message rest first =>
      have created := (places.of_waiting
        (by simp [first] : .releaseMessage message ∈ world.tasks)).1
      have taken : Settles world { world with tasks := rest } :=
        messages rfl rfl (fun _ => id) fun _ => id
      exact taken.trans (.releases created)
  | @texts message change _ protocol connection =>
      refine .of_messages rfl (fun other => ?_) (fun other => ?_)
        (fun _ => id) fun _ => id
      · by_cases same : other = message <;>
          simp [updateMessage, same, protocol]
      · by_cases same : other = message <;>
          simp [updateMessage, same, connection]
  | opens => exact messages rfl rfl (fun _ => id) fun _ => id
  | writes => exact .of_connection (fun _ => id) fun _ => id
  | closes _ _ notOpen => exact .of_connection (fun _ _ => notOpen) fun _ => id
  | requests => exact messages rfl rfl (fun _ => id) fun _ => id
  | unlinks => exact .of_protocol fun _ _ => rfl
  | deletesProtocol => exact .of_protocol fun _ _ => rfl
  | detaches => exact .of_connection (fun _ => id) fun _ _ => rfl
  | schedules => exact messages rfl rfl (fun _ => id) fun _ => id
  | deletesConnection => exact .of_connection (fun _ => id) fun _ => id
  | due => exact messages rfl rfl (fun _ => id) fun _ => id
  | takesTask => exact messages rfl rfl (fun _ => id) fun _ => id
  | accepts singleSocket =>
      have created : ∀ connection, world.Detached connection →
          connection ≠ world.connectionCount := by
        rintro connection detached rfl
        exact detached.1 (sound.unmadeState _ (Nat.le_refl _))
      cases singleSocket with
      | false =>
          refine messages rfl rfl (fun _ => id) fun connection detached => ?_
          simpa [Detached, onAccept, created connection detached]
            using detached
      | true =>
          exact .of_newProtocol fun connection detached =>
            Function.update_of_ne (created connection detached) _ _
  | makes made =>
      unfold makeProtocol at made
      split at made
      · next fresh =>
          cases made
          refine .of_newProtocol fun connection detached =>
            Function.update_of_ne ?_ _ _
          rintro rfl
          exact detached.1 fresh.2.1
      · cases made

/-! ## Reference counts -/

/-- Every reference count is the number of the messages that refer, and what
is deleted is cleared and nothing refers to it. -/
structure Refs (world : World) : Prop where
  protocolCounted : ∀ protocol, (world.protocols protocol).refCount =
    world.references Message.protocol protocol
  connectionCounted : ∀ connection, (world.connections connection).refCount =
    world.references Message.connection connection
  protocolDeleted : ∀ protocol, (world.protocols protocol).deleted →
    world.Cleared protocol ∧
      world.references Message.protocol protocol = 0
  connectionDeleted : ∀ connection, (world.connections connection).deleted →
    world.Detached connection ∧
      world.references Message.connection connection = 0

namespace Refs

variable {world world' : World}

/-- What was deleted stays cleared and without references. -/
theorem of_settles
    (refs : Refs world)
    (settles : Settles world world')
    (protocolCounted : ∀ protocol, (world'.protocols protocol).refCount =
      world'.references Message.protocol protocol)
    (connectionCounted : ∀ connection,
      (world'.connections connection).refCount =
        world'.references Message.connection connection)
    (protocolDeleted : ∀ protocol, (world'.protocols protocol).deleted →
      (world.protocols protocol).deleted)
    (connectionDeleted : ∀ connection,
      (world'.connections connection).deleted →
        (world.connections connection).deleted) :
    Refs world' := by
  refine ⟨protocolCounted, connectionCounted, fun protocol deleted => ?_,
    fun connection deleted => ?_⟩
  · obtain ⟨cleared, none⟩ :=
      refs.protocolDeleted protocol (protocolDeleted protocol deleted)
    obtain ⟨still, fewer⟩ := settles.cleared protocol cleared
    exact ⟨still, by omega⟩
  · obtain ⟨detached, none⟩ :=
      refs.connectionDeleted connection (connectionDeleted connection deleted)
    obtain ⟨still, fewer⟩ := settles.detached connection detached
    exact ⟨still, by omega⟩

/-- Neither messages nor counts change, and nothing is deleted. -/
theorem of_same
    (refs : Refs world)
    (settles : Settles world world')
    (created : world'.created = world.created)
    (protocol : ∀ message, (world'.messages message).protocol =
      (world.messages message).protocol)
    (connection : ∀ message, (world'.messages message).connection =
      (world.messages message).connection)
    (protocols : ∀ number, (world'.protocols number).refCount =
        (world.protocols number).refCount ∧
      ((world'.protocols number).deleted →
        (world.protocols number).deleted))
    (connections : ∀ number, (world'.connections number).refCount =
        (world.connections number).refCount ∧
      ((world'.connections number).deleted →
        (world.connections number).deleted)) :
    Refs world' := by
  refine refs.of_settles settles (fun number => ?_) (fun number => ?_)
    (fun number => (protocols number).2) fun number => (connections number).2
  · rw [(protocols number).1, references_congr created protocol]
    exact refs.protocolCounted number
  · rw [(connections number).1, references_congr created connection]
    exact refs.connectionCounted number

/-- A message is handed out. -/
theorem takes
    (refs : Refs world)
    (sound : Sound world)
    (places : Places world)
    {protocol connection : Nat} {autosend : Bool}
    (connected :
      (world.protocols protocol).connection = some connection) :
    Refs (world.handOut protocol connection autosend) := by
  refine refs.of_settles (.takes sound places connected) (fun other => ?_)
    (fun other => ?_) (fun other => ?_) fun other => ?_
  · rw [references_handOut places (fun _ unset _ => unset)
      (fun _ set _ => set), handOut_protocols, ← refs.protocolCounted]
    by_cases same : other = protocol <;> simp [same]
  · rw [references_handOut places (fun _ _ unset => unset)
      (fun _ _ set => set), handOut_connections, ← refs.connectionCounted]
    by_cases same : other = connection <;> simp [same]
  · rw [handOut_protocols]
    by_cases same : other = protocol <;> simp [same]
  · rw [handOut_connections]
    by_cases same : other = connection <;> simp [same]

/-- A message is released. -/
theorem releases
    (refs : Refs world)
    {message : Nat}
    (created : message < world.created) :
    Refs (world.internalReleaseMessage message) := by
  refine refs.of_settles (.releases created) (fun other => ?_)
    (fun other => ?_) (fun other => ?_) fun other => ?_
  · have before := refs.protocolCounted other
    have counted := references_internalReleaseMessage created
      Message.protocol (fun _ => rfl) other
    rw [internalReleaseMessage_protocols]
    cases found : (world.messages message).protocol with
    | none =>
        simp only [found] at counted ⊢
        simpa [before] using counted.symm
    | some protocol =>
        by_cases same : other = protocol
        · subst same
          simp only [found, if_true] at counted
          simp only [Function.update_self]
          omega
        · simp only [found, Option.some.injEq, Ne.symm same, if_false]
            at counted
          simp only [Function.update_of_ne same]
          omega
  · have before := refs.connectionCounted other
    have counted := references_internalReleaseMessage created
      Message.connection (fun _ => rfl) other
    rw [internalReleaseMessage_connections]
    cases found : (world.messages message).connection with
    | none =>
        simp only [found] at counted ⊢
        simpa [before] using counted.symm
    | some connection =>
        by_cases same : other = connection
        · subst same
          simp only [found, if_true] at counted
          simp only [Function.update_self]
          omega
        · simp only [found, Option.some.injEq, Ne.symm same, if_false]
            at counted
          simp only [Function.update_of_ne same]
          omega
  · rw [(internalReleaseMessage_connection message other).2]
    exact id
  · rw [(internalReleaseMessage_state message other).2.2]
    exact id

/-- No message and no count changes, and nothing is deleted. -/
theorem of_counts
    (refs : Refs world)
    (settles : Settles world world')
    (created : world'.created = world.created)
    (messages : world'.messages = world.messages)
    (protocols : ∀ number, (world'.protocols number).refCount =
        (world.protocols number).refCount ∧
      ((world'.protocols number).deleted →
        (world.protocols number).deleted))
    (connections : ∀ number, (world'.connections number).refCount =
        (world.connections number).refCount ∧
      ((world'.connections number).deleted →
        (world.connections number).deleted)) :
    Refs world' :=
  refs.of_same settles created (fun _ => by rw [messages])
    (fun _ => by rw [messages]) protocols connections

/-- A connection changes, but not its count. -/
theorem of_connection
    (refs : Refs world)
    {connection : Nat} {change : Connection → Connection}
    (settles : Settles world (world.updateConnection connection change))
    (refCount : ∀ connection,
      (change connection).refCount = connection.refCount)
    (deleted : ∀ connection,
      (change connection).deleted = connection.deleted) :
    Refs (world.updateConnection connection change) := by
  refine refs.of_counts settles rfl rfl (fun _ => ⟨rfl, id⟩) fun other => ?_
  by_cases same : other = connection <;>
    simp [updateConnection, same, refCount, deleted]

/-- A protocol changes, but not its count. -/
theorem of_protocol
    (refs : Refs world)
    {protocol : Nat} {change : Protocol → Protocol}
    (settles : Settles world (world.updateProtocol protocol change))
    (refCount : ∀ protocol, (change protocol).refCount = protocol.refCount)
    (deleted : ∀ protocol, (change protocol).deleted = protocol.deleted) :
    Refs (world.updateProtocol protocol change) := by
  refine refs.of_counts settles rfl rfl (fun other => ?_) fun _ => ⟨rfl, id⟩
  by_cases same : other = protocol <;>
    simp [updateProtocol, same, refCount, deleted]

/-- A protocol is made, perhaps for a new connection. -/
theorem makes
    (refs : Refs world)
    (sound : Sound world)
    (settles : Settles world world')
    (created : world'.created = world.created)
    (messages : world'.messages = world.messages)
    {connection : Option Nat}
    (protocols : world'.protocols =
      Function.update world.protocols world.protocolCount
        { connection := connection })
    (connections : ∀ number, (world'.connections number).refCount =
        (world.connections number).refCount ∧
      ((world'.connections number).deleted →
        (world.connections number).deleted)) :
    Refs world' := by
  refine refs.of_counts settles created messages (fun other => ?_) connections
  rw [protocols]
  by_cases new : other = world.protocolCount
  · simp [new, sound.unmadeProtocol _ (Nat.le_refl world.protocolCount)]
  · simp [new]

/-- A protocol whose count is 0 is deleted. -/
theorem deletesProtocol
    (refs : Refs world)
    {protocol : Nat}
    (made : protocol < world.protocolCount)
    (idle : (world.protocols protocol).refCount = 0) :
    Refs (world.updateProtocol protocol fun protocol =>
      { protocol with connection := none, deleted := true }) := by
  refine ⟨fun other => ?_, refs.connectionCounted, fun other deleted => ?_,
    refs.connectionDeleted⟩
  · show _ = world.references Message.protocol other
    rw [← refs.protocolCounted]
    by_cases same : other = protocol <;> simp [updateProtocol, same]
  · show _ ∧ world.references Message.protocol other = 0
    by_cases same : other = protocol
    · subst same
      exact ⟨⟨made, by simp [updateProtocol]⟩,
        (refs.protocolCounted other).symm.trans idle⟩
    · have before := refs.protocolDeleted other
        (by simpa [updateProtocol, same] using deleted)
      exact ⟨⟨before.1.1, by simpa [updateProtocol, same] using before.1.2⟩,
        before.2⟩

/-- A connection whose count is 0 is deleted. -/
theorem deletesConnection
    (refs : Refs world)
    {connection : Nat}
    (idle : (world.connections connection).refCount = 0)
    (detached : world.Detached connection) :
    Refs (world.deleteConnectionTask connection) := by
  have settles : Settles world (world.deleteConnectionTask connection) :=
    .of_connection (fun _ => id) fun _ => id
  refine ⟨refs.protocolCounted, fun other => ?_, refs.protocolDeleted,
    fun other deleted => ?_⟩
  · show _ = world.references Message.connection other
    rw [← refs.connectionCounted]
    by_cases same : other = connection <;>
      simp [deleteConnectionTask, updateConnection, same]
  · show _ ∧ world.references Message.connection other = 0
    by_cases same : other = connection
    · subst same
      exact ⟨(settles.detached other detached).1,
        (refs.connectionCounted other).symm.trans idle⟩
    · have before := refs.connectionDeleted other
        (by simpa [deleteConnectionTask, updateConnection, same] using deleted)
      exact ⟨(settles.detached other before.1).1, before.2⟩

/-- Every small change keeps it. -/
theorem change
    (refs : Refs world)
    (sound : Sound world)
    (places : Places world)
    (change : Change world world') :
    Refs world' := by
  have settles := change.settles sound places
  cases change with
  | points same =>
      exact refs.of_counts settles same.created same.messages
        (fun number => ⟨same.refCount number, by rw [same.deleted]; exact id⟩)
        fun number => by rw [same.connections]; exact ⟨rfl, id⟩
  | drops same =>
      refine refs.of_counts settles (by simp [same.created])
        (by simp [same.messages]) (fun number => ?_) fun number => ?_
      · rw [dropped_protocols]
        exact ⟨same.refCount number, by rw [same.deleted]; exact id⟩
      · rw [dropped_connections, same.connections]
        exact ⟨rfl, id⟩
  | takes connected => exact refs.takes sound places connected
  | @releases message rest first =>
      have created := (places.of_waiting
        (by simp [first] : .releaseMessage message ∈ world.tasks)).1
      have taken : Refs { world with tasks := rest } :=
        ⟨refs.protocolCounted, refs.connectionCounted, refs.protocolDeleted,
          refs.connectionDeleted⟩
      exact taken.releases created
  | @texts message change _ protocol connection =>
      refine refs.of_same settles rfl (fun other => ?_) (fun other => ?_)
        (fun _ => ⟨rfl, id⟩) fun _ => ⟨rfl, id⟩
      · by_cases same : other = message <;>
          simp [updateMessage, same, protocol]
      · by_cases same : other = message <;>
          simp [updateMessage, same, connection]
  | opens =>
      exact refs.of_counts settles rfl rfl (fun _ => ⟨rfl, id⟩) fun _ =>
        ⟨rfl, id⟩
  | writes => exact refs.of_connection settles (fun _ => rfl) fun _ => rfl
  | closes => exact refs.of_connection settles (fun _ => rfl) fun _ => rfl
  | requests =>
      exact refs.of_counts settles rfl rfl (fun _ => ⟨rfl, id⟩) fun _ =>
        ⟨rfl, id⟩
  | unlinks => exact refs.of_protocol settles (fun _ => rfl) fun _ => rfl
  | deletesProtocol made idle => exact refs.deletesProtocol made idle
  | detaches => exact refs.of_connection settles (fun _ => rfl) fun _ => rfl
  | schedules =>
      exact refs.of_counts settles rfl rfl (fun _ => ⟨rfl, id⟩) fun _ =>
        ⟨rfl, id⟩
  | deletesConnection idle detached =>
      exact refs.deletesConnection idle detached
  | due =>
      exact refs.of_counts settles rfl rfl (fun _ => ⟨rfl, id⟩) fun _ =>
        ⟨rfl, id⟩
  | takesTask =>
      exact refs.of_counts settles rfl rfl (fun _ => ⟨rfl, id⟩) fun _ =>
        ⟨rfl, id⟩
  | accepts singleSocket =>
      have fresh := sound.unmadeConnection world.connectionCount (Nat.le_refl _)
      have connections : ∀ {connection : Connection} (number : Nat),
          connection.refCount = 0 → connection.deleted = false →
          (Function.update world.connections world.connectionCount connection
              number).refCount = (world.connections number).refCount ∧
            ((Function.update world.connections world.connectionCount
              connection number).deleted →
                (world.connections number).deleted) := by
        intro connection number refCount deleted
        by_cases new : number = world.connectionCount
        · simp [new, fresh.2, refCount, deleted]
        · simp [new]
      cases singleSocket with
      | false =>
          exact refs.of_counts settles rfl rfl (fun _ => ⟨rfl, id⟩)
            fun number => connections number rfl rfl
      | true =>
          exact refs.makes sound settles rfl rfl rfl
            fun number => connections number rfl rfl
  | @makes _ connection made =>
      unfold makeProtocol at made
      split at made
      · cases made
        refine refs.makes sound settles rfl rfl rfl fun number => ?_
        rcases eq_or_ne number connection with rfl | other
        · simp [updateConnection]
        · simp [updateConnection, other]
      · cases made

/-- At first nothing refers to anything. -/
theorem start : Refs machine.start := by
  constructor <;> simp [machine, references]

end Refs

/-- What holds in every reachable state. -/
structure Balanced (world : World) : Prop where
  sound : Sound world
  places : Places world
  refs : Refs world

theorem Changes.balanced
    {world world' : World}
    (changes : Changes world world')
    (balanced : Balanced world) :
    Balanced world' :=
  changes.keeps
    (fun _ _ before change =>
      ⟨before.sound.change change, before.places.change change,
        before.refs.change before.sound before.places change⟩)
    balanced

/-- Every sequence of small changes settles. -/
theorem Changes.settles
    {world world' : World}
    (changes : Changes world world')
    (balanced : Balanced world) :
    Settles world world' := by
  induction changes with
  | refl => exact .refl world
  | tail before change inductionHypothesis =>
      have middle := Changes.balanced before balanced
      exact inductionHypothesis.trans
        (change.settles middle.sound middle.places)

theorem balanced_after (actions : List Action) :
    Balanced (machine.after actions) :=
  (changes_of_run sound_start actions).balanced
    ⟨sound_start, Places.start, Refs.start⟩

namespace World

variable {world : World}

/-- How many messages, in use or waiting to be released, point to a protocol,
or a connection. -/
def pointing
    (world : World)
    (target : Message → Option Nat)
    (number : Nat) : Nat :=
  (List.range world.created).countP fun message =>
    (message ∈ world.pointers ∨ .releaseMessage message ∈ world.tasks) ∧
      target (world.messages message) = some number

theorem pointing_le
    (world : World)
    (target : Message → Option Nat)
    (number : Nat) : world.pointing target number ≤ world.created :=
  List.countP_le_length.trans_eq List.length_range

/-- A free message refers to nothing. -/
theorem pointing_eq
    (places : Places world)
    {target : Message → Option Nat}
    (nobody : ∀ message : Message,
      message.protocol = none → message.connection = none →
        target message = none)
    (number : Nat) :
    world.pointing target number = world.references target number := by
  refine List.countP_congr fun message found => ?_
  have created := List.mem_range.mp found
  simp only [decide_eq_true_eq]
  refine ⟨And.right, fun refers => ⟨?_, refers⟩⟩
  rcases places.inOnePlace created with ⟨free, -⟩ | ⟨held, -⟩ | ⟨waits, -⟩
  · rw [nobody _ free.2.2.1 free.2.2.2] at refers
    cases refers
  · exact .inl held
  · exact .inr (List.count_pos_iff.mp (by rw [waits]; exact Nat.one_pos))

theorem pointing_protocol
    (places : Places world)
    (protocol : Nat) :
    world.pointing Message.protocol protocol =
      world.references Message.protocol protocol :=
  pointing_eq places (fun _ unset _ => unset) protocol

theorem pointing_connection
    (places : Places world)
    (connection : Nat) :
    world.pointing Message.connection connection =
      world.references Message.connection connection :=
  pointing_eq places (fun _ _ unset => unset) connection

/-- A message that waits to be released counts. -/
theorem pointing_pos
    (places : Places world)
    {message number : Nat} {target : Message → Option Nat}
    (waiting : .releaseMessage message ∈ world.tasks)
    (refers : target (world.messages message) = some number) :
    0 < world.pointing target number := by
  refine List.countP_pos_iff.mpr
    ⟨message, List.mem_range.mpr (places.of_waiting waiting).1, ?_⟩
  simp [waiting, refers]

/-- `closeConnectionTask` clears the connection of the protocol. -/
theorem closeConnectionTask_cleared
    (sound : Sound world)
    {connection protocol : Nat}
    (requested :
      (world.connections connection).connectionState = .requestClose)
    (linked : (world.connections connection).protocol = some protocol) :
    (world.closeConnectionTask connection).Cleared protocol := by
  have made := sound.made connection protocol linked
  have released : (world.releaseOwnProtocol connection).Cleared protocol := by
    have unlinked : ((world.updateProtocol protocol fun protocol =>
        { protocol with connection := none }).protocols
          protocol).connection = none := by
      simp [updateProtocol]
    have same : ∀ other : World,
        (other.releaseProtocol protocol).protocolCount =
          other.protocolCount := by
      intro other
      unfold releaseProtocol deleteProtocolTask
      split
      · rfl
      · rw [resetOutputBuffer_eq]
        rfl
    refine ⟨?_, ?_⟩
    · simp only [releaseOwnProtocol, linked, updateConnection, same]
      exact made
    · simpa [releaseOwnProtocol, linked, updateConnection] using
        releaseProtocol_unlinked unlinked
  have last : ∀ other : World, other.Cleared protocol →
      (other.releaseConnection connection).Cleared protocol := by
    intro other cleared
    unfold releaseConnection
    split <;> exact cleared
  unfold closeConnectionTask
  rw [if_neg (not_not.mpr requested)]
  simp only
  split
  · exact last _ released
  · exact released

/-- Every reference count is the number of the messages that point there. -/
def CountsMatch (world : World) : Prop :=
  (∀ protocol, (world.protocols protocol).refCount =
      world.pointing Message.protocol protocol) ∧
    ∀ connection, (world.connections connection).refCount =
      world.pointing Message.connection connection

/-- `closeConnectionTask` clears the protocol of the connection. -/
def ClosingClears (world : World) : Prop :=
  ∀ connection protocol,
    (world.connections connection).connectionState = .requestClose →
    (world.connections connection).protocol = some protocol →
    (world.closeConnectionTask connection).Cleared protocol

/-- No message more points to what was cleared. -/
def NeverGrows (world later : World) : Prop :=
  (∀ protocol, world.Cleared protocol →
      later.pointing Message.protocol protocol ≤
        world.pointing Message.protocol protocol) ∧
    ∀ connection, world.Detached connection →
      later.pointing Message.connection connection ≤
        world.pointing Message.connection connection

/-- No message points to what was deleted. -/
def DeletedIdle (world : World) : Prop :=
  (∀ protocol, (world.protocols protocol).deleted →
      world.pointing Message.protocol protocol = 0) ∧
    ∀ connection, (world.connections connection).deleted →
      world.pointing Message.connection connection = 0

/-- The reference counts fit into 32 bits, and are not 0 when a reference is
given back. -/
structure CountsFit (world : World) : Prop where
  /-- The counts of the protocols. -/
  protocol : ∀ protocol, (world.protocols protocol).refCount < 2 ^ 32
  /-- The counts of the connections. -/
  connection : ∀ connection, (world.connections connection).refCount < 2 ^ 32
  /-- A message gives back what has been counted. -/
  given : ∀ message, .releaseMessage message ∈ world.tasks →
    (∀ protocol, (world.messages message).protocol = some protocol →
      0 < (world.protocols protocol).refCount) ∧
    ∀ connection, (world.messages message).connection = some connection →
      0 < (world.connections connection).refCount

/-- What `internalReleaseMessage` will touch has not been deleted. -/
def ReleasesAlive (world : World) : Prop :=
  ∀ message, .releaseMessage message ∈ world.tasks →
    (∀ protocol, (world.messages message).protocol = some protocol →
      (world.protocols protocol).deleted = false) ∧
    ∀ connection, (world.messages message).connection = some connection →
      (world.connections connection).deleted = false

end World

namespace Balanced

variable {world later : World}

theorem countsMatch (balanced : Balanced world) : world.CountsMatch := by
  constructor
  · intro protocol
    rw [pointing_protocol balanced.places]
    exact balanced.refs.protocolCounted protocol
  · intro connection
    rw [pointing_connection balanced.places]
    exact balanced.refs.connectionCounted connection

/-- A count is at most the number of the messages. -/
theorem countsFit
    (balanced : Balanced world)
    (fewer : world.created < 2 ^ 32) : world.CountsFit := by
  obtain ⟨protocols, connections⟩ := balanced.countsMatch
  refine ⟨fun protocol => ?_, fun connection => ?_, fun message waiting => ?_⟩
  · rw [protocols]
    exact (world.pointing_le _ _).trans_lt fewer
  · rw [connections]
    exact (world.pointing_le _ _).trans_lt fewer
  · refine ⟨fun protocol refers => ?_, fun connection refers => ?_⟩
    · rw [protocols]
      exact pointing_pos balanced.places waiting refers
    · rw [connections]
      exact pointing_pos balanced.places waiting refers

theorem neverGrows
    (balanced : Balanced world)
    (changes : Changes world later) :
    world.NeverGrows later := by
  have settles := changes.settles balanced
  have last := changes.balanced balanced
  constructor
  · intro protocol cleared
    rw [pointing_protocol balanced.places, pointing_protocol last.places]
    exact (settles.cleared protocol cleared).2
  · intro connection detached
    rw [pointing_connection balanced.places, pointing_connection last.places]
    exact (settles.detached connection detached).2

theorem deletedIdle (balanced : Balanced world) : world.DeletedIdle := by
  constructor
  · intro protocol deleted
    rw [pointing_protocol balanced.places]
    exact (balanced.refs.protocolDeleted protocol deleted).2
  · intro connection deleted
    rw [pointing_connection balanced.places]
    exact (balanced.refs.connectionDeleted connection deleted).2

theorem releasesAlive (balanced : Balanced world) : world.ReleasesAlive := by
  intro message waiting
  constructor
  · intro protocol refers
    have pointed := pointing_pos balanced.places waiting refers
    by_contra deleted
    have idle := balanced.deletedIdle.1 protocol (by simpa using deleted)
    omega
  · intro connection refers
    have pointed := pointing_pos balanced.places waiting refers
    by_contra deleted
    have idle := balanced.deletedIdle.2 connection (by simpa using deleted)
    omega

end Balanced

/-- At each moment the reference counts are the numbers of the messages that
point to the protocol or the connection; `closeConnectionTask` clears the
protocol, and from then on no message more points to it; none points to one
that has been deleted; and what the tasks that release messages touch has not
been deleted. -/
theorem references_counted (actions more : List Action) :
    (machine.after actions).CountsMatch ∧
      (machine.after actions).ClosingClears ∧
      (machine.after actions).NeverGrows (machine.after (actions ++ more)) ∧
      (machine.after actions).DeletedIdle ∧
      (machine.after actions).ReleasesAlive := by
  have balanced := balanced_after actions
  refine ⟨balanced.countsMatch,
    fun _ _ => closeConnectionTask_cleared balanced.sound,
    balanced.neverGrows ?_, balanced.deletedIdle, balanced.releasesAlive⟩
  rw [Machine.after_append]
  exact changes_of_run balanced.sound more

/-- As long as there are fewer than 2³² messages, counting in 32 bits makes no
difference. -/
theorem referenceCounts_fit
    (actions : List Action)
    (fewer : (machine.after actions).created < 2 ^ 32) :
    (machine.after actions).CountsFit :=
  (balanced_after actions).countsFit fewer

end OutputPool
end Network
end Lotospp
