import Lotospp.Network.PoolChanges

/-!
# The functions of the pool in small changes

Each function is a sequence of small changes, from every state in which
protocols and connections know each other; so whatever the small changes keep
holds in every reachable state.
-/

namespace Lotospp
namespace Network
namespace OutputPool

open Common Effect World

namespace World

variable {world : World}

/-! ## Pointers -/

/-- Another pointer to a message is held. -/
theorem hold_changes
    {message : Nat}
    (pointed : message ∈ world.pointers) :
    Change world { world with held := message :: world.held } := by
  refine .points (.of_lists world _ _ _) (fun other => ?_) fun _ _ => .inl
  constructor
  · intro found
    by_cases same : other = message
    · rwa [same]
    · simpa [mem_pointers, same] using found
  · intro found
    rw [mem_pointers] at found ⊢
    rcases found with inAuto | inQueue | inHeld | buffered
    · exact .inl inAuto
    · exact .inr (.inl inQueue)
    · exact .inr (.inr (.inl (List.mem_cons_of_mem _ inHeld)))
    · exact .inr (.inr (.inr buffered))

/-- A pointer of the holders or of the queues goes. -/
theorem drop_changes_of_lists
    {message : Nat} {autoSend toAddQueue held : List Nat}
    (pointed : message ∈ world.pointers)
    (split : ∀ other,
      other ∈ world.autoSend ++ world.toAddQueue ++ world.held ↔
        other ∈ autoSend ++ toAddQueue ++ held ∨ other = message) :
    Change world
      ({ world with
        autoSend := autoSend, toAddQueue := toAddQueue, held := held
        }.dropped message) := by
  refine .drops (.of_lists world _ _ _) pointed (fun other => ?_)
    fun _ _ => id
  have split := split other
  simp only [World.pointers, List.mem_append] at split ⊢
  tauto

/-- A pointer that is held goes. -/
theorem drop_changes
    {message : Nat}
    (held : message ∈ world.held) :
    Change world (world.drop message) := by
  refine drop_changes_of_lists
    (mem_pointers.mpr (.inr (.inr (.inl held)))) fun other => ?_
  by_cases same : other = message
  · simp [same, held]
  · simp [same, List.mem_erase_of_ne same]

/-- The pointers when an output buffer is set. -/
theorem mem_pointers_outputBuffer
    {protocol message : Nat} {outputBuffer : Option Nat}
    (made : protocol < world.protocolCount) :
    message ∈ (world.updateProtocol protocol fun protocol =>
        { protocol with outputBuffer := outputBuffer }).pointers ↔
      message ∈ world.autoSend ++ world.toAddQueue ++ world.held ∨
        (∃ other < world.protocolCount, other ≠ protocol ∧
          (world.protocols other).outputBuffer = some message) ∨
        outputBuffer = some message := by
  simp only [mem_pointers, World.updateProtocol, List.mem_append]
  constructor
  · rintro (inAuto | inQueue | inHeld | ⟨other, bound, buffer⟩)
    · exact .inl (.inl (.inl inAuto))
    · exact .inl (.inl (.inr inQueue))
    · exact .inl (.inr inHeld)
    · by_cases same : other = protocol
      · subst same
        exact .inr (.inr (by simpa using buffer))
      · exact .inr (.inl ⟨other, bound, same, by simpa [same] using buffer⟩)
  · rintro (((inAuto | inQueue) | inHeld) | ⟨other, bound, same, buffer⟩ | set)
    · exact .inl inAuto
    · exact .inr (.inl inQueue)
    · exact .inr (.inr (.inl inHeld))
    · exact .inr (.inr (.inr ⟨other, bound, by simpa [same] using buffer⟩))
    · exact .inr (.inr (.inr ⟨protocol, made, by simpa using set⟩))

/-- The output buffer of a protocol is dropped. -/
theorem resetOutputBuffer_changes
    (sound : Sound world)
    (protocol : Nat) :
    Changes world (world.resetOutputBuffer protocol) := by
  unfold resetOutputBuffer
  cases buffer : (world.protocols protocol).outputBuffer with
  | none => exact .refl world
  | some message =>
      have made := sound.unmadeBuffer buffer
      refine .of_change (.drops (.of_outputBuffer world protocol none) ?_
        (fun other => ?_) fun other target found => ?_)
      · exact mem_pointers.mpr (.inr (.inr (.inr ⟨protocol, made, buffer⟩)))
      · rw [mem_pointers_outputBuffer made, mem_pointers]
        simp only [List.mem_append, reduceCtorEq, or_false]
        constructor
        · rintro (inAuto | inQueue | inHeld | ⟨holder, bound, found⟩)
          · exact .inl (.inl (.inl (.inl inAuto)))
          · exact .inl (.inl (.inl (.inr inQueue)))
          · exact .inl (.inl (.inr inHeld))
          · by_cases same : holder = protocol
            · subst same
              exact .inr (Option.some.inj (found.symm.trans buffer))
            · exact .inl (.inr ⟨holder, bound, same, found⟩)
        · rintro ((((inAuto | inQueue) | inHeld) | ⟨holder, bound, _, found⟩) |
            rfl)
          · exact .inl inAuto
          · exact .inr (.inl inQueue)
          · exact .inr (.inr (.inl inHeld))
          · exact .inr (.inr (.inr ⟨holder, bound, found⟩))
          · exact .inr (.inr (.inr ⟨protocol, made, buffer⟩))
      · by_cases same : other = protocol
        · simp [World.updateProtocol, same] at found
        · simpa [World.updateProtocol, same] using found

/-- `onSendMessage` drops the output buffer at most. -/
theorem onSendMessage_changes
    (sound : Sound world)
    (message : Nat) :
    Changes world (world.onSendMessage message) := by
  unfold onSendMessage
  split
  · exact .refl world
  · split
    · exact resetOutputBuffer_changes sound _
    · exact .refl world

/-- Sending changes neither the queue of `sendAll` nor what is held. -/
theorem resetOutputBuffer_eq (protocol : Nat) :
    world.resetOutputBuffer protocol =
      { world with
        protocols := (world.resetOutputBuffer protocol).protocols
        tasks := (world.resetOutputBuffer protocol).tasks } := by
  unfold resetOutputBuffer
  split
  · rfl
  · rw [dropped_eq]
    rfl

theorem onSendMessage_eq (message : Nat) :
    world.onSendMessage message =
      { world with
        protocols := (world.onSendMessage message).protocols
        tasks := (world.onSendMessage message).tasks } := by
  unfold onSendMessage
  split
  · rfl
  · split
    · exact resetOutputBuffer_eq _
    · rfl

/-! ## Getting messages -/

theorem getOutputMessage_changes (protocol : Nat) (autosend : Bool) :
    Changes world (world.getOutputMessage protocol autosend).2 := by
  unfold getOutputMessage
  split
  · split
    · exact .refl world
    · next connection connected => exact .of_change (.takes connected)
  · exact .refl world

/-- A message that `getOutputMessage` returns has been handed out. -/
theorem getOutputMessage_eq_some
    {protocol message : Nat} {autosend : Bool} {world' : World}
    (got : world.getOutputMessage protocol autosend =
      (some message, world')) :
    ∃ connection, (world.protocols protocol).connection = some connection ∧
      message = world.takeFree.1 ∧
      world' = world.handOut protocol connection autosend := by
  unfold getOutputMessage at got
  split at got
  · split at got
    · cases got
    · next connection connected =>
        cases got
        exact ⟨connection, connected, rfl, rfl⟩
  · cases got

/-- The output buffer of a protocol becomes a message that is pointed to. -/
theorem setOutputBuffer_changes
    {protocol message : Nat}
    (made : protocol < world.protocolCount)
    (pointed : message ∈ world.pointers)
    (own : (world.messages message).protocol = some protocol)
    (empty : (world.protocols protocol).outputBuffer = none) :
    Change world
      (world.updateProtocol protocol fun protocol =>
        { protocol with outputBuffer := some message }) := by
  refine .points (.of_outputBuffer world protocol _) (fun other => ?_)
    fun other target buffer => ?_
  · rw [mem_pointers_outputBuffer made]
    constructor
    · rintro (listed | ⟨holder, bound, _, buffer⟩ | ⟨⟨⟩⟩)
      · simp only [List.mem_append] at listed
        rw [mem_pointers]
        tauto
      · exact mem_pointers.mpr (.inr (.inr (.inr ⟨holder, bound, buffer⟩)))
      · exact pointed
    · intro found
      rw [mem_pointers] at found
      simp only [List.mem_append]
      rcases found with inAuto | inQueue | inHeld | ⟨holder, bound, buffer⟩
      · exact .inl (.inl (.inl inAuto))
      · exact .inl (.inl (.inr inQueue))
      · exact .inl (.inr inHeld)
      · refine .inr (.inl ⟨holder, bound, ?_, buffer⟩)
        rintro rfl
        rw [empty] at buffer
        cases buffer
  · by_cases same : other = protocol
    · subst same
      obtain rfl : message = target := by
        simpa [World.updateProtocol] using buffer
      exact .inr ⟨own, made⟩
    · exact .inl (by simpa [World.updateProtocol, same] using buffer)

theorem resetOutputBuffer_empty (protocol : Nat) :
    ((world.resetOutputBuffer protocol).protocols protocol).outputBuffer =
      none := by
  unfold resetOutputBuffer
  split
  · assumption
  · simp [World.updateProtocol]

theorem getOutputBuffer_changes
    (sound : Sound world)
    (protocol : Nat) :
    Changes world (world.getOutputBuffer protocol) := by
  unfold getOutputBuffer
  split
  · next message found =>
      have buffer := (Option.filter_eq_some_iff.mp found).1
      have made := sound.unmadeBuffer buffer
      exact .of_change (hold_changes
        (mem_pointers.mpr (.inr (.inr (.inr ⟨protocol, made, buffer⟩)))))
  · split
    · exact .refl world
    · split
      · next after got =>
          have taken : Changes world after := by
            have taken := @getOutputMessage_changes world protocol true
            rwa [got] at taken
          exact taken.trans (resetOutputBuffer_changes (taken.sound sound) _)
      · next message after got =>
          obtain ⟨connection, connected, rfl, rfl⟩ :=
            getOutputMessage_eq_some got
          have taken : Changes world
              (world.handOut protocol connection true) :=
            .of_change (.takes connected)
          have reset := taken.trans
            (resetOutputBuffer_changes (taken.sound sound) protocol)
          refine reset.change (setOutputBuffer_changes ?_ ?_ ?_
            (resetOutputBuffer_empty protocol))
          · rw [resetOutputBuffer_eq]
            simpa using (sound.connected connected).1
          · rw [mem_pointers, resetOutputBuffer_eq]
            simp [handOut_held]
          · rw [resetOutputBuffer_eq]
            simp [handOut_messages]

/-! ## Closing and releasing -/

theorem closeConnection_changes
    {connection : Nat}
    (created : connection < world.connectionCount) :
    Changes world (world.closeConnection connection) := by
  unfold closeConnection
  simp only
  split
  · exact .refl world
  · have closes := Changes.of_change (.closes .requestClose created (by decide))
    exact closes.change .requests

theorem onWriteTimeout_changes
    {connection : Nat}
    (created : connection < world.connectionCount) :
    Changes world (world.onWriteTimeout connection) := by
  unfold onWriteTimeout
  split
  · refine Changes.trans (.of_change ?_) (closeConnection_changes created)
    exact .writes false (world.connections connection).writeError
  · exact .refl world

theorem releaseProtocol_changes
    (sound : Sound world)
    {protocol : Nat}
    (made : protocol < world.protocolCount) :
    Changes world (world.releaseProtocol protocol) := by
  unfold releaseProtocol
  split
  · exact .of_change (.schedules made)
  · next idle =>
      have deletes : Changes world _ :=
        .of_change (.deletesProtocol made (Nat.eq_zero_of_not_pos idle))
      exact deletes.trans
        (resetOutputBuffer_changes (deletes.sound sound) protocol)

theorem releaseConnection_changes
    {connection : Nat}
    (detached : world.Detached connection) :
    Changes world (world.releaseConnection connection) := by
  unfold releaseConnection
  split
  · exact .of_change (.schedules detached)
  · next idle =>
      exact .of_change
        (.deletesConnection (Nat.eq_zero_of_not_pos idle) detached)

theorem releaseProtocol_connections (protocol : Nat) :
    (world.releaseProtocol protocol).connections = world.connections := by
  unfold releaseProtocol deleteProtocolTask
  split
  · rfl
  · rw [resetOutputBuffer_eq]
    rfl

theorem resetOutputBuffer_connection (protocol other : Nat) :
    ((world.resetOutputBuffer protocol).protocols other).connection =
      (world.protocols other).connection := by
  unfold resetOutputBuffer
  split
  · rfl
  · by_cases same : other = protocol <;> simp [World.updateProtocol, same]

theorem releaseProtocol_unlinked
    {protocol : Nat}
    (unlinked : (world.protocols protocol).connection = none) :
    ((world.releaseProtocol protocol).protocols protocol).connection =
      none := by
  unfold releaseProtocol deleteProtocolTask
  split
  · exact unlinked
  · rw [resetOutputBuffer_connection]
    simp [World.updateProtocol]

/-- The protocol of a connection is released, and the connection has none. -/
theorem releaseOwnProtocol_changes
    (sound : Sound world)
    (connection : Nat) :
    Changes world (world.releaseOwnProtocol connection) := by
  unfold releaseOwnProtocol
  cases linked : (world.connections connection).protocol with
  | none => exact .refl world
  | some protocol =>
      have made := sound.made connection protocol linked
      have unlinks : Changes world
          (world.updateProtocol protocol fun protocol =>
            { protocol with connection := none }) :=
        .of_change .unlinks
      have released := unlinks.trans
        (releaseProtocol_changes (unlinks.sound sound) made)
      refine released.change (.detaches fun other connected => ?_)
      have back := (released.sound sound).link other connection connected
      rw [releaseProtocol_connections] at back
      obtain rfl : protocol = other :=
        Option.some.inj (linked.symm.trans back)
      rw [releaseProtocol_unlinked (by simp [World.updateProtocol])]
        at connected
      cases connected

/-- Its state is as before. -/
theorem releaseOwnProtocol_connection (connection : Nat) :
    ((world.releaseOwnProtocol connection).connections
        connection).connectionState =
      (world.connections connection).connectionState ∧
    ((world.releaseOwnProtocol connection).connections
        connection).protocol = none := by
  unfold releaseOwnProtocol
  cases linked : (world.connections connection).protocol with
  | none => exact ⟨rfl, linked⟩
  | some protocol =>
      simp [World.updateConnection, releaseProtocol_connections,
        World.updateProtocol]

theorem releaseConnection_connectionCount (connection : Nat) :
    (world.releaseConnection connection).connectionCount =
      world.connectionCount := by
  unfold releaseConnection
  split <;> rfl

/-- The socket of a closing connection is closed. -/
theorem closeSocket_changes
    {connection : Nat}
    (created : connection < world.connectionCount)
    (detached : world.Detached connection) :
    Changes world
      (((world.updateConnection connection fun connection =>
        { connection with pendingWrite := false }).releaseConnection
          connection).updateConnection connection fun connection =>
            { connection with connectionState := .closed }) := by
  have written : Changes world
      (world.updateConnection connection fun connection =>
        { connection with pendingWrite := false }) :=
    .of_change (.writes false (world.connections connection).writeError)
  refine (written.trans (releaseConnection_changes ?_)).change
    (.closes .closed ?_ (by decide))
  · simpa [Detached, World.updateConnection] using detached
  · rwa [releaseConnection_connectionCount]

theorem closeConnectionTask_changes
    (sound : Sound world)
    (connection : Nat) :
    Changes world (world.closeConnectionTask connection) := by
  unfold closeConnectionTask
  split
  · exact .refl world
  · next requested =>
      have requested := not_not.mp requested
      have released := releaseOwnProtocol_changes sound connection
      obtain ⟨state, unlinked⟩ :=
        @releaseOwnProtocol_connection world connection
      have created : connection <
          (world.releaseOwnProtocol connection).connectionCount := by
        by_contra unmade
        have opened := (released.sound sound).unmadeState connection
          (Nat.le_of_not_lt unmade)
        rw [state, requested] at opened
        cases opened
      have closing := released.change (.closes .closing created (by decide))
      simp only
      split
      · refine closing.trans (closeSocket_changes created ?_)
        simpa [Detached, World.updateConnection] using unlinked
      · exact closing

/-! ## Sending -/

theorem closeConnection_eq (connection : Nat) :
    world.closeConnection connection =
      { world with
        connections := (world.closeConnection connection).connections
        tasks := (world.closeConnection connection).tasks } := by
  unfold closeConnection
  simp only
  split <;> rfl

/-- A message that waits is pointed to already. -/
theorem queue_changes
    {message : Nat}
    (pointed : message ∈ world.pointers) :
    Change world
      { world with toAddQueue := world.toAddQueue ++ [message] } := by
  refine .points (.of_lists world _ _ _) (fun other => ?_) fun _ _ => .inl
  rw [mem_pointers, mem_pointers]
  rw [mem_pointers] at pointed
  simp only [List.mem_append, List.mem_singleton]
  constructor
  · rintro (inAuto | (inQueue | rfl) | inHeld | buffered)
    · exact .inl inAuto
    · exact .inr (.inl inQueue)
    · exact pointed
    · exact .inr (.inr (.inl inHeld))
    · exact .inr (.inr (.inr buffered))
  · rintro (inAuto | inQueue | inHeld | buffered)
    · exact .inl inAuto
    · exact .inr (.inl (.inl inQueue))
    · exact .inr (.inr (.inl inHeld))
    · exact .inr (.inr (.inr buffered))

theorem connectionSend_changes
    (sound : Sound world)
    {connection message : Nat}
    (created : connection < world.connectionCount)
    (pointed : message ∈ world.pointers)
    (write : Write) :
    Changes world (world.connectionSend connection message write).2 := by
  unfold connectionSend
  split
  · exact .refl world
  · split
    · exact .of_change (queue_changes pointed)
    · have reported := onSendMessage_changes sound message
      have written := reported.change
        (.writes write.pendingWrite write.writeError : Change _
          ((world.onSendMessage message).updateConnection connection
            fun connection =>
              { connection with
                pendingWrite := write.pendingWrite
                writeError := write.writeError }))
      simp only
      split
      · refine written.trans (closeConnection_changes ?_)
        rw [onSendMessage_eq]
        exact created
      · exact written

/-- Sending a message changes neither what is sent by itself nor what is
held. -/
theorem connectionSend_lists (connection message : Nat) (write : Write) :
    (world.connectionSend connection message write).2.autoSend =
        world.autoSend ∧
      (world.connectionSend connection message write).2.held =
        world.held := by
  unfold connectionSend
  split
  · exact ⟨rfl, rfl⟩
  · split
    · exact ⟨rfl, rfl⟩
    · simp only
      split
      · rw [closeConnection_eq, onSendMessage_eq]
        exact ⟨rfl, rfl⟩
      · rw [onSendMessage_eq]
        exact ⟨rfl, rfl⟩

theorem sendOrReport_changes
    (sound : Sound world)
    {message : Nat}
    (pointed : message ∈ world.pointers)
    (write : Write) :
    Changes world (world.sendOrReport message write) := by
  unfold sendOrReport
  split
  · exact .refl world
  · next connection target =>
      have sent := connectionSend_changes sound
        (sound.addressed message connection target) pointed write
      split
      · next after result =>
          rwa [result] at sent
      · next after result =>
          rw [result] at sent
          exact sent.trans (onSendMessage_changes (sent.sound sound) message)

theorem sendOrReport_lists (message : Nat) (write : Write) :
    (world.sendOrReport message write).autoSend = world.autoSend ∧
      (world.sendOrReport message write).held = world.held := by
  unfold sendOrReport
  split
  · exact ⟨rfl, rfl⟩
  · next connection target =>
      have sent := @connectionSend_lists world connection message write
      split
      · next after result =>
          rwa [result] at sent
      · next after result =>
          rw [result] at sent
          rw [onSendMessage_eq]
          exact sent

theorem send_changes
    (sound : Sound world)
    {message : Nat}
    (pointed : message ∈ world.pointers)
    (write : Write) :
    Changes world (world.send message write) := by
  unfold send
  split
  · exact sendOrReport_changes sound pointed write
  · exact .refl world

/-- One turn of the loop over `m_toAddQueue`. -/
theorem addToSend_changes
    (sound : Sound world)
    {message : Nat} {rest : List Nat}
    (queued : world.toAddQueue = message :: rest)
    (old : Bool) :
    Changes world (world.addToSend old message rest) := by
  have pointed : message ∈ world.pointers := by
    simp [mem_pointers, queued]
  cases old with
  | true =>
      have reported := onSendMessage_changes sound message
      refine reported.change (drop_changes_of_lists ?_ fun other => ?_)
      · rw [onSendMessage_eq, mem_pointers]
        simp [queued]
      · rw [onSendMessage_eq]
        simp only [queued, List.mem_append, List.mem_cons]
        tauto
  | false =>
      have marked : Changes world
          (world.updateMessage message fun message =>
            { message with state := .allocated }) :=
        .of_change (.texts pointed (fun _ => rfl) (fun _ => rfl) fun _ => rfl)
      refine marked.change
        (.points (.of_lists _ _ _ _) (fun other => ?_) fun _ _ => .inl)
      simp only [addToSend, World.pointers, World.updateMessage, queued,
        Bool.false_eq_true, if_false, List.mem_append, List.mem_cons,
        List.not_mem_nil]
      tauto

theorem addToSend_toAddQueue
    (old : Bool) (message : Nat) (rest : List Nat) :
    (world.addToSend old message rest).toAddQueue = rest := by
  unfold addToSend
  cases old <;> simp

theorem addAllToSend_changes (old : Nat → Bool) (queue : List Nat) :
    ∀ {world : World}, Sound world → world.toAddQueue = queue →
      Changes world (addAllToSend old queue world) := by
  induction queue with
  | nil => exact fun _ _ => .refl _
  | cons message rest inductionHypothesis =>
      intro world sound queued
      have added := addToSend_changes sound queued (old message)
      exact added.trans (inductionHypothesis (added.sound sound)
        (addToSend_toAddQueue _ _ _))

/-- A message that is held is not sent by itself any more. -/
theorem next_changes
    {message : Nat} {rest : List Nat}
    (queued : world.autoSend = message :: rest)
    (held : message ∈ world.held) :
    Change world { world with autoSend := rest } := by
  refine .points (.of_lists world _ _ _) (fun other => ?_) fun _ _ => .inl
  simp only [World.pointers, queued, List.mem_append, List.mem_cons]
  constructor
  · tauto
  · rintro ((((rfl | inAuto) | inQueue) | inHeld) | buffered)
    · exact .inl (.inr held)
    all_goals tauto

/-- One turn of the loop over `m_autoSendOutputMessages`. -/
theorem sendNext_changes
    (sound : Sound world)
    {message : Nat} {rest : List Nat}
    (queued : world.autoSend = message :: rest)
    (write : Write) :
    Changes world (world.sendNext write message rest) := by
  let holding : World := { world with held := message :: world.held }
  have held : Changes world holding :=
    .of_change (hold_changes (by simp [mem_pointers, queued]))
  have pointed : message ∈ holding.pointers := by
    simp [mem_pointers, holding]
  have sent := held.trans
    (sendOrReport_changes (held.sound sound) pointed write)
  obtain ⟨sameAutoSend, sameHeld⟩ :=
    @sendOrReport_lists holding message write
  have still : message ∈ (holding.sendOrReport message write).held := by
    rw [sameHeld]
    exact List.mem_cons_self
  exact (sent.change (next_changes (sameAutoSend.trans queued) still)).change
    (drop_changes still)

theorem sendNext_autoSend (write : Write) (message : Nat) (rest : List Nat) :
    (world.sendNext write message rest).autoSend = rest := by
  simp [sendNext]

theorem sendEach_changes (write : Nat → Write) (queue : List Nat) :
    ∀ {world : World}, Sound world → world.autoSend = queue →
      Changes world (sendEach write queue world) := by
  induction queue with
  | nil => exact fun _ _ => .refl _
  | cons message rest inductionHypothesis =>
      intro world sound queued
      have sent := sendNext_changes sound queued (write message)
      exact sent.trans (inductionHypothesis (sent.sound sound)
        (sendNext_autoSend _ _ _))

theorem sendAll_changes
    (sound : Sound world)
    (old : Nat → Bool)
    (write : Nat → Write) :
    Changes world (world.sendAll old write) := by
  have added := addAllToSend_changes old world.toAddQueue sound rfl
  exact added.trans
    (sendEach_changes write _ (added.sound sound) rfl)

theorem write_changes
    (sound : Sound world)
    {protocol size : Nat} {write : Write} {world' : World}
    (wrote : world.write protocol size write = some world') :
    Changes world world' := by
  unfold World.write at wrote
  split at wrote
  · cases wrote
  · next message after got =>
      obtain ⟨connection, connected, rfl, rfl⟩ := getOutputMessage_eq_some got
      have taken : Changes world (world.handOut protocol connection false) :=
        .of_change (.takes connected)
      have pointed : world.takeFree.1 ∈
          (world.handOut protocol connection false).pointers :=
        mem_pointers_handOut.mpr (.inl rfl)
      have texted := taken.change (.texts pointed (fun _ => rfl)
        (fun _ => rfl) (fun _ => rfl) : Change _
          ((world.handOut protocol connection false).updateMessage
            world.takeFree.1 fun message =>
              { message with msgSize := size, readPos := size }))
      have same : (((world.handOut protocol connection false).updateMessage
          world.takeFree.1 fun message =>
            { message with msgSize := size, readPos := size }).protocols
              protocol).connection = some connection := by
        simpa [World.updateMessage, handOut_protocols] using connected
      simp only [same, Option.map_some, Option.some.injEq] at wrote
      subst wrote
      have created := ((texted.sound sound).connected same).2
      have sent := texted.trans
        (connectionSend_changes (texted.sound sound) created pointed write)
      refine sent.change (drop_changes ?_)
      rw [(connectionSend_lists _ _ _).2]
      simp [World.updateMessage, handOut_held]

/-! ## Steps -/

/-- Recognizing a new telnet client changes nothing in the end. -/
theorem parseFirstPacket_eq (protocol : Nat) :
    world.parseFirstPacket protocol = world := by
  simp [parseFirstPacket, World.updateProtocol]

/-- The dispatcher runs its first task. -/
theorem perform_changes
    (sound : Sound world)
    {task : Task} {rest : List Task}
    (first : world.tasks = task :: rest) :
    Changes world ({ world with tasks := rest }.perform task) := by
  have taken : (∀ message, task ≠ .releaseMessage message) →
      Changes world { world with tasks := rest } :=
    fun other => .of_change (.takesTask first other)
  cases task with
  | releaseMessage message => exact .of_change (.releases first)
  | closeConnection connection =>
      have taken := taken (by simp)
      exact taken.trans
        (closeConnectionTask_changes (taken.sound sound) connection)
  | event event =>
      have ready := sound.ready event (.inr (by simp [first]))
      cases event with
      | releaseProtocol protocol =>
          have taken := taken (by simp)
          exact taken.trans
            (releaseProtocol_changes (taken.sound sound) ready)
      | releaseConnection connection =>
          have taken := taken (by simp)
          exact taken.trans (releaseConnection_changes ready)

end World

/-- Every step is a sequence of small changes. -/
theorem changes_of_step
    {world world' : World} {action : Action}
    (sound : Sound world)
    (stepped : step world action = some world') :
    Changes world world' := by
  cases action with
  | startExecutionFrame time =>
      cases stepped
      exact .of_change .opens
  | stop =>
      cases stepped
      exact .of_change .opens
  | onAccept singleSocket =>
      cases stepped
      exact .of_change (.accepts singleSocket)
  | makeProtocol connection => exact .of_change (.makes stepped)
  | parseFirstPacket protocol =>
      cases stepped
      rw [parseFirstPacket_eq]
      exact .refl world
  | getOutputMessage protocol autosend =>
      cases stepped
      exact getOutputMessage_changes protocol autosend
  | getOutputBuffer protocol =>
      cases stepped
      exact getOutputBuffer_changes sound protocol
  | copy message =>
      simp only [step, Option.ite_none_right_eq_some, Option.some.injEq]
        at stepped
      obtain ⟨pointed, rfl⟩ := stepped
      exact .of_change (hold_changes pointed)
  | drop message =>
      simp only [step, Option.ite_none_right_eq_some, Option.some.injEq]
        at stepped
      obtain ⟨held, rfl⟩ := stepped
      exact .of_change (drop_changes held)
  | add message size =>
      simp only [step, Option.ite_none_right_eq_some, Option.some.injEq]
        at stepped
      obtain ⟨pointed, rfl⟩ := stepped
      exact .of_change
        (.texts pointed (fun _ => rfl) (fun _ => rfl) fun _ => rfl)
  | send message write =>
      simp only [step, Option.ite_none_right_eq_some, Option.some.injEq]
        at stepped
      obtain ⟨held, rfl⟩ := stepped
      exact send_changes sound
        (mem_pointers.mpr (.inr (.inr (.inl held)))) write
  | write protocol size write => exact write_changes sound stepped
  | sendAll old write =>
      cases stepped
      exact sendAll_changes sound old write
  | closeConnection connection =>
      simp only [step, Option.ite_none_right_eq_some, Option.some.injEq]
        at stepped
      obtain ⟨created, rfl⟩ := stepped
      exact closeConnection_changes created
  | onWriteTimeout connection =>
      simp only [step, Option.ite_none_right_eq_some, Option.some.injEq]
        at stepped
      obtain ⟨created, rfl⟩ := stepped
      exact onWriteTimeout_changes created
  | due event =>
      simp only [step, Option.ite_none_right_eq_some, Option.some.injEq]
        at stepped
      obtain ⟨scheduled, rfl⟩ := stepped
      exact .of_change (.due scheduled)
  | runTask =>
      simp only [step] at stepped
      split at stepped
      · cases stepped
      · next task rest first =>
          cases stepped
          exact perform_changes sound first

/-- The pool starts with nothing but free messages. -/
theorem sound_start : Sound machine.start := by
  constructor <;> simp [machine, World.Pending]

/-- So every run is a sequence of small changes. -/
theorem changes_of_run
    {world : World}
    (sound : Sound world)
    (actions : List Action) :
    Changes world (machine.run world actions) := by
  refine Machine.run_follows Changes.refl (fun _ _ _ => Changes.trans)
    (fun before action after sound stepped => ?_)
    (fun before action after sound stepped => ?_) sound actions
  · exact (changes_of_step sound stepped).sound sound
  · exact changes_of_step sound stepped

end OutputPool
end Network
end Lotospp
