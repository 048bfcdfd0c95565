import Lotospp.Network.PoolPlaces

/-!
# Sending what is queued

`OutputMessagePool::sendAll` moves the queued messages to the auto-send list,
except those that are too old, and gives every message of the list to its
connection, which may queue it again.  The age of a message is a difference of
unsigned numbers: a frame time that lies ahead of the clock makes it huge.
-/

namespace Lotospp
namespace Network
namespace OutputPool

open Common Effect World

/-! ## The age of a message -/

/-- `Connection::read_timeout`, in seconds. -/
def readTimeout : Int64 := 30

/-- `SYS_TIME()-getFrame()>Connection::read_timeout*1000`: the frame time is
unsigned, so both sides of the comparison are. -/
def isOld (now : Int64) (frame : Nat) : Bool :=
  now.toUInt64 - UInt64.ofNat frame > (readTimeout * 1000).toUInt64

/-- The age of a message, in milliseconds. -/
def age (now : Int64) (frame : Nat) : Int :=
  now.toInt - frame

/-- The messages that may still be sent. -/
def Fresh (now : Int64) (frame : Nat) : Prop :=
  age now frame ≤ 30000

instance (now : Int64) (frame : Nat) : Decidable (Fresh now frame) :=
  inferInstanceAs (Decidable (_ ≤ _))

theorem toNat_toUInt64 (now : Int64) :
    (now.toUInt64.toNat : Int) = now.toInt % 2 ^ 64 := by
  have bits : now.toInt = (now.toUInt64.toNat : Int).bmod (2 ^ 64) := by
    rw [← Int64.toInt_toBitVec, BitVec.toInt_eq_toNat_bmod]
    rfl
  have bound := now.toUInt64.toNat_lt
  have same : now.toInt % ((2 ^ 64 : Nat) : Int) =
      (now.toUInt64.toNat : Int) % ((2 ^ 64 : Nat) : Int) := by
    rw [bits, Int.bmod_emod]
  omega

/-- The comparison is made modulo 2^64. -/
theorem isOld_iff (now : Int64) (frame : Nat) :
    isOld now frame = true ↔ 30000 < age now frame % 2 ^ 64 := by
  have limit : (readTimeout * 1000).toUInt64.toNat = 30000 := by decide
  have reading := toNat_toUInt64 now
  have bound := now.toUInt64.toNat_lt
  simp only [isOld, age, gt_iff_lt, decide_eq_true_eq,
    UInt64.lt_iff_toNat_lt, limit, UInt64.toNat_sub, UInt64.toNat_ofNat']
  omega

/-- The frame time lies ahead of the clock, and not by a multiple of 2^64 less
at most 30 seconds. -/
def Ahead (now : Int64) (frame : Nat) : Prop :=
  age now frame < 0 ∧ 30000 < age now frame % 2 ^ 64

instance (now : Int64) (frame : Nat) : Decidable (Ahead now frame) :=
  inferInstanceAs (Decidable (_ ∧ _))

/-- A message is taken for old exactly when it is, or when its frame time lies
ahead of the clock. -/
theorem isOld_iff_not_fresh
    (now : Int64)
    (frame : Nat) :
    isOld now frame = true ↔ ¬ Fresh now frame ∨ Ahead now frame := by
  have upper := now.toInt_lt
  rw [isOld_iff]
  unfold Fresh Ahead age
  omega

/-! ## The turns of the loops -/

/-- A message is given to `Connection::send`. -/
structure Call where
  /-- The message. -/
  message : Nat
  /-- The connection. -/
  connection : Nat
  /-- `send` queues the message again. -/
  again : Bool
  deriving DecidableEq

namespace World

/-- The call of `Connection::send` in a turn of the second loop. -/
def calls (world : World) (write : Write) (message : Nat) : List Call :=
  match (world.messages message).connection with
  | none => []
  | some connection =>
      [{ message := message
         connection := connection
         again := (world.connectionSend connection message write
           ).2.toAddQueue = world.toAddQueue ++ [message] }]

/-- The loop of `sendAll` over `m_toAddQueue`, with the clock as it reads in
each turn. -/
def addAllAt (clock : Nat → Int64) : (turn : Nat) → List Nat → World → World
  | _, [], world => world
  | turn, message :: rest, world =>
      addAllAt clock (turn + 1) rest
        (world.addToSend (isOld (clock turn) (world.messages message).frame)
          message rest)

/-- The loop of `sendAll` over `m_autoSendOutputMessages`, with the calls that
it makes. -/
def sendEachAt
    (write : Nat → Write) : (turn : Nat) → List Nat → World → List Call × World
  | _, [], world => ([], world)
  | turn, message :: rest, world =>
      let call :=
        { world with held := message :: world.held }.calls (write turn) message
      let (calls, after) :=
        sendEachAt write (turn + 1) rest
          (world.sendNext (write turn) message rest)
      (call ++ calls, after)

/-- `OutputMessagePool::sendAll`, with the calls that it makes. -/
def sendAllAt
    (world : World)
    (clock : Nat → Int64)
    (write : Nat → Write) : List Call × World :=
  let world := addAllAt clock 0 world.toAddQueue world
  sendEachAt write 0 world.autoSend world

end World

section Agree

variable {clock : Nat → Int64} {old : Nat → Bool} {write : Nat → Write}

/-- Reporting to the protocol leaves the messages and the lists. -/
theorem addToSend_messages
    (world : World)
    (isOld : Bool)
    (message other : Nat)
    (rest : List Nat) :
    ((world.addToSend isOld message rest).messages other).frame =
        (world.messages other).frame ∧
      ((world.addToSend isOld message rest).messages other).connection =
        (world.messages other).connection := by
  unfold addToSend
  cases isOld
  · by_cases same : other = message
    · subst same
      simp [updateMessage]
    · simp [updateMessage, same]
  · have reported := @onSendMessage_eq world message
    generalize world.onSendMessage message = after at reported ⊢
    rw [reported]
    simp

/-- The loop over `m_toAddQueue` is the one of `sendAll`, when the clock tells
which messages are old. -/
theorem addAllAt_eq
    {turn : Nat}
    {queue : List Nat}
    {world : World}
    (reads : ∀ index message, queue[index]? = some message →
      old message =
        isOld (clock (turn + index)) (world.messages message).frame) :
    addAllAt clock turn queue world = addAllToSend old queue world := by
  induction queue generalizing turn world with
  | nil => rfl
  | cons message rest inductionHypothesis =>
      have first : old message =
          isOld (clock turn) (world.messages message).frame :=
        reads 0 message rfl
      rw [addAllAt, addAllToSend, ← first]
      refine inductionHypothesis fun index other found => ?_
      rw [(addToSend_messages world _ message other rest).1, Nat.add_assoc,
        Nat.add_comm 1]
      exact reads (index + 1) other found

theorem sendEachAt_eq
    {writes : Nat → Write}
    {turn : Nat}
    {queue : List Nat}
    {world : World}
    (leaves : ∀ index message, queue[index]? = some message →
      write message = writes (turn + index)) :
    (sendEachAt writes turn queue world).2 = sendEach write queue world := by
  induction queue generalizing turn world with
  | nil => rfl
  | cons message rest inductionHypothesis =>
      have first : write message = writes turn := leaves 0 message rfl
      rw [sendEachAt, sendEach, first]
      refine inductionHypothesis fun index other found => ?_
      rw [Nat.add_assoc, Nat.add_comm 1]
      exact leaves (index + 1) other found

/-- `sendAll` is this function, when every message has one reading of the clock
and one write. -/
theorem sendAllAt_eq
    {writes : Nat → Write}
    {world : World}
    (reads : ∀ index message, world.toAddQueue[index]? = some message →
      old message = isOld (clock index) (world.messages message).frame)
    (leaves : ∀ index message,
      (addAllToSend old world.toAddQueue world).autoSend[index]? =
          some message →
        write message = writes index) :
    (world.sendAllAt clock writes).2 = world.sendAll old write := by
  have added : addAllAt clock 0 world.toAddQueue world =
      addAllToSend old world.toAddQueue world := by
    refine addAllAt_eq fun index message found => ?_
    rw [Nat.zero_add]
    exact reads index message found
  rw [sendAllAt, sendAll]
  simp only [added]
  refine sendEachAt_eq fun index message found => ?_
  rw [Nat.zero_add]
  exact leaves index message found

end Agree

/-! ## What the loops do to the lists -/

/-- The messages of a queue that are taken in the turn that the clock tells. -/
def taken
    (clock : Nat → Int64)
    (takes : Int64 → Nat → Bool)
    (world : World)
    (turn : Nat)
    (queue : List Nat) : List Nat :=
  ((queue.zipIdx turn).filter fun entry =>
    takes (clock entry.2) (world.messages entry.1).frame).map Prod.fst

/-- Neither messages, as far as they concern sending, nor connections have
changed. -/
structure SameAddresses (world world' : World) : Prop where
  frame : ∀ message,
    (world'.messages message).frame = (world.messages message).frame
  connection : ∀ message,
    (world'.messages message).connection = (world.messages message).connection

section Lists

variable {world : World}

theorem addToSend_lists (old : Bool) (message : Nat) (rest : List Nat) :
    (world.addToSend old message rest).autoSend =
        world.autoSend ++ (if old then [] else [message]) ∧
      (world.addToSend old message rest).toAddQueue = rest := by
  refine ⟨?_, addToSend_toAddQueue old message rest⟩
  unfold addToSend
  cases old
  · simp [updateMessage]
  · have reported := @onSendMessage_eq world message
    generalize world.onSendMessage message = after at reported ⊢
    rw [reported]
    simp

/-- The loop over `m_toAddQueue` appends what is not old. -/
theorem addAllAt_lists
    (clock : Nat → Int64)
    (turn : Nat)
    {queue : List Nat}
    (queued : world.toAddQueue = queue) :
    (addAllAt clock turn queue world).autoSend =
        world.autoSend ++
          taken clock (fun now frame => !isOld now frame) world turn queue ∧
      (addAllAt clock turn queue world).toAddQueue = [] ∧
      SameAddresses world (addAllAt clock turn queue world) := by
  induction queue generalizing turn world with
  | nil => exact ⟨by simp [addAllAt, taken], queued, ⟨fun _ => rfl, fun _ => rfl⟩⟩
  | cons message rest inductionHypothesis =>
      have same := fun other => addToSend_messages world
        (isOld (clock turn) (world.messages message).frame) message other rest
      obtain ⟨appended, left⟩ := @addToSend_lists world
        (isOld (clock turn) (world.messages message).frame) message rest
      obtain ⟨autoSend, toAddQueue, addresses⟩ :=
        inductionHypothesis (turn + 1) left
      rw [addAllAt]
      refine ⟨?_, toAddQueue,
        ⟨fun other => (addresses.frame other).trans (same other).1,
          fun other => (addresses.connection other).trans (same other).2⟩⟩
      rw [autoSend, appended, List.append_assoc]
      congr 1
      unfold taken
      simp only [fun other => (same other).1, List.zipIdx_cons,
        List.filter_cons]
      cases isOld (clock turn) (world.messages message).frame <;> simp

theorem connectionSend_messages
    (connection message : Nat)
    (write : Write) :
    (world.connectionSend connection message write).2.messages =
      world.messages := by
  unfold connectionSend
  split
  · rfl
  · split
    · rfl
    · simp only
      split
      · rw [closeConnection_eq, onSendMessage_eq]
        rfl
      · rw [onSendMessage_eq]
        rfl

/-- `Connection::send` queues the message again, or leaves the queue. -/
theorem connectionSend_toAddQueue
    (connection message : Nat)
    (write : Write) :
    (world.connectionSend connection message write).2.toAddQueue =
        world.toAddQueue ∨
      (world.connectionSend connection message write).2.toAddQueue =
        world.toAddQueue ++ [message] := by
  unfold connectionSend
  split
  · exact .inl rfl
  · split
    · exact .inr rfl
    · left
      simp only
      split
      · rw [closeConnection_eq, onSendMessage_eq]
        rfl
      · rw [onSendMessage_eq]
        rfl

theorem sendOrReport_messages (message : Nat) (write : Write) :
    (world.sendOrReport message write).messages = world.messages := by
  unfold sendOrReport
  split
  · rfl
  · next connection target =>
      have sent := @connectionSend_messages world connection message write
      split
      · next after result => rwa [result] at sent
      · next after result =>
          rw [result] at sent
          rw [onSendMessage_eq]
          exact sent

theorem calls_of_connection
    {message connection : Nat}
    (target : (world.messages message).connection = some connection)
    (write : Write) :
    world.calls write message =
      [{ message := message
         connection := connection
         again := (world.connectionSend connection message write
           ).2.toAddQueue = world.toAddQueue ++ [message] }] := by
  simp only [calls, target]

/-- A turn of the second loop queues what `send` queues again. -/
theorem sendOrReport_toAddQueue
    {message connection : Nat}
    (target : (world.messages message).connection = some connection)
    (write : Write) :
    (world.sendOrReport message write).toAddQueue =
      world.toAddQueue ++
        ((world.calls write message).filter Call.again).map Call.message := by
  have sent := @connectionSend_toAddQueue world connection message write
  have queue : (world.connectionSend connection message write).2.toAddQueue =
      world.toAddQueue ++
        ((world.calls write message).filter Call.again).map Call.message := by
    rw [calls_of_connection target]
    by_cases again : (world.connectionSend connection message write
        ).2.toAddQueue = world.toAddQueue ++ [message]
    · simp [again]
    · simp [sent.resolve_right again]
  rw [← queue]
  unfold sendOrReport
  simp only [target]
  split
  · next after result => rw [result]
  · next after result =>
      rw [result, onSendMessage_eq]

theorem sendNext_messages
    (write : Write)
    (message : Nat)
    (rest : List Nat) :
    (world.sendNext write message rest).messages = world.messages := by
  simp [sendNext, sendOrReport_messages]

/-- The loop over `m_autoSendOutputMessages` gives each message to its
connection. -/
theorem sendEachAt_lists
    (write : Nat → Write)
    (turn : Nat)
    {queue : List Nat}
    (listed : world.autoSend = queue)
    (addressed : ∀ message ∈ queue,
      (world.messages message).connection ≠ none) :
    let sent := sendEachAt write turn queue world
    sent.1.map Call.message = queue ∧
      (∀ call ∈ sent.1,
        (world.messages call.message).connection = some call.connection) ∧
      sent.2.autoSend = [] ∧
      sent.2.toAddQueue =
        world.toAddQueue ++ (sent.1.filter Call.again).map Call.message := by
  induction queue generalizing turn world with
  | nil => exact ⟨rfl, by simp [sendEachAt], listed, by simp [sendEachAt]⟩
  | cons message rest inductionHypothesis =>
      obtain ⟨connection, target⟩ := Option.ne_none_iff_exists'.mp
        (addressed message List.mem_cons_self)
      have later := @inductionHypothesis
        (world.sendNext (write turn) message rest) (turn + 1)
        (sendNext_autoSend (write turn) message rest)
      rw [sendNext_messages] at later
      obtain ⟨messages, connections, autoSend, toAddQueue⟩ :=
        later fun other inside =>
          addressed other (List.mem_cons_of_mem _ inside)
      have call := @calls_of_connection
        { world with held := message :: world.held } message connection target
        (write turn)
      have queued : (world.sendNext (write turn) message rest).toAddQueue =
          world.toAddQueue ++
            (({ world with held := message :: world.held }.calls (write turn)
              message).filter Call.again).map Call.message := by
        have reported := @sendOrReport_toAddQueue
          { world with held := message :: world.held } message connection
          target (write turn)
        simpa [sendNext] using reported
      refine ⟨?_, ?_, autoSend, ?_⟩
      · simp only [sendEachAt, call, List.cons_append, List.nil_append,
          List.map_cons, messages]
      · intro made inside
        simp only [sendEachAt, call, List.cons_append, List.nil_append,
          List.mem_cons] at inside
        rcases inside with rfl | inside
        · exact target
        · exact connections made inside
      · simp only [sendEachAt]
        rw [toAddQueue, queued, List.filter_append, List.map_append,
          List.append_assoc]

end Lists

/-! ## Sending everything -/

/-- A message that has been configured has a protocol and a connection. -/
structure Message.Configured (message : Message) : Prop where
  protocol : message.protocol ≠ none
  connection : message.connection ≠ none

/-- Every message that is pointed to has been configured. -/
def Assigned (world : World) : Prop :=
  ∀ message ∈ world.pointers, (world.messages message).Configured

namespace Assigned

variable {world world' : World}

theorem congr
    (assigned : Assigned world)
    (messages : world'.messages = world.messages)
    (pointers : ∀ message,
      message ∈ world'.pointers → message ∈ world.pointers) :
    Assigned world' := by
  intro message pointed
  rw [messages]
  exact assigned message (pointers message pointed)

/-- Protocols and connections change, but no output buffer is set. -/
theorem of_buffers
    (assigned : Assigned world)
    {protocols : Nat → Protocol} {connections : Nat → Connection}
    {protocolCount connectionCount : Nat}
    (kept : ∀ protocol message,
      protocol < protocolCount ∧
          (protocols protocol).outputBuffer = some message →
        protocol < world.protocolCount ∧
          (world.protocols protocol).outputBuffer = some message) :
    Assigned
      { world with
        protocols := protocols
        protocolCount := protocolCount
        connections := connections
        connectionCount := connectionCount } := by
  refine assigned.congr rfl fun message pointed => ?_
  rw [mem_pointers] at pointed ⊢
  refine pointed.imp id (Or.imp id (Or.imp id ?_))
  rintro ⟨protocol, buffer⟩
  exact ⟨protocol, kept protocol message buffer⟩

theorem of_protocol
    (assigned : Assigned world)
    {protocol : Nat} {change : Protocol → Protocol}
    (same : ∀ protocol,
      (change protocol).outputBuffer = protocol.outputBuffer) :
    Assigned (world.updateProtocol protocol change) := by
  refine assigned.of_buffers fun other _ => ?_
  by_cases found : other = protocol <;> simp [found, same]

theorem of_newProtocol
    (assigned : Assigned world)
    {connections : Nat → Connection}
    {connectionCount : Nat} {connection : Option Nat} :
    Assigned
      { world with
        protocols := Function.update world.protocols world.protocolCount
          { connection := connection }
        protocolCount := world.protocolCount + 1
        connections := connections
        connectionCount := connectionCount } := by
  refine assigned.of_buffers fun protocol message => ?_
  by_cases new : protocol = world.protocolCount
  · simp [new]
  · rintro ⟨made, buffer⟩
    rw [Function.update_of_ne new] at buffer
    exact ⟨by omega, buffer⟩

/-- Every small change keeps it. -/
theorem change
    (assigned : Assigned world)
    (places : Places world)
    (change : Change world world') : Assigned world' := by
  cases change with
  | points same pointers =>
      exact assigned.congr same.messages fun message => (pointers message).mp
  | @drops between message same pointed pointers =>
      refine assigned.congr (by simp [same.messages]) fun other found => ?_
      have kept : (between.dropped message).pointers = between.pointers := by
        rw [dropped_eq]
        rfl
      rw [kept] at found
      exact (pointers other).mpr (.inl found)
  | @takes protocol connection autosend connected =>
      intro message found
      rw [handOut_messages]
      by_cases new : message = world.takeFree.1
      · rw [new, Function.update_self]
        exact ⟨by simp, by simp⟩
      · rw [Function.update_of_ne new]
        exact assigned message
          ((mem_pointers_handOut.mp found).resolve_left new)
  | @releases message rest first =>
      have waits : .releaseMessage message ∈ world.tasks := by simp [first]
      have unpointed := (places.of_waiting waits).2.2.1
      intro other found
      rw [internalReleaseMessage_pointers] at found
      have different : other ≠ message := by
        rintro rfl
        exact unpointed found
      rw [internalReleaseMessage_messages, Function.update_of_ne different]
      exact assigned other found
  | @texts message change pointed protocol connection start =>
      intro other found
      by_cases same : other = message
      · have before := assigned message pointed
        subst same
        refine ⟨?_, ?_⟩
        · simpa [World.updateMessage, protocol] using before.protocol
        · simpa [World.updateMessage, connection] using before.connection
      · have before := assigned other found
        simpa [World.updateMessage, same] using before
  | opens => exact assigned.congr rfl fun _ => id
  | writes => exact assigned.of_buffers fun _ _ => id
  | closes => exact assigned.of_buffers fun _ _ => id
  | requests => exact assigned.congr rfl fun _ => id
  | unlinks => exact assigned.of_protocol fun _ => rfl
  | deletesProtocol => exact assigned.of_protocol fun _ => rfl
  | detaches => exact assigned.of_buffers fun _ _ => id
  | schedules => exact assigned.congr rfl fun _ => id
  | deletesConnection => exact assigned.of_buffers fun _ _ => id
  | due => exact assigned.congr rfl fun _ => id
  | takesTask => exact assigned.congr rfl fun _ => id
  | accepts singleSocket =>
      cases singleSocket with
      | false => exact assigned.of_buffers fun _ _ => id
      | true => exact assigned.of_newProtocol
  | makes made =>
      unfold makeProtocol at made
      split at made
      · cases made
        exact assigned.of_newProtocol
      · cases made

end Assigned

/-- In every reachable state, in particular the messages of the two lists. -/
theorem assigned_after (actions : List Action) :
    Assigned (machine.after actions) := by
  have start : Assigned machine.start := by
    intro message pointed
    simp [machine, pointers] at pointed
  have keeps : ∀ world world', Places world ∧ Assigned world →
      Change world world' → Places world' ∧ Assigned world' :=
    fun world world' holds change =>
      ⟨holds.1.change change, holds.2.change holds.1 change⟩
  exact ((changes_of_run sound_start actions).keeps keeps
    ⟨Places.start, start⟩).2

/-- `sendAll` sends what it is to send. -/
structure SendsAll
    (world : World)
    (clock : Nat → Int64)
    (write : Nat → Write) : Prop where
  /-- The messages of the auto-send list and then the queued ones, except those
  that are too old, are given to `send` in order, once each. -/
  sends : (world.sendAllAt clock write).1.map Call.message =
    world.autoSend ++
      taken clock (fun now frame => Fresh now frame) world 0 world.toAddQueue
  /-- Each of them is given to its own connection. -/
  connections : ∀ call ∈ (world.sendAllAt clock write).1,
    (world.messages call.message).connection = some call.connection
  /-- The auto-send list is empty afterwards. -/
  empties : (world.sendAllAt clock write).2.autoSend = []
  /-- The queue holds what `send` has queued again. -/
  leaves : (world.sendAllAt clock write).2.toAddQueue =
    ((world.sendAllAt clock write).1.filter Call.again).map Call.message

section SendAll

variable {world : World} {clock : Nat → Int64}

/-- What `sendAll` does with the lists, whatever the clock says. -/
theorem sendAllAt_lists
    (configured : ∀ message ∈ world.autoSend ++ world.toAddQueue,
      (world.messages message).Configured)
    (clock : Nat → Int64)
    (write : Nat → Write) :
    (world.sendAllAt clock write).1.map Call.message =
        world.autoSend ++
          taken clock (fun now frame => !isOld now frame) world 0
            world.toAddQueue ∧
      (∀ call ∈ (world.sendAllAt clock write).1,
        (world.messages call.message).connection = some call.connection) ∧
      (world.sendAllAt clock write).2.autoSend = [] ∧
      (world.sendAllAt clock write).2.toAddQueue =
        ((world.sendAllAt clock write).1.filter Call.again).map
          Call.message := by
  obtain ⟨autoSend, toAddQueue, addresses⟩ :=
    addAllAt_lists clock 0 (rfl : world.toAddQueue = world.toAddQueue)
  have addressed : ∀ message ∈
      (addAllAt clock 0 world.toAddQueue world).autoSend,
      ((addAllAt clock 0 world.toAddQueue world).messages
        message).connection ≠ none := by
    intro message inside
    rw [autoSend, List.mem_append] at inside
    rw [addresses.connection]
    refine (configured message (List.mem_append.mpr ?_)).connection
    refine inside.imp id fun inside => ?_
    obtain ⟨entry, found, rfl⟩ := List.mem_map.mp inside
    exact List.fst_mem_of_mem_zipIdx (List.mem_of_mem_filter found)
  obtain ⟨messages, connections, empty, queued⟩ :=
    sendEachAt_lists write 0 rfl addressed
  simp only [addresses.connection] at connections
  rw [toAddQueue, List.nil_append] at queued
  exact ⟨messages.trans autoSend, connections, empty, queued⟩

theorem taken_length
    (takes : Int64 → Nat → Bool)
    (turn : Nat)
    (queue : List Nat) :
    (taken clock takes world turn queue).length =
      (queue.zipIdx turn).countP fun entry =>
        takes (clock entry.2) (world.messages entry.1).frame := by
  rw [taken, List.length_map, List.countP_eq_length_filter]

/-- A message that is not taken for old is fresh. -/
theorem fresh_of_not_isOld
    {now : Int64}
    {frame : Nat}
    (young : (!isOld now frame) = true) : Fresh now frame := by
  by_contra stale
  rw [(isOld_iff_not_fresh now frame).mpr (.inl stale)] at young
  exact absurd young (by decide)

/-- With a frame time ahead of the clock, fewer messages are sent than are
fresh. -/
theorem taken_lt_of_ahead
    {queue : List Nat}
    {entry : Nat × Nat}
    (inside : entry ∈ queue.zipIdx)
    (ahead : Ahead (clock entry.2) (world.messages entry.1).frame) :
    (taken clock (fun now frame => !isOld now frame) world 0 queue).length <
      (taken clock (fun now frame => Fresh now frame) world 0 queue).length := by
  have isOld : isOld (clock entry.2) (world.messages entry.1).frame = true :=
    (isOld_iff_not_fresh _ _).mpr (.inr ahead)
  have fresh : Fresh (clock entry.2) (world.messages entry.1).frame := by
    have negative := ahead.1
    unfold Fresh
    omega
  rw [taken_length, taken_length]
  obtain ⟨before, after, split⟩ := List.append_of_mem inside
  have more : ∀ entries : List (Nat × Nat),
      (entries.countP fun entry =>
          !OutputPool.isOld (clock entry.2) (world.messages entry.1).frame) ≤
        entries.countP fun entry =>
          decide (Fresh (clock entry.2) (world.messages entry.1).frame) :=
    fun entries => List.countP_mono_left fun entry _ young =>
      decide_eq_true (fresh_of_not_isOld young)
  have moreBefore := more before
  have moreAfter := more after
  rw [split, List.countP_append, List.countP_append, List.countP_cons,
    List.countP_cons]
  simp only [isOld, fresh, Bool.not_true, Bool.false_eq_true, if_false,
    decide_true, if_true]
  omega

/-- A message with a frame time ahead of the clock is not sent. -/
theorem SendsAll.not_ahead
    (configured : ∀ message ∈ world.autoSend ++ world.toAddQueue,
      (world.messages message).Configured)
    {write : Nat → Write}
    (all : SendsAll world clock write)
    {entry : Nat × Nat}
    (inside : entry ∈ world.toAddQueue.zipIdx) :
    ¬ Ahead (clock entry.2) (world.messages entry.1).frame := by
  intro ahead
  have fewer := taken_lt_of_ahead inside ahead
  have sends := (sendAllAt_lists configured clock write).1
  have same := sends.symm.trans all.sends
  rw [List.append_cancel_left same] at fewer
  exact absurd fewer (Nat.lt_irrefl _)

/-- `sendAll` sends everything exactly when no queued message has a frame time
that lies ahead of the clock. -/
theorem sendsAll_iff
    (configured : ∀ message ∈ world.autoSend ++ world.toAddQueue,
      (world.messages message).Configured)
    (clock : Nat → Int64)
    (write : Nat → Write) :
    SendsAll world clock write ↔
      ∀ entry ∈ world.toAddQueue.zipIdx,
        ¬ Ahead (clock entry.2) (world.messages entry.1).frame := by
  constructor
  · exact fun all entry inside => all.not_ahead configured inside
  · intro behind
    obtain ⟨sends, connections, empties, leaves⟩ :=
      sendAllAt_lists configured clock write
    refine ⟨?_, connections, empties, leaves⟩
    rw [sends]
    congr 1
    unfold taken
    congr 1
    refine List.filter_congr fun entry inside => ?_
    have old := isOld_iff_not_fresh (clock entry.2)
      (world.messages entry.1).frame
    have notAhead := behind entry inside
    by_cases fresh : Fresh (clock entry.2) (world.messages entry.1).frame
    · simp_all
    · simp_all

end SendAll

/-- The first message is being written, the second waits in the queue and the
third is to be sent by itself. -/
def threeMessages : World :=
  machine.after
    [.startExecutionFrame 1000, .onAccept true,
      .getOutputMessage 0 false, .send 99 { pendingWrite := true },
      .getOutputMessage 0 false, .send 98 {},
      .getOutputMessage 0 true]

theorem configured_threeMessages :
    ∀ message ∈ threeMessages.autoSend ++ threeMessages.toAddQueue,
      (threeMessages.messages message).Configured := by
  intro message inside
  refine assigned_after _ message (mem_pointers.mpr ?_)
  rcases List.mem_append.mp inside with listed | queued
  · exact .inl listed
  · exact .inr (.inl queued)

/-- A second later. -/
theorem sendsAll_threeMessages :
    SendsAll threeMessages (fun _ => 2000) fun _ => {} :=
  (sendsAll_iff configured_threeMessages (fun _ => 2000) fun _ => {}).mpr
    (by decide +kernel)

/-- A queued message is lost when the clock is set back. -/
theorem sendAll_loses_ahead :
    ¬ ∀ world clock write,
      (∀ message ∈ world.autoSend ++ world.toAddQueue,
        (world.messages message).Configured) →
      SendsAll world clock write := by
  intro always
  have all := always threeMessages (fun _ => 999) (fun _ => {})
    configured_threeMessages
  have inside : (98, 0) ∈ threeMessages.toAddQueue.zipIdx := by decide +kernel
  exact all.not_ahead configured_threeMessages inside (by decide +kernel)

end OutputPool
end Network
end Lotospp
