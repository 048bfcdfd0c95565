import Lotospp.Network.NetworkMessage
import Lotospp.Network.PoolMessages

/-!
# Writing a text

`User::uWrite` lets the protocol of a session write a text: a message of the
pool gets the text and is handed to the connection.  A text of more than 8192
bytes is refused by the message, which is then handed over empty.
-/

namespace Lotospp
namespace Network
namespace OutputPool

open Text Common

/-- The pool with the buffers of its messages. -/
structure Output where
  /-- The pool. -/
  world : World
  /-- The messages as buffers. -/
  buffers : Nat → NetworkMessage
  /-- The bytes of the messages handed to `Connection::send`, with the
  connections. -/
  handed : List (Nat × Bytes) := []

namespace Output

/-- `Protocol::write`; a null pointer to the message or to the connection is
followed. -/
def write (output : Output) (protocol : Nat) (str : Bytes) (write : Write) :
    Except Fault Output :=
  match output.world.getOutputMessage protocol false with
  | (none, _) => .error .undefined
  | (some message, world) => do
      let buffer ← (output.buffers message).reset.addString str
      let world := world.updateMessage message fun message =>
        { message with msgSize := buffer.msgSize, readPos := buffer.readPos }
      match (world.protocols protocol).connection with
      | none => .error .undefined
      | some connection =>
          pure
            { world :=
                (world.connectionSend connection message write).2.drop message
              buffers := Function.update output.buffers message buffer
              handed := output.handed ++ [(connection, buffer.contents)] }

/-- `User::uWrite` of a user with this protocol. -/
def uWrite (output : Output) (client : Option Nat) (message : Bytes)
    (write : Write) : Except Fault Output :=
  match client with
  | none => .ok output
  | some protocol =>
      if message.length = 0 then .ok output
      else output.write protocol message write

/-- Only one message is handed over, and its bytes but its NULs are the
text. -/
def HandsOver (output : Output) (protocol : Nat) (text : Bytes)
    (write : Write) : Prop :=
  ∃ after, output.uWrite (some protocol) text write = .ok after ∧
    ∃ sent, after.handed = output.handed ++ sent ∧
      (sent.flatMap Prod.snd).filter (· ≠ 0) = text

end Output

/-! ## The message -/

/-- A text added to a message that has been reset. -/
theorem addString_reset
    (message : NetworkMessage)
    {text : Bytes}
    (short : (cStr text).length < 2 ^ 32) :
    ∃ after, message.reset.addString text = .ok after ∧
      after.contents = messageBytes text ∧
      after.msgSize = (messageBytes text).length ∧
      after.readPos = after.msgSize := by
  have aligned := message.reset_aligned
  rw [messageBytes]
  by_cases long : 8192 < (cStr text).length
  · rw [if_pos long]
    exact ⟨message.reset, NetworkMessage.addString_full aligned short (.inr long),
      rfl, rfl, rfl⟩
  · have room : (cStr text).length + 1 + message.reset.msgSize <
        maxBodyLength := by
      change (cStr text).length + 1 + 0 < 15340
      omega
    obtain ⟨after, added, appends⟩ := NetworkMessage.addString_appends aligned
      (Nat.le_of_not_lt long) room
    rw [if_neg long]
    refine ⟨after, added, appends.contents, ?_, appends.aligned.same⟩
    rw [appends.size]
    exact Nat.zero_add _

/-- The message of a text without NUL. -/
theorem messageBytes_of_noNul
    {text : Bytes}
    (noNul : 0 ∉ text) :
    messageBytes text = if text.length ≤ 8192 then text ++ [0] else [] := by
  rw [messageBytes, cStr_of_noNul noNul]
  by_cases long : 8192 < text.length
  · rw [if_pos long, if_neg (Nat.not_le_of_lt long)]
  · rw [if_neg long, if_pos (Nat.le_of_not_lt long)]

/-! ## The session -/

/-- The pool is open and the protocol has this connection, which is open. -/
structure World.Connected (world : World) (protocol connection : Nat) :
    Prop where
  isOpen : world.isOpen = true
  connected : (world.protocols protocol).connection = some connection
  isConnected : (world.connections connection).connectionState = .open

namespace Output

/-- A session that is connected hands over one message, and the pool changes as
when a text of that size is written. -/
theorem uWrite_eq
    {output : Output}
    {protocol connection : Nat}
    (session : output.world.Connected protocol connection)
    {text : Bytes}
    (nonempty : text ≠ [])
    (short : (cStr text).length < 2 ^ 32)
    (write : Write) :
    ∃ after, output.uWrite (some protocol) text write = .ok after ∧
      after.handed = output.handed ++ [(connection, messageBytes text)] ∧
      output.world.write protocol (messageBytes text).length write =
        some after.world := by
  obtain ⟨buffer, added, contents, size, pos⟩ :=
    addString_reset (output.buffers output.world.takeFree.1) short
  have got : output.world.getOutputMessage protocol false =
      (some output.world.takeFree.1,
        output.world.handOut protocol connection false) := by
    rw [World.getOutputMessage, if_pos session.isOpen, session.connected]
    rfl
  have kept : ((output.world.handOut protocol connection false).protocols
      protocol).connection = some connection := by
    rw [World.handOut_protocols, Function.update_self]
    exact session.connected
  have ran : output.uWrite (some protocol) text write = .ok
      { world := ((((output.world.handOut protocol connection
          false).updateMessage output.world.takeFree.1 fun message =>
            { message with
              msgSize := buffer.msgSize
              readPos := buffer.readPos }).connectionSend connection
                output.world.takeFree.1 write).2.drop output.world.takeFree.1)
        buffers :=
          Function.update output.buffers output.world.takeFree.1 buffer
        handed := output.handed ++ [(connection, buffer.contents)] } := by
    rw [uWrite, if_neg (by simpa using nonempty), Output.write, got]
    simp only [added, bind, Except.bind, World.updateMessage, kept]
    rfl
  refine ⟨_, ran, ?_, ?_⟩
  · rw [contents]
  · rw [World.write, got]
    simp only [World.updateMessage, kept, ← size, pos, Option.map_some]

/-- What a session that is connected hands over. -/
theorem handsOver_iff
    {output : Output}
    {protocol connection : Nat}
    (session : output.world.Connected protocol connection)
    {text : Bytes}
    (nonempty : text ≠ [])
    (short : (cStr text).length < 2 ^ 32)
    (write : Write) :
    output.HandsOver protocol text write ↔
      (messageBytes text).filter (· ≠ 0) = text := by
  obtain ⟨after, ran, handed, -⟩ := uWrite_eq session nonempty short write
  constructor
  · rintro ⟨after', ran', sent, handed', same⟩
    rw [ran] at ran'
    obtain rfl := Except.ok.inj ran'
    obtain rfl := List.append_cancel_left (handed.symm.trans handed')
    simpa using same
  · intro same
    exact ⟨after, ran, _, handed, by simpa using same⟩

/-- A text without NUL of at most 8192 bytes is handed over with a NUL behind
it; instead of a longer one, as long as its length has 32 bits, an empty message
is handed over. -/
theorem uWrite_hands
    {output : Output}
    {protocol connection : Nat}
    (session : output.world.Connected protocol connection)
    {text : Bytes}
    (nonempty : text ≠ [])
    (noNul : 0 ∉ text)
    (short : text.length < 2 ^ 32)
    (write : Write) :
    (∃ after, output.uWrite (some protocol) text write = .ok after ∧
      after.handed = output.handed ++
        [(connection, if text.length ≤ 8192 then text ++ [0] else [])] ∧
      output.world.write protocol (messageBytes text).length write =
        some after.world) ∧
      (output.HandsOver protocol text write ↔ text.length ≤ 8192) := by
  have short : (cStr text).length < 2 ^ 32 := by rwa [cStr_of_noNul noNul]
  have bytes := messageBytes_of_noNul noNul
  refine ⟨?_, ?_⟩
  · rw [← bytes]
    exact uWrite_eq session nonempty short write
  · rw [handsOver_iff session nonempty short, bytes]
    by_cases fits : text.length ≤ 8192
    · have kept : text.filter (· ≠ 0) = text :=
        List.filter_eq_self.mpr fun byte inside => by
          simpa using ne_of_mem_of_not_mem inside noNul
      rw [if_pos fits, List.filter_append, kept]
      simp [fits]
    · rw [if_neg fits]
      exact iff_of_false (fun same => nonempty same.symm) fits

/-- One session, connected. -/
def single : Output where
  world :=
    { isOpen := true
      created := 0
      outputMessages := []
      protocols := fun _ => { connection := some 0 }
      protocolCount := 1
      connectionCount := 1 }
  buffers _ := NetworkMessage.blank

theorem connected_single : single.world.Connected 0 0 :=
  ⟨rfl, rfl, rfl⟩

theorem uWrite_hands_greeting :
    lit "hi" ≠ [] ∧ 0 ∉ lit "hi" ∧
      ∃ after, single.uWrite (some 0) (lit "hi") {} = .ok after ∧
        after.handed = [(0, lit "hi" ++ [0])] := by
  have noNul : 0 ∉ lit "hi" := by decide
  obtain ⟨⟨after, ran, handed, -⟩, -⟩ :=
    uWrite_hands connected_single (by decide) noNul (by decide) {}
  exact ⟨by decide, noNul, after, ran, handed⟩

/-- Of a text of 8193 bytes nothing is handed over. -/
theorem not_handsOver_long :
    single.world.Connected 0 0 ∧ List.replicate 8193 (97 : UInt8) ≠ [] ∧
      (0 : UInt8) ∉ List.replicate 8193 (97 : UInt8) ∧
      (∃ after, single.uWrite (some 0) (List.replicate 8193 97) {} =
        .ok after ∧ after.handed = [(0, [])]) ∧
      ¬ single.HandsOver 0 (List.replicate 8193 97) {} := by
  have nonempty : List.replicate 8193 (97 : UInt8) ≠ [] :=
    List.ne_nil_of_length_eq_add_one List.length_replicate
  have noNul : (0 : UInt8) ∉ List.replicate 8193 (97 : UInt8) :=
    fun inside => absurd (List.eq_of_mem_replicate inside) (by decide)
  have short : (cStr (List.replicate 8193 (97 : UInt8))).length < 2 ^ 32 := by
    rw [cStr_of_noNul noNul, List.length_replicate]
    decide
  have bytes : messageBytes (List.replicate 8193 (97 : UInt8)) = [] := by
    rw [messageBytes_of_noNul noNul, List.length_replicate]
    exact if_neg (by decide)
  refine ⟨connected_single, nonempty, noNul, ?_, ?_⟩
  · obtain ⟨after, ran, handed, -⟩ :=
      uWrite_eq connected_single nonempty short {}
    exact ⟨after, ran, by rw [handed, bytes]; rfl⟩
  · rw [handsOver_iff connected_single nonempty short, bytes]
    exact fun same => nonempty same.symm

end Output
end OutputPool
end Network
end Lotospp
