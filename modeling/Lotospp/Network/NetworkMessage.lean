import Lotospp.Common.Output
import Lotospp.Text.Buffer

/-!
# Network messages

A `NetworkMessage` is a buffer of `MAXSIZE` bytes with two cursors.  The
functions that add to it test whether there is room, write at `m_ReadPos` and
move both cursors; when there is no room they do nothing.
-/

namespace Lotospp
namespace Network

open Text Common

/-- `NetworkMessage::max_body_length`. -/
def maxBodyLength : Nat := 15340

/-- `class NetworkMessage`. -/
structure NetworkMessage where
  /-- `m_MsgSize`. -/
  msgSize : Nat := 0
  /-- `m_ReadPos`. -/
  readPos : Nat := 0
  /-- `m_MsgBuf`. -/
  msgBuf : Bytes
  length_msgBuf : msgBuf.length = maxBodyLength
  deriving DecidableEq

/-- A value that can be added and read back. -/
inductive Item
  /-- The argument of `AddByte`. -/
  | byte (value : UInt8)
  /-- The argument of `AddU16`. -/
  | u16 (value : UInt16)
  /-- The argument of `AddU32`. -/
  | u32 (value : UInt32)
  /-- The argument of `AddU64`. -/
  | u64 (value : UInt64)
  /-- The argument of `AddString`. -/
  | string (value : Bytes)
  deriving DecidableEq

/-- A call that adds to a message. -/
inductive Add
  /-- `AddByte`, `AddU16`, `AddU32`, `AddU64` or `AddString`. -/
  | item (value : Item)
  /-- `AddBytes` with all of these bytes. -/
  | bytes (value : Bytes)
  deriving DecidableEq

namespace NetworkMessage

/-! ## Adding -/

/-- `NetworkMessage::Reset`. -/
def reset (message : NetworkMessage) : NetworkMessage :=
  { message with msgSize := 0, readPos := 0 }

/-- `NetworkMessage::setReadPos`. -/
def setReadPos (message : NetworkMessage) (pos : Nat) : NetworkMessage :=
  { message with readPos := pos }

/-- `NetworkMessage::canAdd`. -/
def canAdd (message : NetworkMessage) (size : Nat) : Bool :=
  size + message.readPos < maxBodyLength

/-- Write the bytes at `m_ReadPos`; beyond the buffer that is undefined. -/
def store (message : NetworkMessage) (bytes : Bytes) :
    Except Fault NetworkMessage :=
  if inside : message.readPos + bytes.length ≤ message.msgBuf.length then
    .ok { message with
      msgBuf := overwrite message.msgBuf message.readPos bytes
      length_msgBuf := (length_overwrite inside).trans message.length_msgBuf }
  else .error .undefined

/-- Move both cursors. -/
def advance (message : NetworkMessage) (count : Nat) : NetworkMessage :=
  { message with
    readPos := message.readPos + count
    msgSize := message.msgSize + count }

/-- Store an integer of this many bytes, if there is room. -/
def addInteger (message : NetworkMessage) (width value : Nat) :
    Except Fault NetworkMessage :=
  if !message.canAdd width then .ok message
  else do
    let message ← message.store (littleEndian width value)
    pure (message.advance width)

/-- `NetworkMessage::AddByte`. -/
def addByte (message : NetworkMessage) (value : UInt8) :
    Except Fault NetworkMessage :=
  message.addInteger 1 value.toNat

/-- `NetworkMessage::AddU16`. -/
def addU16 (message : NetworkMessage) (value : UInt16) :
    Except Fault NetworkMessage :=
  message.addInteger 2 value.toNat

/-- `NetworkMessage::AddU32`. -/
def addU32 (message : NetworkMessage) (value : UInt32) :
    Except Fault NetworkMessage :=
  message.addInteger 4 value.toNat

/-- `NetworkMessage::AddU64`. -/
def addU64 (message : NetworkMessage) (value : UInt64) :
    Except Fault NetworkMessage :=
  message.addInteger 8 value.toNat

/-- `NetworkMessage::AddString`: `strcpy` writes the NUL behind the text, and
`AddByte` writes it again. -/
def addString (message : NetworkMessage) (value : Bytes) :
    Except Fault NetworkMessage :=
  let text := cStr value
  let stringlen := text.length % 2 ^ 32
  if !message.canAdd ((stringlen + 1) % 2 ^ 32) || stringlen > 8192 then
    .ok message
  else do
    let message ← message.store (text ++ [0])
    (message.advance stringlen).addByte 0

/-- `NetworkMessage::AddBytes`. -/
def addBytes (message : NetworkMessage) (bytes : Bytes) (size : Nat) :
    Except Fault NetworkMessage :=
  if !message.canAdd size || size > 8192 then .ok message
  else do
    let message ← message.store (bytes.take size)
    pure (message.advance size)

/-- Make a call. -/
def add (message : NetworkMessage) : Add → Except Fault NetworkMessage
  | .item (.byte value) => message.addByte value
  | .item (.u16 value) => message.addU16 value
  | .item (.u32 value) => message.addU32 value
  | .item (.u64 value) => message.addU64 value
  | .item (.string value) => message.addString value
  | .bytes bytes => message.addBytes bytes (bytes.length % 2 ^ 32)

/-- Make the calls on a message that has been reset. -/
def run (message : NetworkMessage) (calls : List Add) :
    Except Fault NetworkMessage :=
  calls.foldlM add message.reset

/-- The bytes of the message. -/
def contents (message : NetworkMessage) : Bytes :=
  message.msgBuf.take message.msgSize

end NetworkMessage

/-! ## Encodings -/

/-- The encoding of a value. -/
def Item.encoding : Item → Bytes
  | .byte value => littleEndian 1 value.toNat
  | .u16 value => littleEndian 2 value.toNat
  | .u32 value => littleEndian 4 value.toNat
  | .u64 value => littleEndian 8 value.toNat
  | .string value => cStr value ++ [0]

namespace Add

/-- What a call adds. -/
def encoding : Add → Bytes
  | .item value => value.encoding
  | .bytes value => value

/-- The arguments are shorter than 4 GiB. -/
def Short : Add → Prop
  | .item (.string value) => value.length < 2 ^ 32
  | .item _ => True
  | .bytes value => value.length < 2 ^ 32

/-- Whether the argument is not too long for a call. -/
def allowed : Add → Bool
  | .item (.string value) => (cStr value).length ≤ 8192
  | .item _ => true
  | .bytes value => value.length ≤ 8192

/-- A message of this size accepts the call. -/
def fits (size : Nat) (call : Add) : Bool :=
  call.encoding.length + size < maxBodyLength && call.allowed

/-- The calls that are accepted, beginning with a message of this size. -/
def accepted (size : Nat) : List Add → List Add
  | [] => []
  | call :: calls =>
      if call.fits size then
        call :: accepted (size + call.encoding.length) calls
      else accepted size calls

end Add

namespace NetworkMessage

/-! ## What a call does -/

/-- The cursors agree, inside the buffer. -/
structure Aligned (message : NetworkMessage) : Prop where
  same : message.readPos = message.msgSize
  inside : message.msgSize < maxBodyLength

/-- These bytes have been added to a message. -/
structure Appends (message : NetworkMessage) (bytes : Bytes)
    (after : NetworkMessage) : Prop where
  aligned : after.Aligned
  size : after.msgSize = message.msgSize + bytes.length
  contents : after.contents = message.contents ++ bytes

/-- Adding some bytes and then some others. -/
theorem Appends.trans
    {message middle after : NetworkMessage}
    {front back : Bytes}
    (first : Appends message front middle)
    (second : Appends middle back after) :
    Appends message (front ++ back) after where
  aligned := second.aligned
  size := by
    rw [second.size, first.size, List.length_append, Nat.add_assoc]
  contents := by
    rw [second.contents, first.contents, List.append_assoc]

theorem canAdd_eq
    {message : NetworkMessage}
    (aligned : message.Aligned)
    (size : Nat) :
    message.canAdd size = decide (size + message.msgSize < maxBodyLength) := by
  rw [canAdd, aligned.same]

/-- Bytes that fit are stored, and the cursors may be moved behind any part of
them. -/
theorem store_advance
    {message : NetworkMessage}
    (aligned : message.Aligned)
    {bytes : Bytes}
    (room : bytes.length + message.msgSize < maxBodyLength)
    {count : Nat}
    (part : count ≤ bytes.length) :
    ∃ stored, message.store bytes = .ok stored ∧
      Appends message (bytes.take count) (stored.advance count) := by
  have inside : message.readPos + bytes.length ≤ message.msgBuf.length := by
    rw [aligned.same, message.length_msgBuf]
    omega
  rw [store, dif_pos inside]
  refine ⟨_, rfl, ⟨?_, ?_⟩, ?_, ?_⟩
  · simp only [advance, aligned.same]
  · simp only [advance]
    omega
  · rw [List.length_take_of_le part]
    rfl
  · have front : (overwrite message.msgBuf message.msgSize bytes).take
        (message.msgSize + bytes.length) = message.contents ++ bytes :=
      take_overwrite bytes (by
        rw [message.length_msgBuf]
        exact aligned.inside.le)
    have length : message.contents.length = message.msgSize := by
      rw [contents, List.length_take, message.length_msgBuf]
      exact min_eq_left aligned.inside.le
    have shorter : message.msgSize + count ≤ message.msgSize + bytes.length := by
      omega
    calc (overwrite message.msgBuf message.readPos bytes).take
          (message.msgSize + count)
        = (message.contents ++ bytes).take (message.msgSize + count) := by
          rw [← front, List.take_take, min_eq_left shorter, aligned.same]
      _ = message.contents ++ bytes.take count := by
          rw [← length, List.take_length_add_append]

theorem addInteger_appends
    {message : NetworkMessage}
    (aligned : message.Aligned)
    {width : Nat}
    (value : Nat)
    (room : width + message.msgSize < maxBodyLength) :
    ∃ after, message.addInteger width value = .ok after ∧
      Appends message (littleEndian width value) after := by
  obtain ⟨stored, wrote, appends⟩ := @store_advance message aligned
    (littleEndian width value) (by simpa using room) width (by simp)
  rw [List.take_of_length_le (by simp)] at appends
  refine ⟨stored.advance width, ?_, appends⟩
  rw [addInteger, canAdd_eq aligned, if_neg (by simpa using room), wrote]
  rfl

/-- The text is copied with its NUL, which is then added once more. -/
theorem addString_appends
    {message : NetworkMessage}
    (aligned : message.Aligned)
    {value : Bytes}
    (allowed : (cStr value).length ≤ 8192)
    (room : (cStr value).length + 1 + message.msgSize < maxBodyLength) :
    ∃ after, message.addString value = .ok after ∧
      Appends message (cStr value ++ [0]) after := by
  have small : (cStr value).length % 2 ^ 32 = (cStr value).length :=
    Nat.mod_eq_of_lt (by omega)
  have smallNul : ((cStr value).length + 1) % 2 ^ 32 =
      (cStr value).length + 1 := Nat.mod_eq_of_lt (by omega)
  obtain ⟨stored, wrote, text⟩ := @store_advance message aligned
    (cStr value ++ [0]) (by simpa using room) (cStr value).length (by simp)
  rw [List.take_left] at text
  obtain ⟨after, ended, nul⟩ := @addInteger_appends
    (stored.advance (cStr value).length) text.aligned 1 0 (by
      rw [text.size]
      omega)
  have passes : ¬ ((!decide ((cStr value).length + 1 + message.msgSize <
      maxBodyLength) || decide ((cStr value).length > 8192)) = true) := by
    simp [room, allowed]
  refine ⟨after, ?_, text.trans nul⟩
  simp only [addString, small, smallNul, canAdd_eq aligned, if_neg passes,
    wrote]
  exact ended

theorem addBytes_appends
    {message : NetworkMessage}
    (aligned : message.Aligned)
    {bytes : Bytes}
    (allowed : bytes.length ≤ 8192)
    (room : bytes.length + message.msgSize < maxBodyLength) :
    ∃ after, message.addBytes bytes bytes.length = .ok after ∧
      Appends message bytes after := by
  obtain ⟨stored, wrote, appends⟩ := @store_advance message aligned bytes room
    bytes.length (Nat.le_refl _)
  rw [List.take_length] at appends
  have passes : ¬ ((!decide (bytes.length + message.msgSize < maxBodyLength) ||
      decide (bytes.length > 8192)) = true) := by
    simp [room, allowed]
  refine ⟨stored.advance bytes.length, ?_, appends⟩
  rw [addBytes, canAdd_eq aligned, if_neg passes, List.take_length, wrote]
  rfl

/-- A call that fits adds its encoding. -/
theorem add_of_fits
    {message : NetworkMessage}
    (aligned : message.Aligned)
    {call : Add}
    (short : call.Short)
    (fits : call.fits message.msgSize = true) :
    ∃ after, message.add call = .ok after ∧
      Appends message call.encoding after := by
  rw [Add.fits, Bool.and_eq_true, decide_eq_true_iff] at fits
  obtain ⟨room, allowed⟩ := fits
  rcases call with ⟨value | value | value | value | value⟩ | value
  · exact addInteger_appends aligned value.toNat room
  · exact addInteger_appends aligned value.toNat room
  · exact addInteger_appends aligned value.toNat room
  · exact addInteger_appends aligned value.toNat room
  · exact addString_appends aligned (by simpa [Add.allowed] using allowed)
      (by simpa [Add.encoding, Item.encoding] using room)
  · rw [add, Nat.mod_eq_of_lt short]
    exact addBytes_appends aligned (by simpa [Add.allowed] using allowed) room

theorem addInteger_full
    {message : NetworkMessage}
    (aligned : message.Aligned)
    {width : Nat}
    (value : Nat)
    (full : ¬ width + message.msgSize < maxBodyLength) :
    message.addInteger width value = .ok message := by
  rw [addInteger, canAdd_eq aligned, if_pos (by simpa using full)]

/-- The length of the text wraps with its NUL only where it is too long
anyway. -/
theorem addString_full
    {message : NetworkMessage}
    (aligned : message.Aligned)
    {value : Bytes}
    (short : (cStr value).length < 2 ^ 32)
    (full : ¬ (cStr value).length + 1 + message.msgSize < maxBodyLength ∨
      8192 < (cStr value).length) :
    message.addString value = .ok message := by
  have small : (cStr value).length % 2 ^ 32 = (cStr value).length :=
    Nat.mod_eq_of_lt short
  rw [addString, small, canAdd_eq aligned]
  apply if_pos
  rw [Bool.or_eq_true, Bool.not_eq_true', decide_eq_false_iff_not,
    decide_eq_true_iff]
  by_cases long : 8192 < (cStr value).length
  · exact .inr long
  · have smallNul : ((cStr value).length + 1) % 2 ^ 32 =
        (cStr value).length + 1 := Nat.mod_eq_of_lt (by omega)
    rw [smallNul]
    exact .inl (full.resolve_right long)

theorem addBytes_full
    {message : NetworkMessage}
    (aligned : message.Aligned)
    {bytes : Bytes}
    (full : ¬ bytes.length + message.msgSize < maxBodyLength ∨
      8192 < bytes.length) :
    message.addBytes bytes bytes.length = .ok message := by
  rw [addBytes, canAdd_eq aligned]
  apply if_pos
  rwa [Bool.or_eq_true, Bool.not_eq_true', decide_eq_false_iff_not,
    decide_eq_true_iff]

/-- Any other call changes nothing. -/
theorem add_of_not_fits
    {message : NetworkMessage}
    (aligned : message.Aligned)
    {call : Add}
    (short : call.Short)
    (tooLong : call.fits message.msgSize = false) :
    message.add call = .ok message := by
  rw [Add.fits, Bool.and_eq_false_iff, decide_eq_false_iff_not] at tooLong
  rcases call with ⟨value | value | value | value | value⟩ | value
  · exact addInteger_full aligned _
      (tooLong.resolve_right (by simp [Add.allowed]))
  · exact addInteger_full aligned _
      (tooLong.resolve_right (by simp [Add.allowed]))
  · exact addInteger_full aligned _
      (tooLong.resolve_right (by simp [Add.allowed]))
  · exact addInteger_full aligned _
      (tooLong.resolve_right (by simp [Add.allowed]))
  · have length : (cStr value).length ≤ value.length :=
      (List.takeWhile_sublist _).length_le
    apply addString_full aligned (length.trans_lt short)
    simpa [Add.allowed, Add.encoding, Item.encoding] using tooLong
  · rw [add, Nat.mod_eq_of_lt short]
    apply addBytes_full aligned
    simpa [Add.allowed, Add.encoding] using tooLong

/-! ## Runs -/

theorem reset_aligned (message : NetworkMessage) : message.reset.Aligned :=
  ⟨rfl, show 0 < maxBodyLength by decide⟩

theorem Aligned.appends_nil
    {message : NetworkMessage}
    (aligned : message.Aligned) : Appends message [] message :=
  ⟨aligned, rfl, (List.append_nil _).symm⟩

/-- One call, and whether it is accepted. -/
theorem add_appends
    {message : NetworkMessage}
    (aligned : message.Aligned)
    {call : Add}
    (short : call.Short) :
    ∃ after, message.add call = .ok after ∧
      Appends message (if call.fits message.msgSize then call.encoding else [])
        after ∧
      (call.fits message.msgSize = false → after = message) := by
  cases fits : call.fits message.msgSize with
  | true =>
      obtain ⟨after, added, appends⟩ := add_of_fits aligned short fits
      exact ⟨after, added, appends, by simp⟩
  | false =>
      exact ⟨message, add_of_not_fits aligned short fits, aligned.appends_nil,
        fun _ => rfl⟩

/-- The calls add the encodings of those that are accepted. -/
theorem foldlM_add_appends
    {message : NetworkMessage}
    (aligned : message.Aligned)
    {calls : List Add}
    (short : ∀ call ∈ calls, call.Short) :
    ∃ after, calls.foldlM add message = .ok after ∧
      Appends message
        ((Add.accepted message.msgSize calls).flatMap Add.encoding) after := by
  induction calls generalizing message with
  | nil => exact ⟨message, rfl, aligned.appends_nil⟩
  | cons call calls inductionHypothesis =>
      obtain ⟨shortCall, shortCalls⟩ := List.forall_mem_cons.mp short
      obtain ⟨middle, added, first, -⟩ := add_appends aligned shortCall
      obtain ⟨after, ran, rest⟩ :=
        inductionHypothesis first.aligned shortCalls
      refine ⟨after, ?_, ?_⟩
      · rw [List.foldlM_cons, added]
        exact ran
      · have both := first.trans rest
        rw [first.size] at both
        rw [Add.accepted]
        split
        · next fits =>
            rwa [if_pos fits] at both
        · next refused =>
            rwa [if_neg refused] at both

end NetworkMessage

/-- One more call is accepted or not. -/
theorem Add.accepted_append_singleton
    (size : Nat)
    (calls : List Add)
    (call : Add) :
    Add.accepted size (calls ++ [call]) = Add.accepted size calls ++
      if call.fits (size +
        ((Add.accepted size calls).flatMap Add.encoding).length)
      then [call] else [] := by
  induction calls generalizing size with
  | nil => simp [accepted]
  | cons first calls inductionHypothesis =>
      rw [List.cons_append, accepted, accepted]
      split
      · rw [inductionHypothesis, List.flatMap_cons, List.length_append,
          Nat.add_assoc, List.cons_append]
      · exact inductionHypothesis size

namespace NetworkMessage

/-- The calls end with the cursors inside the buffer and the encodings of the
accepted calls in front of them, and each of them has added its whole encoding
or has changed nothing. -/
structure KeepsEncodings (message : NetworkMessage) (calls : List Add) :
    Prop where
  whole : ∃ after, message.run calls = .ok after ∧
    after.readPos = after.msgSize ∧ after.msgSize < maxBodyLength ∧
    after.contents = (Add.accepted 0 calls).flatMap Add.encoding
  each : ∀ earlier call later, calls = earlier ++ call :: later →
    ∃ before after, message.run earlier = .ok before ∧
      message.run (earlier ++ [call]) = .ok after ∧
      (after = before ∧
          Add.accepted 0 (earlier ++ [call]) = Add.accepted 0 earlier ∨
        after.contents = before.contents ++ call.encoding ∧
          Add.accepted 0 (earlier ++ [call]) =
            Add.accepted 0 earlier ++ [call])

/-- The encodings are kept in any sequence of calls. -/
theorem keepsEncodings
    (message : NetworkMessage)
    {calls : List Add}
    (short : ∀ call ∈ calls, call.Short) :
    KeepsEncodings message calls where
  whole := by
    obtain ⟨after, ran, appends⟩ :=
      foldlM_add_appends message.reset_aligned short
    exact ⟨after, ran, appends.aligned.same, appends.aligned.inside,
      appends.contents⟩
  each := by
    rintro earlier call later rfl
    rw [List.forall_mem_append, List.forall_mem_cons] at short
    obtain ⟨before, ran, appends⟩ :=
      foldlM_add_appends message.reset_aligned short.1
    obtain ⟨after, added, step, unchanged⟩ :=
      add_appends appends.aligned short.2.1
    have size : before.msgSize =
        0 + ((Add.accepted 0 earlier).flatMap Add.encoding).length :=
      appends.size
    refine ⟨before, after, ran, ?_, ?_⟩
    · rw [run, List.foldlM_append, ran]
      change [call].foldlM add before = .ok after
      rw [List.foldlM_cons, added]
      rfl
    · rw [Add.accepted_append_singleton, ← size]
      cases fits : call.fits before.msgSize with
      | true =>
          rw [fits, if_pos rfl] at step
          exact .inr ⟨step.contents, rfl⟩
      | false => exact .inl ⟨unchanged fits, List.append_nil _⟩

/-- A message whose bytes are zero. -/
def blank : NetworkMessage where
  msgBuf := List.replicate maxBodyLength 0
  length_msgBuf := List.length_replicate

theorem keepsEncodings_greeting :
    (∀ call ∈ [Add.item (.byte 7), .item (.string (lit "hello")), .bytes []],
        call.Short) ∧
      KeepsEncodings blank
        [.item (.byte 7), .item (.string (lit "hello")), .bytes []] := by
  have short : ∀ call ∈ [Add.item (.byte 7), .item (.string (lit "hello")),
      .bytes []], call.Short := by simp [Add.Short, lit]
  exact ⟨short, keepsEncodings blank short⟩

end NetworkMessage
end Network
end Lotospp
