import Lotospp.Common.Read
import Lotospp.Network.NetworkMessage

/-!
# Reading a network message

The functions that read a `NetworkMessage` follow the same cursor as those
that add to it.  `GetString` reads the rest of the message instead of the text
up to its NUL, and answers what begins with that NUL.
-/

namespace Lotospp
namespace Network

open Text Common

namespace NetworkMessage

/-! ## Reading -/

/-- Read bytes at `m_ReadPos`; beyond the buffer that is undefined. -/
def load (message : NetworkMessage) (count : Nat) :
    Except Fault (Bytes × NetworkMessage) :=
  if message.readPos + count ≤ message.msgBuf.length then
    .ok (slice message.msgBuf message.readPos count,
      { message with readPos := message.readPos + count })
  else .error .undefined

/-- Read an integer of this many bytes. -/
def getInteger (message : NetworkMessage) (width : Nat) :
    Except Fault (Nat × NetworkMessage) := do
  let (bytes, message) ← message.load width
  pure (ofLittleEndian bytes, message)

/-- `NetworkMessage::GetByte`. -/
def getByte (message : NetworkMessage) :
    Except Fault (UInt8 × NetworkMessage) := do
  let (value, message) ← message.getInteger 1
  pure (.ofNat value, message)

/-- `NetworkMessage::GetU16`. -/
def getU16 (message : NetworkMessage) :
    Except Fault (UInt16 × NetworkMessage) := do
  let (value, message) ← message.getInteger 2
  pure (.ofNat value, message)

/-- `NetworkMessage::GetU32`. -/
def getU32 (message : NetworkMessage) :
    Except Fault (UInt32 × NetworkMessage) := do
  let (value, message) ← message.getInteger 4
  pure (.ofNat value, message)

/-- `NetworkMessage::GetU64`. -/
def getU64 (message : NetworkMessage) :
    Except Fault (UInt64 × NetworkMessage) := do
  let (value, message) ← message.getInteger 8
  pure (.ofNat value, message)

/-- `NetworkMessage::GetRaw`; the length is kept in 16 bits. -/
def getRaw (message : NetworkMessage) :
    Except Fault (Bytes × NetworkMessage) :=
  if message.msgSize ≥ maxBodyLength then .ok ([], message)
  else
    let stringlen : Int :=
      ((message.msgSize : Int) - (message.readPos : Int)) % 2 ^ 16
    message.load stringlen.toNat

/-- `NetworkMessage::GetString`: the constructor `string(raw, p)` copies `raw`
from `p` on. -/
def getString (message : NetworkMessage) :
    Except Fault (Bytes × NetworkMessage) := do
  let (raw, message) ← message.getRaw
  match raw.findIdx? (· = 0) with
  | none => pure (raw, message)
  | some p => pure (raw.drop p, message)

/-- Read a value of the same kind. -/
def getLike (message : NetworkMessage) :
    Item → Except Fault (Item × NetworkMessage)
  | .byte _ => do
      let (value, message) ← message.getByte
      pure (.byte value, message)
  | .u16 _ => do
      let (value, message) ← message.getU16
      pure (.u16 value, message)
  | .u32 _ => do
      let (value, message) ← message.getU32
      pure (.u32 value, message)
  | .u64 _ => do
      let (value, message) ← message.getU64
      pure (.u64 value, message)
  | .string _ => do
      let (value, message) ← message.getString
      pure (.string value, message)

/-- Read values of the same kinds, in the same order. -/
def readBack (message : NetworkMessage) : List Item → Except Fault (List Item)
  | [] => .ok []
  | item :: items => do
      let (value, message) ← message.getLike item
      let values ← message.readBack items
      pure (value :: values)

/-- The values that are added to a message are those that are then read from
its beginning. -/
def RoundTrips (message : NetworkMessage) (items : List Item) : Prop :=
  ∃ written, message.run (items.map Add.item) = .ok written ∧
    (written.setReadPos 0).readBack items = .ok items

end NetworkMessage

/-- The value is no string, or a string without NUL that is not too long. -/
def Item.Writable : Item → Prop
  | .string value => 0 ∉ value ∧ value.length ≤ 8192
  | _ => True

/-- The value is a string. -/
def Item.isString : Item → Bool
  | .string _ => true
  | _ => false

/-! ## Adding values that fit -/

/-- Values that fit are all accepted. -/
theorem accepted_items
    {size : Nat}
    {items : List Item}
    (writable : ∀ item ∈ items, item.Writable)
    (fits : size + (items.flatMap Item.encoding).length < maxBodyLength) :
    Add.accepted size (items.map Add.item) = items.map Add.item := by
  induction items generalizing size with
  | nil => rfl
  | cons item items inductionHypothesis =>
      obtain ⟨first, others⟩ := List.forall_mem_cons.mp writable
      rw [List.flatMap_cons, List.length_append] at fits
      have allowed : (Add.item item).allowed = true := by
        cases item with
        | string value =>
            have length : (cStr value).length ≤ value.length :=
              (List.takeWhile_sublist _).length_le
            exact decide_eq_true (length.trans first.2)
        | _ => rfl
      have room : (Add.item item).encoding.length + size < maxBodyLength := by
        change item.encoding.length + size < maxBodyLength
        omega
      have accepts : (Add.item item).fits size = true := by
        rw [Add.fits, allowed, Bool.and_true]
        exact decide_eq_true room
      rw [List.map_cons, Add.accepted, if_pos accepts,
        inductionHypothesis others]
      change size + item.encoding.length + _ < _
      omega

namespace NetworkMessage

/-- The bytes from the cursor to the end of the message are the encodings of
these values. -/
structure Holds (message : NetworkMessage) (items : List Item) : Prop where
  inside : message.msgSize < maxBodyLength
  rest : ∃ before, before.length = message.readPos ∧
    message.contents = before ++ items.flatMap Item.encoding

/-- Bytes of the message are read where the cursor stands. -/
theorem load_front
    {message : NetworkMessage}
    {before front back : Bytes}
    (position : before.length = message.readPos)
    (contents : message.contents = before ++ (front ++ back)) :
    message.load front.length =
      .ok (front,
        { message with readPos := message.readPos + front.length }) := by
  have inBuffer : before ++ front <+: message.msgBuf := by
    have atFront : message.contents <+: message.msgBuf :=
      List.take_prefix _ _
    rw [contents, ← List.append_assoc] at atFront
    exact (List.prefix_append _ _).trans atFront
  have inside := inBuffer.length_le
  rw [List.length_append, position] at inside
  rw [load, if_pos inside, ← position, slice_of_front inBuffer]

/-- What is left when a value has been read. -/
theorem Holds.next
    {message : NetworkMessage}
    {item : Item}
    {items : List Item}
    (holds : message.Holds (item :: items)) :
    Holds { message with
      readPos := message.readPos + item.encoding.length } items where
  inside := holds.inside
  rest := by
    obtain ⟨before, position, contents⟩ := holds.rest
    refine ⟨before ++ item.encoding, ?_, ?_⟩
    · rw [List.length_append, position]
    · rw [List.append_assoc, ← List.flatMap_cons]
      exact contents

/-- An integer is read as it was added. -/
theorem getInteger_of_holds
    {message : NetworkMessage}
    {item : Item}
    {items : List Item}
    (holds : message.Holds (item :: items))
    {width value : Nat}
    (encoded : item.encoding = littleEndian width value)
    (small : value < 256 ^ width) :
    message.getInteger width = .ok (value,
      { message with readPos := message.readPos + item.encoding.length }) := by
  obtain ⟨before, position, contents⟩ := holds.rest
  rw [List.flatMap_cons] at contents
  have loaded := load_front position contents
  have length : item.encoding.length = width := by
    rw [encoded, length_littleEndian]
  rw [length] at loaded
  rw [getInteger, loaded, length, encoded]
  simp [bind, Except.bind, pure, Except.pure, ofLittleEndian_of_lt small]

/-- A value that is no string is read as it was added. -/
theorem getLike_of_holds
    {message : NetworkMessage}
    {item : Item}
    {items : List Item}
    (holds : message.Holds (item :: items))
    (noString : item.isString = false) :
    message.getLike item = .ok (item,
      { message with readPos := message.readPos + item.encoding.length }) := by
  cases item with
  | byte value =>
      rw [getLike, getByte, getInteger_of_holds holds rfl value.toNat_lt]
      simp [bind, Except.bind, pure, Except.pure]
  | u16 value =>
      rw [getLike, getU16, getInteger_of_holds holds rfl value.toNat_lt]
      simp [bind, Except.bind, pure, Except.pure]
  | u32 value =>
      rw [getLike, getU32, getInteger_of_holds holds rfl value.toNat_lt]
      simp [bind, Except.bind, pure, Except.pure]
  | u64 value =>
      rw [getLike, getU64, getInteger_of_holds holds rfl value.toNat_lt]
      simp [bind, Except.bind, pure, Except.pure]
  | string value => cases noString

/-- The rest of a message is read as a whole. -/
theorem getRaw_of_contents
    {message : NetworkMessage}
    {before rest : Bytes}
    (inside : message.msgSize < maxBodyLength)
    (position : before.length = message.readPos)
    (contents : message.contents = before ++ rest) :
    message.getRaw = .ok (rest,
      { message with readPos := message.readPos + rest.length }) := by
  have size : message.msgSize = before.length + rest.length := by
    rw [← List.length_append, ← contents, NetworkMessage.contents,
      List.length_take, message.length_msgBuf]
    exact (min_eq_left inside.le).symm
  have stringlen : (((message.msgSize : Int) - (message.readPos : Int)) %
      2 ^ 16).toNat = rest.length := by
    have bound : message.msgSize < 15340 := inside
    omega
  have loaded := @load_front message before rest [] position
    (by rwa [List.append_nil])
  rw [getRaw, if_neg (Nat.not_le_of_lt inside)]
  change message.load (((message.msgSize : Int) - (message.readPos : Int)) %
    2 ^ 16).toNat = _
  rw [stringlen, loaded]

/-- A string is read as the rest of the message from its NUL on. -/
theorem getString_of_holds
    {message : NetworkMessage}
    {value : Bytes}
    {items : List Item}
    (holds : message.Holds (.string value :: items))
    (noNul : 0 ∉ value) :
    ∃ after, message.getString =
      .ok (0 :: items.flatMap Item.encoding, after) := by
  obtain ⟨before, position, contents⟩ := holds.rest
  have missing : value.findIdx? (fun byte => decide (byte = 0)) = none :=
    List.findIdx?_eq_none_iff.mpr fun byte inside => by
      simpa using ne_of_mem_of_not_mem inside noNul
  have found : (value ++ 0 :: items.flatMap Item.encoding).findIdx? (· = 0) =
      some value.length := by
    rw [List.findIdx?_append, missing]
    simp [List.findIdx?_cons]
  rw [List.flatMap_cons, Item.encoding, cStr_of_noNul noNul,
    List.append_assoc] at contents
  have raw := getRaw_of_contents holds.inside position contents
  rw [getString, raw]
  simp only [bind, Except.bind, List.singleton_append, found, List.drop_left]
  exact ⟨_, rfl⟩

/-- Reading back answers the values exactly when none of them is a string. -/
theorem readBack_eq_ok_iff
    {message : NetworkMessage}
    {items : List Item}
    (holds : message.Holds items)
    (writable : ∀ item ∈ items, item.Writable) :
    message.readBack items = .ok items ↔
      ∀ item ∈ items, item.isString = false := by
  induction items generalizing message with
  | nil => simp [readBack]
  | cons item items inductionHypothesis =>
      obtain ⟨first, others⟩ := List.forall_mem_cons.mp writable
      rw [List.forall_mem_cons, ← inductionHypothesis holds.next others]
      cases isString : item.isString with
      | false =>
          rw [readBack, getLike_of_holds holds isString]
          simp only [bind, Except.bind, true_and]
          cases rest : readBack _ items with
          | error error => simp
          | ok values => simp [pure, Except.pure]
      | true =>
          obtain ⟨value, rfl⟩ : ∃ value, item = .string value := by
            cases item with
            | string value => exact ⟨value, rfl⟩
            | _ => cases isString
          obtain ⟨after, read⟩ := getString_of_holds holds first.1
          have different : 0 :: items.flatMap Item.encoding ≠ value := by
            intro same
            exact first.1 (same ▸ List.mem_cons_self)
          rw [readBack, getLike, read]
          simp only [bind, Except.bind, pure, Except.pure]
          cases readBack after items with
          | error error => simp
          | ok values => simp [different]

/-- Adding values that fit to a message leaves their encodings. -/
theorem run_holds
    (message : NetworkMessage)
    {items : List Item}
    (writable : ∀ item ∈ items, item.Writable)
    (fits : (items.flatMap Item.encoding).length < maxBodyLength) :
    ∃ written, message.run (items.map Add.item) = .ok written ∧
      (written.setReadPos 0).Holds items := by
  have short : ∀ call ∈ items.map Add.item, call.Short := by
    rintro _ inside
    obtain ⟨item, isItem, rfl⟩ := List.mem_map.mp inside
    cases item with
    | string value =>
        exact (writable _ isItem).2.trans_lt (show 8192 < 2 ^ 32 by decide)
    | _ => trivial
  obtain ⟨written, ran, appends⟩ :=
    foldlM_add_appends message.reset_aligned short
  have accepted : Add.accepted 0 (items.map Add.item) = items.map Add.item :=
    accepted_items writable (by rwa [Nat.zero_add])
  refine ⟨written, ran, appends.aligned.inside, [], rfl, ?_⟩
  have added := appends.contents
  change written.contents = [] ++
    (Add.accepted 0 (items.map Add.item)).flatMap Add.encoding at added
  rw [accepted, List.nil_append, List.flatMap_map] at added
  exact added

/-- Values that fit are read back exactly when none of them is a string. -/
theorem roundTrips_iff
    (message : NetworkMessage)
    {items : List Item}
    (writable : ∀ item ∈ items, item.Writable)
    (fits : (items.flatMap Item.encoding).length < maxBodyLength) :
    RoundTrips message items ↔ ∀ item ∈ items, item.isString = false := by
  obtain ⟨written, ran, holds⟩ := run_holds message writable fits
  rw [← readBack_eq_ok_iff holds writable]
  constructor
  · rintro ⟨written', ran', read⟩
    rw [ran] at ran'
    obtain rfl := Except.ok.inj ran'
    exact read
  · intro read
    exact ⟨written, ran, read⟩

/-- Integers of every width. -/
theorem roundTrips_integers :
    (∀ item ∈ [Item.byte 7, .u16 700, .u32 70000, .u64 7000000000],
        item.Writable) ∧
      (RoundTrips blank [.byte 7, .u16 700, .u32 70000, .u64 7000000000] ↔
        ∀ item ∈ [Item.byte 7, .u16 700, .u32 70000, .u64 7000000000],
          item.isString = false) := by
  have writable : ∀ item ∈ [Item.byte 7, .u16 700, .u32 70000,
      .u64 7000000000], item.Writable := by simp [Item.Writable]
  exact ⟨writable, roundTrips_iff blank writable (by decide)⟩

/-- Only the NUL behind `hi` is read. -/
theorem not_roundTrips_string :
    (∀ item ∈ [Item.string (lit "hi")], item.Writable) ∧
      ∃ written, blank.run [.item (.string (lit "hi"))] = .ok written ∧
        (written.setReadPos 0).readBack [.string (lit "hi")] =
          .ok [.string [0]] ∧
        ¬ RoundTrips blank [.string (lit "hi")] := by
  have noNul : 0 ∉ lit "hi" := by decide
  have writable : ∀ item ∈ [Item.string (lit "hi")], item.Writable := by
    rw [List.forall_mem_singleton]
    exact ⟨noNul, by decide⟩
  obtain ⟨written, ran, holds⟩ := run_holds blank writable (by decide)
  obtain ⟨after, read⟩ := getString_of_holds holds noNul
  have wrong : (written.setReadPos 0).readBack [.string (lit "hi")] =
      .ok [.string [0]] := by
    rw [readBack, getLike, read]
    rfl
  refine ⟨writable, written, ran, wrong, ?_⟩
  rintro ⟨written', ran', right⟩
  obtain rfl := Except.ok.inj (ran.symm.trans ran')
  exact absurd (wrong.symm.trans right) (by decide)

/-- The whole of a message is read as for a packet. -/
theorem getRaw_eq
    {message : NetworkMessage}
    (inside : message.msgSize < maxBodyLength) :
    ∃ after, (message.setReadPos 0).getRaw =
      .ok (Common.getRaw message.contents, after) := by
  have size : message.contents.length < maxSize :=
    (List.length_take_le _ _).trans_lt inside
  have raw := @getRaw_of_contents (message.setReadPos 0) [] message.contents
    inside rfl rfl
  rw [Common.getRaw, if_neg (Nat.not_le_of_lt size), raw]
  exact ⟨_, rfl⟩

end NetworkMessage
end Network
end Lotospp
