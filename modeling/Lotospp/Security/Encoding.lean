import Lotospp.Security.Hashes

/-!
# Encoding and decoding

`BF_encode` writes six bits a character, and `BF_decode` reads them back.
The last character of a group that is not full has bits that no byte uses.
-/

namespace Lotospp
namespace Security

open Text Common

/-- The bits of the last character that stand for bits of the bytes, when
there are so many bytes. -/
def usedBits (count : Nat) : UInt8 :=
  if count % 3 = 1 then 0x30
  else if count % 3 = 2 then 0x3C
  else 0x3F

/-- The characters with the unused bits of the last one cleared. -/
def lastCleared (count : Nat) (characters : Bytes) : Bytes :=
  characters.dropLast ++
    [itoa64 (sextet (characters.getLastD 0) &&& usedBits count)]

/-! ## A group of three bytes -/

theorem or_and (left right mask : UInt8) :
    (left ||| right) &&& mask = (left &&& mask) ||| (right &&& mask) := by
  apply UInt8.eq_of_toBitVec_eq
  ext position
  simp [Bool.and_or_distrib_right]

/-- The parts of a byte that two characters hold give the byte, and the part
that one of them holds is apart from that of the next byte. -/
@[mk_iff]
structure Parts (byte : UInt8) : Prop where
  /-- The two parts of the first byte of a group. -/
  first : (byte >>> 2) <<< 2 ||| (((byte &&& 0x03) <<< 4) &&& 0x30) >>> 4 = byte
  /-- The two parts of the second byte. -/
  second : ((byte >>> 4) &&& 0x0F) <<< 4 |||
    (((byte &&& 0x0F) <<< 2) &&& 0x3C) >>> 2 = byte
  /-- The two parts of the third byte. -/
  third : ((byte >>> 6) &&& 0x03) <<< 6 ||| (byte &&& 0x3F) = byte
  /-- The first byte of a group is apart from the second one. -/
  firstApart : ((byte &&& 0x03) <<< 4) &&& 0x0F = 0
  /-- The second one is apart from the first one. -/
  secondApart : (byte >>> 4) &&& 0x30 = 0
  /-- The second one is apart from the third one. -/
  secondApartToo : ((byte &&& 0x0F) <<< 2) &&& 0x03 = 0
  /-- The third one is apart from the second one. -/
  thirdApart : (byte >>> 6) &&& 0x3C = 0

instance (byte : UInt8) : Decidable (Parts byte) :=
  decidable_of_iff' _ (parts_iff byte)

theorem parts (byte : UInt8) : Parts byte :=
  forall_byte Parts (by decide +kernel) byte

theorem first_of_group (first second : UInt8) :
    (first >>> 2) <<< 2 |||
        ((((first &&& 0x03) <<< 4) ||| (second >>> 4)) &&& 0x30) >>> 4 =
      first := by
  rw [or_and, (parts second).secondApart, UInt8.or_zero]
  exact (parts first).first

theorem second_of_group (first second third : UInt8) :
    ((((first &&& 0x03) <<< 4) ||| (second >>> 4)) &&& 0x0F) <<< 4 |||
        ((((second &&& 0x0F) <<< 2) ||| (third >>> 6)) &&& 0x3C) >>> 2 =
      second := by
  rw [or_and, (parts first).firstApart, UInt8.zero_or, or_and,
    (parts third).thirdApart, UInt8.or_zero]
  exact (parts second).second

theorem third_of_group (second third : UInt8) :
    ((((second &&& 0x0F) <<< 2) ||| (third >>> 6)) &&& 0x03) <<< 6 |||
        (third &&& 0x3F) =
      third := by
  rw [or_and, (parts second).secondApartToo, UInt8.zero_or]
  exact (parts third).third

/-- Bytes that are encoded are decoded again. -/
theorem decodedBytes_bfEncode (bytes : Bytes) :
    decodedBytes bytes.length (bfEncode bytes) = bytes := by
  fun_induction bfEncode bytes with
  | case1 => rfl
  | case2 first =>
      obtain ⟨high, low, -⟩ := parts_lt first
      simp only [List.length_singleton, decodedBytes, List.getD_cons_zero,
        List.getD_cons_succ, sextet_itoa64 high, sextet_itoa64 low]
      rw [(parts first).first]
  | case3 first second =>
      obtain ⟨high, low, -⟩ := parts_lt first
      obtain ⟨-, -, middle, end_, -⟩ := parts_lt second
      simp only [List.length_cons, List.length_nil, Nat.zero_add, Nat.reduceAdd,
        decodedBytes, List.getD_cons_zero, List.getD_cons_succ,
        sextet_itoa64 high, sextet_itoa64 (or_lt low middle),
        sextet_itoa64 end_, first_of_group]
      rw [or_and, (parts first).firstApart, UInt8.zero_or,
        (parts second).second]
  | case4 first second third rest inductionHypothesis =>
      obtain ⟨high, low, -⟩ := parts_lt first
      obtain ⟨-, -, middle, end_, -⟩ := parts_lt second
      obtain ⟨-, -, -, -, top, bottom⟩ := parts_lt third
      simp only [List.length_cons, decodedBytes, List.getD_cons_zero,
        List.getD_cons_succ, sextet_itoa64 high,
        sextet_itoa64 (or_lt low middle), sextet_itoa64 (or_lt end_ top),
        sextet_itoa64 bottom, first_of_group, second_of_group, third_of_group]
      rw [List.drop_succ_cons, List.drop_succ_cons, List.drop_succ_cons,
        List.drop_succ_cons, List.drop_zero, inductionHypothesis]

/-! ## A group of four characters -/

/-- The parts of six bits that two bytes hold give the six bits. -/
@[mk_iff]
structure SixBits (bits : UInt8) : Prop where
  /-- Six bits stand in the upper part of a byte. -/
  shifted : (bits <<< 2) >>> 2 = bits
  /-- Two of them stand in one byte and four in the next. -/
  second : (bits &&& 0x30) ||| (bits &&& 0x0F) = bits
  /-- Four of them stand in one byte and two in the next. -/
  third : (bits &&& 0x3C) ||| (bits &&& 0x03) = bits
  /-- There are no other bits. -/
  last : bits &&& 0x3F = bits
  /-- There are no upper bits. -/
  top : bits >>> 6 = 0

/-- Where the parts of six bits stand in the bytes. -/
@[mk_iff]
structure Places (bits : UInt8) : Prop where
  /-- The first six bits are the upper ones of a byte. -/
  first : (bits <<< 2) &&& 0x03 = 0
  /-- Two of the second six bits are the lower ones of this byte. -/
  secondHigh : ((bits &&& 0x30) >>> 4) >>> 2 = 0
  /-- They are read there. -/
  secondHighRead : (((bits &&& 0x30) >>> 4) &&& 0x03) <<< 4 = bits &&& 0x30
  /-- The other four are the upper ones of the next byte. -/
  secondLowRead : ((bits &&& 0x0F) <<< 4) >>> 4 = bits &&& 0x0F
  /-- Nothing is below them. -/
  secondLow : ((bits &&& 0x0F) <<< 4) &&& 0x0F = 0
  /-- Four of the third six bits are the lower ones of this byte. -/
  thirdHigh : ((bits &&& 0x3C) >>> 2) >>> 4 = 0
  /-- They are read there. -/
  thirdHighRead : (((bits &&& 0x3C) >>> 2) &&& 0x0F) <<< 2 = bits &&& 0x3C
  /-- The other two are the upper ones of the last byte. -/
  thirdLowRead : ((bits &&& 0x03) <<< 6) >>> 6 = bits &&& 0x03
  /-- Nothing is below them. -/
  thirdLow : ((bits &&& 0x03) <<< 6) &&& 0x3F = 0

instance (bits : UInt8) : Decidable (SixBits bits) :=
  decidable_of_iff' _ (sixBits_iff bits)

instance (bits : UInt8) : Decidable (Places bits) :=
  decidable_of_iff' _ (places_iff bits)

theorem sextet_places (bits : UInt8) :
    (bits < 64 → SixBits bits) ∧ Places bits :=
  forall_byte (fun bits => (bits < 64 → SixBits bits) ∧ Places bits)
    (by decide +kernel) bits

theorem sixBits_of_lt
    {bits : UInt8}
    (small : bits < 64) : SixBits bits :=
  (sextet_places bits).1 small

theorem places (bits : UInt8) : Places bits :=
  (sextet_places bits).2

/-- The first byte of a group. -/
def firstByte (c1 c2 : UInt8) : UInt8 :=
  (c1 <<< 2) ||| ((c2 &&& 0x30) >>> 4)

/-- The second byte of a group. -/
def secondByte (c2 c3 : UInt8) : UInt8 :=
  ((c2 &&& 0x0F) <<< 4) ||| ((c3 &&& 0x3C) >>> 2)

/-- The third byte of a group. -/
def thirdByte (c3 c4 : UInt8) : UInt8 :=
  ((c3 &&& 0x03) <<< 6) ||| c4

theorem firstByte_high
    {c1 : UInt8}
    (small : c1 < 64)
    (c2 : UInt8) : firstByte c1 c2 >>> 2 = c1 := by
  rw [firstByte, UInt8.shiftRight_or, (sixBits_of_lt small).shifted,
    (places c2).secondHigh, UInt8.or_zero]

theorem firstByte_low (c1 c2 : UInt8) :
    (firstByte c1 c2 &&& 0x03) <<< 4 = c2 &&& 0x30 := by
  rw [firstByte, or_and, (places c1).first, UInt8.zero_or,
    (places c2).secondHighRead]

theorem secondByte_high (c2 c3 : UInt8) :
    secondByte c2 c3 >>> 4 = c2 &&& 0x0F := by
  rw [secondByte, UInt8.shiftRight_or, (places c2).secondLowRead,
    (places c3).thirdHigh, UInt8.or_zero]

theorem secondByte_low (c2 c3 : UInt8) :
    (secondByte c2 c3 &&& 0x0F) <<< 2 = c3 &&& 0x3C := by
  rw [secondByte, or_and, (places c2).secondLow, UInt8.zero_or,
    (places c3).thirdHighRead]

theorem thirdByte_high
    (c3 : UInt8)
    {c4 : UInt8}
    (small : c4 < 64) : thirdByte c3 c4 >>> 6 = c3 &&& 0x03 := by
  rw [thirdByte, UInt8.shiftRight_or, (places c3).thirdLowRead,
    (sixBits_of_lt small).top, UInt8.or_zero]

theorem thirdByte_low
    (c3 : UInt8)
    {c4 : UInt8}
    (small : c4 < 64) : thirdByte c3 c4 &&& 0x3F = c4 := by
  rw [thirdByte, or_and, (places c3).thirdLow, UInt8.zero_or,
    (sixBits_of_lt small).last]

theorem usedBits_add (count : Nat) :
    usedBits (count + 3) = usedBits count := by
  rw [usedBits, usedBits, Nat.add_mod_right]

theorem sextetsFor_pos
    {count : Nat}
    (positive : 0 < count) : 0 < sextetsFor count := by
  rcases count with _ | _ | _ | left
  · exact positive
  · decide
  · decide
  · simp [sextetsFor]

theorem length_decodedBytes (count : Nat) (characters : Bytes) :
    (decodedBytes count characters).length = count := by
  induction count, characters using decodedBytes.induct with
  | case1 => rfl
  | case2 => rfl
  | case3 => rfl
  | case4 left characters inductionHypothesis =>
      simp only [decodedBytes, List.length_cons, inductionHypothesis]

/-- In front of the last group nothing is cleared. -/
theorem lastCleared_group
    {rest : Bytes}
    (nonempty : rest ≠ [])
    {a b c d : UInt8}
    {left : Nat} :
    lastCleared (left + 3) (a :: b :: c :: d :: rest) =
      a :: b :: c :: d :: lastCleared left rest := by
  cases rest with
  | nil => exact absurd rfl nonempty
  | cons next others =>
      rw [lastCleared, usedBits_add]
      rfl

/-- Characters that are decoded are encoded again, up to the unused bits of
the last one. -/
theorem bfEncode_decodedBytes
    {count : Nat}
    (positive : 0 < count)
    {characters : Bytes}
    (inside : ∀ character ∈ characters, character ∈ alphabet)
    (length : characters.length = sextetsFor count) :
    bfEncode (decodedBytes count characters) =
      lastCleared count characters := by
  induction count, characters using decodedBytes.induct with
  | case1 characters => exact absurd positive (by simp)
  | case2 characters =>
      obtain ⟨a, b, rfl⟩ := List.length_eq_two.mp length
      have insideA := inside a (by simp)
      change [itoa64 (firstByte (sextet a) (sextet b) >>> 2),
          itoa64 ((firstByte (sextet a) (sextet b) &&& 0x03) <<< 4)] =
        [a, itoa64 (sextet b &&& 0x30)]
      rw [firstByte_high (sextet_lt insideA), firstByte_low,
        itoa64_sextet insideA]
  | case3 characters =>
      obtain ⟨a, b, c, rfl⟩ := List.length_eq_three.mp length
      have insideA := inside a (by simp)
      have insideB := inside b (by simp)
      change [itoa64 (firstByte (sextet a) (sextet b) >>> 2),
          itoa64 ((firstByte (sextet a) (sextet b) &&& 0x03) <<< 4 |||
            secondByte (sextet b) (sextet c) >>> 4),
          itoa64 ((secondByte (sextet b) (sextet c) &&& 0x0F) <<< 2)] =
        [a, b, itoa64 (sextet c &&& 0x3C)]
      rw [firstByte_high (sextet_lt insideA), firstByte_low, secondByte_high,
        secondByte_low, (sixBits_of_lt (sextet_lt insideB)).second,
        itoa64_sextet insideA, itoa64_sextet insideB]
  | case4 left characters inductionHypothesis =>
      obtain ⟨a, b, c, d, rest, rfl⟩ : ∃ a b c d rest,
          characters = a :: b :: c :: d :: rest := by
        rcases characters with _ | ⟨a, _ | ⟨b, _ | ⟨c, _ | ⟨d, rest⟩⟩⟩⟩
        all_goals simp [sextetsFor] at length
        exact ⟨a, b, c, d, rest, rfl⟩
      have insideA := inside a (by simp)
      have insideB := inside b (by simp)
      have insideC := inside c (by simp)
      have insideD := inside d (by simp)
      change itoa64 (firstByte (sextet a) (sextet b) >>> 2) ::
          itoa64 ((firstByte (sextet a) (sextet b) &&& 0x03) <<< 4 |||
            secondByte (sextet b) (sextet c) >>> 4) ::
          itoa64 ((secondByte (sextet b) (sextet c) &&& 0x0F) <<< 2 |||
            thirdByte (sextet c) (sextet d) >>> 6) ::
          itoa64 (thirdByte (sextet c) (sextet d) &&& 0x3F) ::
          bfEncode (decodedBytes left rest) =
        lastCleared (left + 3) (a :: b :: c :: d :: rest)
      rw [firstByte_high (sextet_lt insideA), firstByte_low, secondByte_high,
        secondByte_low, thirdByte_high _ (sextet_lt insideD),
        thirdByte_low _ (sextet_lt insideD),
        (sixBits_of_lt (sextet_lt insideB)).second,
        (sixBits_of_lt (sextet_lt insideC)).third, itoa64_sextet insideA,
        itoa64_sextet insideB, itoa64_sextet insideC, itoa64_sextet insideD]
      simp only [sextetsFor, List.length_cons, Nat.add_right_cancel_iff] at length
      rcases Nat.eq_zero_or_pos left with rfl | positiveLeft
      · obtain rfl := List.eq_nil_of_length_eq_zero length
        change [a, b, c, d] = [a, b, c, itoa64 (sextet d &&& 0x3F)]
        rw [(sixBits_of_lt (sextet_lt insideD)).last, itoa64_sextet insideD]
      · have nonempty : rest ≠ [] := by
          rintro rfl
          exact absurd length (sextetsFor_pos positiveLeft).ne
        have encoded : bfEncode (decodedBytes left rest) =
            lastCleared left rest :=
          inductionHypothesis positiveLeft
            (fun character shown => inside character (List.mem_of_mem_drop shown))
            length
        rw [encoded, lastCleared_group nonempty]

/-! ## Round trips -/

/-- `BF_decode` of characters of the alphabet. -/
theorem bfDecode_of_mem
    {count : Nat}
    {characters : Bytes}
    (inside : ∀ character ∈ characters, character ∈ alphabet)
    (length : characters.length = sextetsFor count) :
    bfDecode characters count 0 =
      .ok (some (decodedBytes count characters)) := by
  have decodes := bfDecode_decodes characters count 0 (Nat.zero_le _)
  have noStop : firstStop (sextetsFor count) characters = none :=
    firstStop_of_mem length.ge fun character shown =>
      inside character (List.mem_of_mem_take shown)
  rw [List.drop_zero, noStop] at decodes
  exact decodes

/-- Decoding is inverse to encoding, and encoding to decoding up to the unused
bits of the last character. -/
theorem bfDecode_bfEncode :
    (∀ bytes : Bytes, bytes ≠ [] →
      bfDecode (bfEncode bytes) bytes.length 0 = .ok (some bytes)) ∧
    ∀ (count : Nat) (characters : Bytes), 0 < count →
      (∀ character ∈ characters, character ∈ alphabet) →
      characters.length = (bfEncode (List.replicate count 0)).length →
      ∃ bytes, bfDecode characters count 0 = .ok (some bytes) ∧
        bytes.length = count ∧
        bfEncode bytes = lastCleared count characters := by
  refine ⟨fun bytes _ => ?_, fun count characters positive inside length => ?_⟩
  · rw [bfDecode_of_mem (mem_bfEncode bytes) (length_bfEncode bytes),
      decodedBytes_bfEncode]
  · rw [length_bfEncode, List.length_replicate] at length
    exact ⟨_, bfDecode_of_mem inside length, length_decodedBytes ..,
      bfEncode_decodedBytes positive inside length⟩

/-- A byte, and two characters with unused bits. -/
theorem bfDecode_bfEncode_letter :
    bfDecode (bfEncode (lit "a")) 1 0 = .ok (some (lit "a")) ∧
      ∃ bytes, bfDecode (lit "WZ") 1 0 = .ok (some bytes) ∧
        bytes.length = 1 ∧ bfEncode bytes = lastCleared 1 (lit "WZ") :=
  ⟨bfDecode_bfEncode.1 (lit "a") (by decide +kernel),
    bfDecode_bfEncode.2 1 (lit "WZ") (by decide) (by decide +kernel)
      (by decide +kernel)⟩

end Security
end Lotospp
