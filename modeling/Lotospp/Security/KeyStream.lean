import Lotospp.Security.Eksblowfish

/-!
# The words of a key

The words that `BF_set_key` makes of a password, as functions of the 72
characters that it reads, and what becomes of the two ways to read them.
-/

namespace Lotospp
namespace Security

open Text Common

/-! ## Characters in a word -/

/-- A word with a character shifted in. -/
def push (word : UInt32) (character : UInt8) : UInt32 :=
  (word <<< 8) ||| character.toUInt32

/-- A word with a character shifted in that is extended by its sign. -/
def pushSigned (word : UInt32) (character : UInt8) : UInt32 :=
  (word <<< 8) ||| signExtended character

/-- The correct word of these characters. -/
def wordOf (characters : Bytes) : UInt32 :=
  characters.foldl push 0

/-- Their word with the mistake. -/
def buggyOf (characters : Bytes) : UInt32 :=
  characters.foldl pushSigned 0

/-- The sign of a character behind the first one is extended. -/
def signExtends (characters : Bytes) : Bool :=
  characters.tail.any fun character => 128 ≤ character

theorem toNat_push (word : UInt32) (character : UInt8) :
    (push word character).toNat =
      (word.toNat * 256 + character.toNat) % 2 ^ 32 := by
  have small := character.toNat_lt
  have place : word.toNat * 256 % 2 ^ 32 = (word.toNat % 2 ^ 24) <<< 8 := by
    rw [Nat.shiftLeft_eq]
    omega
  rw [push, UInt32.toNat_or, UInt32.toNat_shiftLeft, UInt8.toNat_toUInt32]
  change word.toNat <<< 8 % 2 ^ 32 ||| character.toNat = _
  rw [Nat.shiftLeft_eq, place, ← Nat.shiftLeft_add_eq_or_of_lt small,
    Nat.shiftLeft_eq]
  omega

theorem signExtended_eq (character : UInt8) :
    signExtended character =
      if character < 128 then character.toUInt32
      else 0xFFFFFF00 ||| character.toUInt32 :=
  forall_byte
    (fun character => signExtended character =
      if character < 128 then character.toUInt32
      else 0xFFFFFF00 ||| character.toUInt32)
    (by decide +kernel) character

theorem shiftLeft_or_ones (word : UInt32) :
    word <<< 8 ||| 0xFFFFFF00 = 0xFFFFFF00 := by
  rw [← UInt32.toNat_inj, UInt32.toNat_or, UInt32.toNat_shiftLeft]
  change word.toNat <<< 8 % 2 ^ 32 ||| 0xFFFFFF00 = 0xFFFFFF00
  have place : word.toNat <<< 8 % 2 ^ 32 = (word.toNat % 2 ^ 24) <<< 8 := by
    rw [Nat.shiftLeft_eq, Nat.shiftLeft_eq]
    omega
  have ones : (0xFFFFFF00 : Nat) = (2 ^ 24 - 1) <<< 8 := rfl
  rw [place, ones, ← Nat.shiftLeft_or_distrib]
  congr 1
  apply Nat.eq_of_testBit_eq
  intro bit
  rw [Nat.testBit_or, Nat.testBit_two_pow_sub_one, Nat.testBit_mod_two_pow]
  cases decide (bit < 24) <;> simp

/-- A sign that is extended sets all that has been there before. -/
theorem pushSigned_eq (word : UInt32) (character : UInt8) :
    pushSigned word character =
      push (if character < 128 then word else 0xFFFFFF) character := by
  rw [pushSigned, signExtended_eq, push]
  split
  · rfl
  · rw [← UInt32.or_assoc, shiftLeft_or_ones]
    rfl

/-- The flag that a sign has been extended. -/
def signFlag (extended : Bool) : UInt32 :=
  if extended then 0x80 else 0

theorem signFlag_or (first second : Bool) :
    signFlag first ||| signFlag second = signFlag (first || second) := by
  revert first second
  decide

theorem word_or_and (left right mask : UInt32) :
    (left ||| right) &&& mask = (left &&& mask) ||| (right &&& mask) := by
  apply UInt32.eq_of_toBitVec_eq
  ext position
  simp [Bool.and_or_distrib_right]

theorem pushSigned_and (word : UInt32) (character : UInt8) :
    pushSigned word character &&& 0x80 = signFlag (128 ≤ character) := by
  have last : (signExtended character) &&& 0x80 = signFlag (128 ≤ character) :=
    forall_byte
      (fun character => (signExtended character) &&& 0x80 =
        signFlag (128 ≤ character))
      (by decide +kernel) character
  have shifted : (word <<< 8) &&& 0x80 = 0 := by
    rw [← UInt32.toNat_inj, UInt32.toNat_and, UInt32.toNat_shiftLeft]
    change word.toNat <<< 8 % 2 ^ 32 &&& 2 ^ 7 = 0
    apply Nat.eq_of_testBit_eq
    intro bit
    rw [Nat.testBit_and, Nat.testBit_two_pow, Nat.testBit_mod_two_pow,
      Nat.testBit_shiftLeft, Nat.zero_testBit]
    by_cases seventh : 7 = bit
    · subst seventh
      rfl
    · rw [decide_eq_false seventh, Bool.and_false]
  rw [pushSigned, word_or_and, shifted, last, UInt32.zero_or]

/-! ## The two words of four characters -/

section FourCharacters

variable {c0 c1 c2 c3 : UInt8}

theorem toNat_wordOf (c0 c1 c2 c3 : UInt8) :
    (wordOf [c0, c1, c2, c3]).toNat =
      ((c0.toNat * 256 + c1.toNat) * 256 + c2.toNat) * 256 + c3.toNat := by
  have small0 := c0.toNat_lt
  have small1 := c1.toNat_lt
  have small2 := c2.toNat_lt
  have small3 := c3.toNat_lt
  simp only [wordOf, List.foldl_cons, List.foldl_nil, toNat_push]
  change ((((0 * 256 + c0.toNat) % 2 ^ 32 * 256 + c1.toNat) % 2 ^ 32 * 256 +
    c2.toNat) % 2 ^ 32 * 256 + c3.toNat) % 2 ^ 32 = _
  omega

theorem wordOf_inj {d0 d1 d2 d3 : UInt8} :
    wordOf [c0, c1, c2, c3] = wordOf [d0, d1, d2, d3] ↔
      [c0, c1, c2, c3] = [d0, d1, d2, d3] := by
  have small1 := c1.toNat_lt
  have small2 := c2.toNat_lt
  have small3 := c3.toNat_lt
  have small1' := d1.toNat_lt
  have small2' := d2.toNat_lt
  have small3' := d3.toNat_lt
  simp only [← UInt32.toNat_inj, toNat_wordOf, List.cons.injEq, and_true,
    ← UInt8.toNat_inj]
  omega

/-- Of a word that four characters are shifted into nothing is left. -/
theorem push_four (word : UInt32) (c0 c1 c2 c3 : UInt8) :
    push (push (push (push word c0) c1) c2) c3 = wordOf [c0, c1, c2, c3] := by
  have small0 := c0.toNat_lt
  rw [← UInt32.toNat_inj, toNat_wordOf]
  have small1 := c1.toNat_lt
  have small2 := c2.toNat_lt
  have small3 := c3.toNat_lt
  simp only [toNat_push]
  omega

/-- The word with the mistake has ones in front of the last character whose
sign is extended. -/
theorem buggyOf_eq (c0 c1 c2 c3 : UInt8) :
    buggyOf [c0, c1, c2, c3] =
      if c3 < 128 then
        if c2 < 128 then
          if c1 < 128 then wordOf [c0, c1, c2, c3]
          else wordOf [255, c1, c2, c3]
        else wordOf [255, 255, c2, c3]
      else wordOf [255, 255, 255, c3] := by
  simp only [buggyOf, List.foldl_cons, List.foldl_nil, pushSigned_eq]
  split
  · split
    · split
      · exact push_four _ c0 c1 c2 c3
      · exact push_four 0xFFFF 255 c1 c2 c3
    · exact push_four 0xFF 255 255 c2 c3
  · rfl

end FourCharacters

/-! ## The characters of a key -/

/-- The characters of the key with its NUL, over and over. -/
def keyStream (key : Bytes) (place : Nat) : UInt8 :=
  keyAt key (place % (key.length + 1))

/-- The four characters of a word. -/
def wordCharacters (key : Bytes) (i : Nat) : Bytes :=
  [keyStream key (4 * i), keyStream key (4 * i + 1), keyStream key (4 * i + 2),
    keyStream key (4 * i + 3)]

section Reading

variable {key : Bytes} (noNul : 0 ∉ key)
include noNul

theorem keyAt_eq_zero
    {ptr : Nat}
    (inside : ptr ≤ key.length) : keyAt key ptr = 0 ↔ ptr = key.length := by
  rw [keyAt, List.getD_eq_getElem?_getD]
  rcases Nat.lt_or_eq_of_le inside with before | rfl
  · rw [List.getElem?_eq_getElem before, Option.getD_some]
    constructor
    · intro zero
      exact absurd (zero ▸ List.getElem_mem before) noNul
    · omega
  · simp

theorem nextPtr_mod (place : Nat) :
    nextPtr key (place % (key.length + 1)) =
      (place + 1) % (key.length + 1) := by
  have inside : place % (key.length + 1) ≤ key.length :=
    Nat.le_of_lt_succ (Nat.mod_lt _ key.length.succ_pos)
  rw [nextPtr, ← Nat.mod_add_mod]
  split
  · next zero =>
    rw [(keyAt_eq_zero noNul inside).mp zero, Nat.mod_self]
  · next character =>
    have before : place % (key.length + 1) ≠ key.length := fun last =>
      character ((keyAt_eq_zero noNul inside).mpr last)
    exact (Nat.mod_eq_of_lt (by omega)).symm

theorem readCharacter_mod
    (place j : Nat)
    (correct buggy : UInt32)
    (sign : Bool) :
    readCharacter key
        { ptr := place % (key.length + 1), correct, buggy, sign := signFlag sign }
        j =
      { ptr := (place + 1) % (key.length + 1)
        correct := push correct (keyStream key place)
        buggy := pushSigned buggy (keyStream key place)
        sign := signFlag (sign || (j ≠ 0 && 128 ≤ keyStream key place)) } := by
  have signs :
      (if j = 0 then signFlag sign
        else signFlag sign |||
          (pushSigned buggy (keyStream key place) &&& 0x80)) =
      signFlag (sign || (j ≠ 0 && 128 ≤ keyStream key place)) := by
    split
    · next first => simp [first]
    · next behind => rw [pushSigned_and, signFlag_or]; simp [behind]
  rw [readCharacter, nextPtr_mod noNul, ← signs]
  rfl

/-- What the loop over the characters of a word reads. -/
theorem readWord_mod (i : Nat) (sign : Bool) :
    [0, 1, 2, 3].foldl (readCharacter key)
        { ptr := 4 * i % (key.length + 1), sign := signFlag sign } =
      { ptr := 4 * (i + 1) % (key.length + 1)
        correct := wordOf (wordCharacters key i)
        buggy := buggyOf (wordCharacters key i)
        sign := signFlag (sign || signExtends (wordCharacters key i)) } := by
  simp only [List.foldl_cons, List.foldl_nil, readCharacter_mod noNul]
  congr 2
  simp [signExtends, wordCharacters, Bool.or_assoc]

end Reading

/-! ## The loop over the words -/

/-- The word `i` of a key. -/
def keyWord (key : Bytes) (bug i : Nat) : UInt32 :=
  if bug = 0 then wordOf (wordCharacters key i)
  else buggyOf (wordCharacters key i)

/-- What the loop has done with the first words. -/
structure SetsWords
    (key : Bytes)
    (bug count : Nat)
    (setter : KeySetter) : Prop where
  /-- It goes on with the next character. -/
  ptr : setter.ptr = 4 * count % (key.length + 1)
  /-- It knows whether a sign has been extended. -/
  sign : setter.sign = signFlag
    ((List.range count).any fun i => signExtends (wordCharacters key i))
  /-- It knows whether the two ways to read a word agree so far. -/
  diff : setter.diff = 0 ↔
    ∀ i < count, wordOf (wordCharacters key i) = buggyOf (wordCharacters key i)
  /-- The words are in the expanded key. -/
  expanded : ∀ i : Fin 18, i.val < count →
    setter.expanded[i] = keyWord key bug i
  /-- They are mixed into the initial subkeys. -/
  initial : ∀ i : Fin 18, i.val < count →
    setter.initial[i] = initialSubkeys[i] ^^^ keyWord key bug i

theorem or_xor_eq_zero (diff left right : UInt32) :
    diff ||| (left ^^^ right) = 0 ↔ diff = 0 ∧ left = right := by
  rw [UInt32.or_eq_zero_iff, UInt32.xor_eq_zero_iff]

/-- One more word. -/
theorem SetsWords.setWord
    {key : Bytes}
    {bug : Nat}
    {setter : KeySetter}
    (noNul : 0 ∉ key)
    (i : Fin 18)
    (sets : SetsWords key bug i setter) :
    SetsWords key bug (i + 1) (setWord key bug setter i) := by
  have reads := readWord_mod noNul i.val
    ((List.range i).any fun i => signExtends (wordCharacters key i))
  rw [← sets.ptr, ← sets.sign] at reads
  have word : (Security.setWord key bug setter i) =
      { ptr := 4 * (i.val + 1) % (key.length + 1)
        sign := signFlag
          (((List.range i).any fun i => signExtends (wordCharacters key i)) ||
            signExtends (wordCharacters key i))
        diff := setter.diff |||
          (wordOf (wordCharacters key i) ^^^ buggyOf (wordCharacters key i))
        expanded := setter.expanded.set i (keyWord key bug i)
        initial := setter.initial.set i
          (initialSubkeys[i] ^^^ keyWord key bug i) } := by
    simp only [Security.setWord, reads, keyWord]
  rw [word]
  constructor
  · rfl
  · rw [List.range_succ, List.any_append]
    simp
  · rw [or_xor_eq_zero, sets.diff, Nat.forall_lt_succ_right]
  · intro other small
    rcases Nat.lt_succ_iff_lt_or_eq.mp small with before | same
    · have apart : i.val ≠ other.val := by omega
      simpa [apart] using sets.expanded other before
    · obtain rfl : other = i := Fin.ext same
      simp
  · intro other small
    rcases Nat.lt_succ_iff_lt_or_eq.mp small with before | same
    · have apart : i.val ≠ other.val := by omega
      simpa [apart] using sets.initial other before
    · obtain rfl : other = i := Fin.ext same
      simp

/-- All the words from one on. -/
theorem SetsWords.foldl
    {key : Bytes}
    {bug : Nat}
    (noNul : 0 ∉ key)
    (words : List (Fin 18))
    {count : Nat}
    {setter : KeySetter}
    (order : words.map Fin.val = List.range' count words.length)
    (sets : SetsWords key bug count setter) :
    SetsWords key bug (count + words.length)
      (words.foldl (Security.setWord key bug) setter) := by
  induction words generalizing count setter with
  | nil => exact sets
  | cons i words inductionHypothesis =>
      rw [List.map_cons, List.length_cons, List.range'_succ,
        List.cons.injEq] at order
      obtain ⟨rfl, order⟩ := order
      have all := inductionHypothesis order (sets.setWord noNul i)
      rwa [Nat.add_right_comm, Nat.add_assoc] at all

theorem setsWords
    {key : Bytes}
    (noNul : 0 ∉ key)
    (bug : Nat) :
    SetsWords key bug 18
      ((List.finRange 18).foldl (setWord key bug) {}) := by
  have start : SetsWords key bug 0 {} := by
    constructor
    · simp
    · rfl
    · simp
    · intro i small
      exact absurd small (Nat.not_lt_zero i)
    · intro i small
      exact absurd small (Nat.not_lt_zero i)
  exact start.foldl noNul (List.finRange 18) (by decide)

end Security
end Lotospp
