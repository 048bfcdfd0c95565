import Lotospp.Security.KeyStream

/-!
# Passwords with the same key

`BF_set_key` reads 72 characters, and two passwords have the same key when
these agree.  With the sign extension of the letter `x` many passwords have a
key that is the correct one of another password; the letter `a` asks for a
deviation that keeps these apart.
-/

namespace Lotospp
namespace Security

open Text Common

/-! ## The deviation -/

/-- No bit is left only if there has been none. -/
theorem fold_eq_zero (diff : UInt32) :
    (diff ||| (diff >>> 16)) &&& 0xffff = 0 ↔ diff = 0 := by
  have small := diff.toNat_lt
  rw [← UInt32.toNat_inj, ← UInt32.toNat_inj, UInt32.toNat_and,
    UInt32.toNat_or, UInt32.toNat_shiftRight]
  change (diff.toNat ||| diff.toNat >>> 16) &&& 2 ^ 16 - 1 = 0 ↔ diff.toNat = 0
  rw [Nat.and_two_pow_sub_one_eq_mod, Nat.or_mod_two_pow, Nat.or_eq_zero_iff,
    Nat.shiftRight_eq_div_pow]
  omega

/-- Bit 16 of a word. -/
theorem and_bit (word : UInt32) :
    0x10000 &&& word = if word.toNat / 2 ^ 16 % 2 = 1 then 0x10000 else 0 := by
  have place : word.toNat.testBit 16 = decide (word.toNat / 2 ^ 16 % 2 = 1) :=
    Nat.testBit_eq_decide_div_mod_eq
  have bits : 2 ^ 16 &&& word.toNat =
      if word.toNat / 2 ^ 16 % 2 = 1 then 2 ^ 16 else 0 := by
    apply Nat.eq_of_testBit_eq
    intro bit
    rw [Nat.testBit_and, Nat.testBit_two_pow]
    by_cases same : 16 = bit
    · subst same
      rw [place]
      split
      · next set =>
        simp only [set, decide_true, Bool.and_self, Nat.testBit_two_pow_self]
      · next clear =>
        simp only [clear, decide_false, Bool.and_false, Nat.zero_testBit]
    · rw [decide_eq_false same, Bool.false_and]
      split
      · rw [Nat.testBit_two_pow, decide_eq_false same]
      · rw [Nat.zero_testBit]
  rw [← UInt32.toNat_inj, UInt32.toNat_and]
  refine bits.trans ?_
  split <;> rfl

/-- What is flipped in the first subkey: bit 16, if the two ways to read the
key agree although a sign has been extended, and only if it is asked for. -/
theorem settleSign_eq (diff safety : UInt32) (extended : Bool) :
    settleSign diff (signFlag extended) safety =
      if diff = 0 ∧ extended then 0x10000 &&& safety else 0 := by
  have folded := fold_eq_zero diff
  have bound : ((diff ||| (diff >>> 16)) &&& 0xffff).toNat < 2 ^ 16 := by
    rw [UInt32.toNat_and]
    exact Nat.and_lt_two_pow _ (by decide)
  rw [settleSign]
  generalize (diff ||| (diff >>> 16)) &&& 0xffff = rest at folded bound
  cases extended with
  | false => simp [signFlag]
  | true =>
      have shifted : signFlag true <<< 9 = 0x10000 := rfl
      simp only [shifted, and_true]
      rw [← UInt32.and_assoc, and_bit]
      have sum : (rest + 0xffff).toNat = rest.toNat + 0xffff := by
        rw [UInt32.toNat_add]
        exact Nat.mod_eq_of_lt (by change rest.toNat + 0xffff < 2 ^ 32; omega)
      have complement : (~~~(rest + 0xffff)).toNat =
          2 ^ 32 - 1 - (rest.toNat + 0xffff) := by
        rw [UInt32.toNat_not, sum]
        rfl
      rw [complement]
      have zero : rest = 0 ↔ rest.toNat = 0 := by
        rw [← UInt32.toNat_inj]
        rfl
      by_cases same : diff = 0
      · have empty := zero.mp (folded.mpr same)
        rw [if_pos same, if_pos (by omega)]
      · have some_ : rest.toNat ≠ 0 := fun empty =>
          same (folded.mp (zero.mpr empty))
        rw [if_neg same, if_neg (by omega), UInt32.zero_and]

/-! ## The two keys -/

/-- The sign of some character is extended over another one. -/
def ExtendsSign (key : Bytes) : Prop :=
  ∃ i < 18, signExtends (wordCharacters key i)

/-- The two ways to read the key agree although a sign has been extended. -/
def Deviates (key : Bytes) : Prop :=
  (∀ i < 18, wordOf (wordCharacters key i) = buggyOf (wordCharacters key i)) ∧
    ExtendsSign key

instance (key : Bytes) : Decidable (ExtendsSign key) :=
  inferInstanceAs (Decidable (∃ i < 18, signExtends (wordCharacters key i)))

instance (key : Bytes) : Decidable (Deviates key) :=
  inferInstanceAs (Decidable (_ ∧ _))

/-- What is flipped in the first subkey. -/
def deviation (key : Bytes) (flags : Nat) : UInt32 :=
  if Deviates key then (0x10000 : UInt32) &&& ((UInt32.ofNat flags &&& 2) <<< 15)
  else 0

/-- The words of the key. -/
def expandedKey (key : Bytes) (flags : Nat) : BFKey :=
  Vector.ofFn fun i : Fin 18 => keyWord key (flags &&& 1) i

/-- The words of the key in the initial subkeys, with the deviation. -/
def initialKey (key : Bytes) (flags : Nat) : BFKey :=
  Vector.ofFn fun i : Fin 18 =>
    initialSubkeys.get i ^^^ keyWord key (flags &&& 1) i ^^^
      (if i.val = 0 then deviation key flags else 0)

/-- What `BF_set_key` does. -/
theorem bfSetKey_eq
    {key : Bytes}
    (noNul : 0 ∉ key)
    (flags : Nat) :
    bfSetKey key flags = (expandedKey key flags, initialKey key flags) := by
  have sets := setsWords noNul (flags &&& 1)
  rw [bfSetKey]
  generalize (List.finRange 18).foldl (setWord key (flags &&& 1)) {} = setter
    at sets
  have flipped : settleSign setter.diff setter.sign
      ((UInt32.ofNat flags &&& 2) <<< 15) = deviation key flags := by
    rw [sets.sign, settleSign_eq, deviation]
    congr 1
    rw [sets.diff, Deviates, ExtendsSign]
    simp
  rw [flipped]
  refine Prod.ext ?_ ?_
  · apply Vector.ext
    intro i inside
    have word := sets.expanded ⟨i, inside⟩ inside
    simpa [expandedKey] using word
  · apply Vector.ext
    intro i inside
    have word := sets.initial ⟨i, inside⟩ inside
    rcases Nat.eq_zero_or_pos i with rfl | behind
    · simp only [initialKey, Vector.getElem_ofFn, Vector.getElem_set_self,
        if_true]
      exact congrArg (· ^^^ deviation key flags) word
    · simp only [initialKey, Vector.getElem_ofFn, if_neg behind.ne',
        UInt32.xor_zero]
      rw [Vector.getElem_set_ne _ _ (by omega)]
      exact word

/-! ## Passwords that are not told apart -/

theorem keyStream_of_lt
    {key : Bytes}
    {place : Nat}
    (inside : place < key.length + 1) :
    keyStream key place = keyAt key place := by
  rw [keyStream, Nat.mod_eq_of_lt inside]

theorem keyAt_of_lt
    {key : Bytes}
    {place : Nat}
    (inside : place < key.length) : keyAt key place = key[place] := by
  rw [keyAt, List.getD_eq_getElem?_getD, List.getElem?_eq_getElem inside,
    Option.getD_some]

/-- Where two keys agree in what is read of them, one ends with the other. -/
theorem length_le_of_keyStream
    {key other : Bytes}
    {count : Nat}
    (noNul : 0 ∉ other)
    (same : ∀ place < count, keyStream key place = keyStream other place)
    (short : key.length < count) :
    other.length ≤ key.length := by
  by_contra longer
  have ends := same key.length short
  have nul : keyAt key key.length = 0 := by simp [keyAt]
  rw [keyStream_of_lt key.length.lt_succ_self, keyStream_of_lt (by omega),
    nul] at ends
  have last := (keyAt_eq_zero noNul (by omega)).mp ends.symm
  omega

/-- What is read of two keys agrees exactly when the keys do in so many
characters. -/
theorem keyStream_eq_iff
    {key other : Bytes}
    (noNul : 0 ∉ key)
    (noNul' : 0 ∉ other)
    (count : Nat) :
    (∀ place < count, keyStream key place = keyStream other place) ↔
      key.take count = other.take count := by
  constructor
  · intro same
    have lengths : (key.take count).length = (other.take count).length := by
      have ends := length_le_of_keyStream noNul' same
      have ends' := length_le_of_keyStream noNul
        (fun place small => (same place small).symm)
      rw [List.length_take, List.length_take]
      omega
    refine List.ext_getElem lengths fun place inside inside' => ?_
    rw [List.length_take] at inside inside'
    have agree := same place (by omega)
    rw [keyStream_of_lt (by omega), keyStream_of_lt (by omega),
      keyAt_of_lt (by omega), keyAt_of_lt (by omega)] at agree
    rw [List.getElem_take, List.getElem_take]
    exact agree
  · intro same place small
    by_cases long : count ≤ key.length
    · have lengths := congrArg List.length same
      rw [List.length_take, List.length_take] at lengths
      rw [keyStream_of_lt (by omega), keyStream_of_lt (by omega), keyAt, keyAt]
      have at_ := congrArg (fun text => text.getD place 0) same
      simpa [List.getElem?_take_of_lt small] using at_
    · have whole : key.take count = key := List.take_of_length_le (by omega)
      have lengths := congrArg List.length same
      rw [whole, List.length_take] at lengths
      rw [whole, List.take_of_length_le (by omega)] at same
      rw [same]

/-! ## Words that are not told apart -/

theorem wordCharacters_eq_iff {key other : Bytes} :
    (∀ i < 18, wordCharacters key i = wordCharacters other i) ↔
      ∀ place < 72, keyStream key place = keyStream other place := by
  constructor
  · intro same place small
    have word := same (place / 4) (by omega)
    simp only [wordCharacters, List.cons.injEq, and_true] at word
    obtain ⟨first, second, third, fourth⟩ := word
    have parts : place = 4 * (place / 4) ∨ place = 4 * (place / 4) + 1 ∨
        place = 4 * (place / 4) + 2 ∨ place = 4 * (place / 4) + 3 := by
      omega
    rcases parts with here | here | here | here <;> rw [here] <;> assumption
  · intro same i small
    rw [wordCharacters, wordCharacters, same _ (by omega), same _ (by omega),
      same _ (by omega), same _ (by omega)]

theorem expandedKey_eq_iff
    {key other : Bytes}
    {flags flags' : Nat} :
    expandedKey key flags = expandedKey other flags' ↔
      ∀ i < 18, keyWord key (flags &&& 1) i = keyWord other (flags' &&& 1) i := by
  rw [Vector.ext_iff]
  simp [expandedKey]

/-- Correct words are the same when their characters are. -/
theorem wordOf_wordCharacters {key other : Bytes} {i : Nat} :
    wordOf (wordCharacters key i) = wordOf (wordCharacters other i) ↔
      wordCharacters key i = wordCharacters other i :=
  wordOf_inj

/-- A correct word that other characters have with the mistake: the mistake
makes no difference to it, and it extends a sign unless the characters are the
same. -/
theorem wordOf_eq_buggyOf
    {c0 c1 c2 c3 d0 d1 d2 d3 : UInt8}
    (same : wordOf [c0, c1, c2, c3] = buggyOf [d0, d1, d2, d3]) :
    buggyOf [c0, c1, c2, c3] = wordOf [c0, c1, c2, c3] ∧
      (signExtends [c0, c1, c2, c3] ∨
        [c0, c1, c2, c3] = [d0, d1, d2, d3]) := by
  rw [buggyOf_eq] at same
  split at same
  · next low3 =>
    split at same
    · next low2 =>
      split at same
      · next low1 =>
        obtain ⟨rfl, rfl, rfl, rfl⟩ := by simpa using wordOf_inj.mp same
        simp [buggyOf_eq, low1, low2, low3]
      · next high =>
        obtain ⟨rfl, rfl, rfl, rfl⟩ := by simpa using wordOf_inj.mp same
        simp [buggyOf_eq, signExtends, high, low2, low3, UInt8.not_lt.mp high]
    · next high =>
      obtain ⟨rfl, rfl, rfl, rfl⟩ := by simpa using wordOf_inj.mp same
      simp [buggyOf_eq, signExtends, high, low3, UInt8.not_lt.mp high]
  · next high =>
    obtain ⟨rfl, rfl, rfl, rfl⟩ := by simpa using wordOf_inj.mp same
    simp [buggyOf_eq, signExtends, high, UInt8.not_lt.mp high]

/-- Without an extended sign the mistake makes no difference. -/
theorem buggyOf_of_not_signExtends
    {c0 c1 c2 c3 : UInt8}
    (plain : ¬signExtends [c0, c1, c2, c3]) :
    buggyOf [c0, c1, c2, c3] = wordOf [c0, c1, c2, c3] := by
  have low : c1 < 128 ∧ c2 < 128 ∧ c3 < 128 := by
    simpa [signExtends] using plain
  simp only [buggyOf_eq, low, if_true]

/-! ## Two passwords with one key -/

theorem initialKey_eq
    {key other : Bytes}
    {flags flags' : Nat}
    (words : expandedKey key flags = expandedKey other flags') :
    initialKey key flags = initialKey other flags' ↔
      deviation key flags = deviation other flags' := by
  have word := expandedKey_eq_iff.mp words
  constructor
  · intro same
    have first := congrArg (fun initial : BFKey => initial[0]) same
    simp only [initialKey, Vector.getElem_ofFn, if_true, word 0 (by decide)]
      at first
    exact (UInt32.xor_right_inj _).mp first
  · intro same
    rw [initialKey, initialKey, same]
    congr 1
    funext i
    rw [word i i.isLt]

theorem bfSetKey_same
    {key other : Bytes}
    {flags flags' : Nat}
    (noNul : 0 ∉ key)
    (noNul' : 0 ∉ other) :
    bfSetKey key flags = bfSetKey other flags' ↔
      (∀ i < 18,
        keyWord key (flags &&& 1) i = keyWord other (flags' &&& 1) i) ∧
      deviation key flags = deviation other flags' := by
  rw [bfSetKey_eq noNul, bfSetKey_eq noNul', Prod.mk.injEq]
  constructor
  · rintro ⟨words, initial⟩
    exact ⟨expandedKey_eq_iff.mp words, (initialKey_eq words).mp initial⟩
  · rintro ⟨words, deviations⟩
    have expanded := expandedKey_eq_iff.mpr words
    exact ⟨expanded, (initialKey_eq expanded).mpr deviations⟩

theorem deviates_of_same
    {key other : Bytes}
    (same : ∀ i < 18, wordCharacters key i = wordCharacters other i)
    (deviates : Deviates key) : Deviates other := by
  obtain ⟨agree, i, small, extends_⟩ := deviates
  refine ⟨fun i small => ?_, i, small, same i small ▸ extends_⟩
  exact same i small ▸ agree i small

/-- Two passwords that agree in their first 72 characters have the same key,
with and without the mistake. -/
theorem bfSetKey_of_take
    {key other : Bytes}
    (noNul : 0 ∉ key)
    (noNul' : 0 ∉ other)
    (agree : key.take 72 = other.take 72)
    (flags : Nat) : bfSetKey key flags = bfSetKey other flags := by
  have same := wordCharacters_eq_iff.mpr
    ((keyStream_eq_iff noNul noNul' 72).mpr agree)
  rw [bfSetKey_same noNul noNul', deviation, deviation]
  constructor
  · intro i small
    rw [keyWord, keyWord, same i small]
  · refine if_congr ⟨deviates_of_same same, ?_⟩ rfl rfl
    exact deviates_of_same fun i small => (same i small).symm

/-- Without the mistake no other two passwords have the same expanded key. -/
theorem take_of_expandedKey
    {key other : Bytes}
    {flags : Nat}
    (noNul : 0 ∉ key)
    (noNul' : 0 ∉ other)
    (correct : flags &&& 1 = 0)
    (same : expandedKey key flags = expandedKey other flags) :
    key.take 72 = other.take 72 := by
  have words := expandedKey_eq_iff.mp same
  rw [correct] at words
  rw [← keyStream_eq_iff noNul noNul', ← wordCharacters_eq_iff]
  exact fun i small => wordOf_wordCharacters.mp (words i small)

/-- Without the mistake two passwords have the same keys, the expanded one
alone or both, only if they agree in their first 72 characters. -/
theorem bfSetKey_eq_iff
    {key other : Bytes}
    {flags : Nat}
    (noNul : 0 ∉ key)
    (noNul' : 0 ∉ other)
    (correct : flags &&& 1 = 0) :
    (bfSetKey key flags = bfSetKey other flags ↔
        key.take 72 = other.take 72) ∧
      ((bfSetKey key flags).1 = (bfSetKey other flags).1 ↔
        key.take 72 = other.take 72) := by
  have expanded : (bfSetKey key flags).1 = (bfSetKey other flags).1 →
      key.take 72 = other.take 72 := by
    intro same
    rw [bfSetKey_eq noNul, bfSetKey_eq noNul'] at same
    exact take_of_expandedKey noNul noNul' correct same
  have agrees : key.take 72 = other.take 72 →
      bfSetKey key flags = bfSetKey other flags :=
    fun agree => bfSetKey_of_take noNul noNul' agree flags
  exact ⟨⟨fun same => expanded (congrArg Prod.fst same), agrees⟩,
    ⟨expanded, fun agree => congrArg Prod.fst (agrees agree)⟩⟩

/-- Two passwords that differ behind the first 72 characters. -/
theorem bfSetKey_long :
    (bfSetKey (List.replicate 72 97 ++ [98]) 4 =
          bfSetKey (List.replicate 72 97 ++ [99]) 4 ↔
        (List.replicate 72 97 ++ [98] : Bytes).take 72 =
          (List.replicate 72 97 ++ [99] : Bytes).take 72) ∧
      ((bfSetKey (List.replicate 72 97 ++ [98]) 4).1 =
          (bfSetKey (List.replicate 72 97 ++ [99]) 4).1 ↔
        (List.replicate 72 97 ++ [98] : Bytes).take 72 =
          (List.replicate 72 97 ++ [99] : Bytes).take 72) :=
  bfSetKey_eq_iff (by decide) (by decide) rfl

theorem deviation_buggy (key : Bytes) : deviation key 1 = 0 := by
  rw [deviation]
  split <;> rfl

theorem deviation_safe (key : Bytes) :
    deviation key 2 = 0 ↔ ¬Deviates key := by
  rw [deviation]
  split
  · next deviates => exact iff_of_false (by decide) (not_not_intro deviates)
  · next plain => exact iff_of_true rfl plain

/-- A key of the letter `a` is one of the letter `x` only for passwords that
agree in their first 72 characters, and in which no sign is extended. -/
theorem bfSetKey_safe_iff
    {key other : Bytes}
    (noNul : 0 ∉ key)
    (noNul' : 0 ∉ other) :
    bfSetKey key 2 = bfSetKey other 1 ↔
      key.take 72 = other.take 72 ∧ ¬ExtendsSign key := by
  rw [bfSetKey_same noNul noNul', ← keyStream_eq_iff noNul noNul',
    ← wordCharacters_eq_iff, deviation_buggy, deviation_safe]
  change (∀ i < 18, wordOf (wordCharacters key i) =
    buggyOf (wordCharacters other i)) ∧ _ ↔ _
  constructor
  · rintro ⟨same, steady⟩
    have agree : ∀ i < 18,
        wordOf (wordCharacters key i) = buggyOf (wordCharacters key i) :=
      fun i small => (wordOf_eq_buggyOf (same i small)).1.symm
    have plain : ¬ExtendsSign key := fun extends_ => steady ⟨agree, extends_⟩
    refine ⟨fun i small => ?_, plain⟩
    exact (wordOf_eq_buggyOf (same i small)).2.resolve_left
      fun extends_ => plain ⟨i, small, extends_⟩
  · rintro ⟨same, plain⟩
    refine ⟨fun i small => ?_, fun deviates => plain deviates.2⟩
    rw [← same i small]
    exact (buggyOf_of_not_signExtends
      fun extends_ => plain ⟨i, small, extends_⟩).symm

/-- The password of the test vectors in which a sign is extended. -/
theorem bfSetKey_safe_pound :
    bfSetKey [0xff, 0xa3, 0x33, 0x34] 2 = bfSetKey [0xff, 0xa3, 0x33, 0x34] 1 ↔
      ([0xff, 0xa3, 0x33, 0x34] : Bytes).take 72 =
          ([0xff, 0xa3, 0x33, 0x34] : Bytes).take 72 ∧
        ¬ExtendsSign [0xff, 0xa3, 0x33, 0x34] :=
  bfSetKey_safe_iff (by decide) (by decide)

end Security
end Lotospp
