import Mathlib.Tactic.Ring

/-!
# Packed words

A table of words in one number, the first word in its lowest bits.  Words are
read and replaced by a few operations on large numbers, which the kernel does
by itself; so a long computation on tables can be checked by evaluating it.
-/

namespace Cipher

/-- The words in one number. -/
def packed (width : Nat) : (words : List Nat) → Nat
  | [] => 0
  | word :: words => word + 2 ^ width * packed width words

/-- The word at a place of a number. -/
def lane (width number place : Nat) : Nat :=
  Nat.mod (Nat.shiftRight number (Nat.mul width place)) (Nat.pow 2 width)

/-- Replace the word at a place of a number. -/
def setLane (width number place word : Nat) : Nat :=
  Nat.add
    (Nat.sub number
      (Nat.shiftLeft (lane width number place) (Nat.mul width place)))
    (Nat.shiftLeft word (Nat.mul width place))

/-- Evaluate a number before it is used. -/
def demand {α : Type} (number : Nat) (next : Nat → α) : α :=
  match number with
  | 0 => next 0
  | before + 1 => next (Nat.succ before)

@[simp] theorem demand_eq {α : Type} (number : Nat) (next : Nat → α) :
    demand number next = next number := by
  cases number <;> rfl

/-! ## Reading -/

theorem lane_eq (width number place : Nat) :
    lane width number place = number / 2 ^ (width * place) % 2 ^ width := by
  rw [← Nat.shiftRight_eq_div_pow]
  rfl

theorem packed_cons_div
    {width word : Nat}
    (small : word < 2 ^ width)
    (words : List Nat)
    (place : Nat) :
    packed width (word :: words) / 2 ^ (width * (place + 1)) =
      packed width words / 2 ^ (width * place) := by
  rw [packed, Nat.mul_succ, Nat.add_comm (width * place), Nat.pow_add,
    ← Nat.div_div_eq_div_mul, Nat.add_mul_div_left _ _ (Nat.two_pow_pos width),
    Nat.div_eq_of_lt small, Nat.zero_add]

/-- The words that have been packed are read again. -/
theorem lane_packed
    {width : Nat}
    {words : List Nat}
    (small : ∀ word ∈ words, word < 2 ^ width)
    {place : Nat}
    (inside : place < words.length) :
    lane width (packed width words) place = words[place] := by
  rw [lane_eq]
  induction words generalizing place with
  | nil => exact absurd inside (Nat.not_lt_zero place)
  | cons word words inductionHypothesis =>
      rw [List.forall_mem_cons] at small
      cases place with
      | zero =>
          rw [Nat.mul_zero, Nat.pow_zero, Nat.div_one, packed,
            Nat.add_mul_mod_self_left, Nat.mod_eq_of_lt small.1]
          rfl
      | succ place =>
          rw [packed_cons_div small.1]
          exact inductionHypothesis small.2 (Nat.lt_of_succ_lt_succ inside)

/-! ## Replacing -/

/-- What replacing a word adds and takes away. -/
theorem packed_set
    (width : Nat)
    {words : List Nat}
    {place : Nat}
    (inside : place < words.length)
    (word : Nat) :
    packed width (words.set place word) + words[place] * 2 ^ (width * place) =
      packed width words + word * 2 ^ (width * place) := by
  induction words generalizing place with
  | nil => exact absurd inside (Nat.not_lt_zero place)
  | cons first words inductionHypothesis =>
      cases place with
      | zero =>
          simp only [List.set_cons_zero, packed, List.getElem_cons_zero]
          ring
      | succ place =>
          have more : place < words.length := Nat.lt_of_succ_lt_succ inside
          have rest := inductionHypothesis more
          simp only [List.set_cons_succ, packed, List.getElem_cons_succ]
          rw [Nat.mul_succ, Nat.add_comm (width * place), Nat.pow_add]
          calc
            first + 2 ^ width * packed width (words.set place word) +
                words[place] * (2 ^ width * 2 ^ (width * place)) =
              first + 2 ^ width * (packed width (words.set place word) +
                words[place] * 2 ^ (width * place)) := by ring
            _ = first + 2 ^ width *
                (packed width words + word * 2 ^ (width * place)) := by rw [rest]
            _ = first + 2 ^ width * packed width words +
                word * (2 ^ width * 2 ^ (width * place)) := by ring

/-- A word is replaced where it has been packed. -/
theorem setLane_packed
    {width : Nat}
    {words : List Nat}
    (small : ∀ word ∈ words, word < 2 ^ width)
    {place : Nat}
    (inside : place < words.length)
    (word : Nat) :
    setLane width (packed width words) place word =
      packed width (words.set place word) := by
  have replaced := packed_set width inside word
  have read := lane_packed small inside
  change packed width words -
      lane width (packed width words) place <<< (width * place) +
    word <<< (width * place) = _
  rw [read, Nat.shiftLeft_eq, Nat.shiftLeft_eq]
  have contained : words[place] * 2 ^ (width * place) ≤ packed width words := by
    rw [← read, lane_eq]
    exact (Nat.mul_le_mul_right _ (Nat.mod_le _ _)).trans (Nat.div_mul_le_self _ _)
  omega

/-! ## All words at once -/

/-- Exclusive or is taken word by word. -/
theorem packed_xor
    {width : Nat}
    {left right : List Nat}
    (small : ∀ word ∈ left, word < 2 ^ width)
    (small' : ∀ word ∈ right, word < 2 ^ width)
    (same : left.length = right.length) :
    packed width left ^^^ packed width right =
      packed width (left.zipWith (· ^^^ ·) right) := by
  induction left generalizing right with
  | nil =>
      obtain rfl : right = [] := List.length_eq_zero_iff.mp same.symm
      exact Nat.xor_self 0
  | cons first left inductionHypothesis =>
      cases right with
      | nil => exact absurd same (Nat.succ_ne_zero _)
      | cons second right =>
          rw [List.forall_mem_cons] at small small'
          have rest := inductionHypothesis small.2 small'.2 (Nat.succ.inj same)
          have positive := Nat.two_pow_pos width
          rw [List.zipWith_cons_cons]
          conv_lhs => rw [← Nat.mod_add_div (_ ^^^ _) (2 ^ width)]
          rw [Nat.xor_mod_two_pow, Nat.xor_div_two_pow]
          simp only [packed, Nat.add_mul_mod_self_left,
            Nat.add_mul_div_left _ _ positive, Nat.mod_eq_of_lt small.1,
            Nat.mod_eq_of_lt small'.1, Nat.div_eq_of_lt small.1,
            Nat.div_eq_of_lt small'.1, Nat.zero_add, rest]

end Cipher
