import Mathlib.Algebra.Group.End
import Mathlib.Logic.Equiv.Prod

/-!
# Feistel networks

A block has two halves.  A round mixes a function of one half into the other
one and exchanges the halves; between the rounds keys are mixed into the left
half.  Whatever the function is, this is a permutation of the blocks, and the
network with its keys in the reverse order undoes it.
-/

namespace Cipher

/-- A way to mix two values that is undone by mixing again. -/
structure Mixing (α : Type) where
  /-- The mixture. -/
  mix : α → α → α
  /-- Mixing the same value in twice changes nothing. -/
  mix_mix : ∀ value key, mix (mix value key) key = value
  /-- Two values may be mixed in in either order. -/
  mix_comm : ∀ value key other,
    mix (mix value key) other = mix (mix value other) key

namespace Mixing

variable {α : Type} (mixing : Mixing α) (function : α → α)

/-- Mix a key into the left half. -/
def whiten (key : α) : Equiv.Perm (α × α) where
  toFun block := (mixing.mix block.1 key, block.2)
  invFun block := (mixing.mix block.1 key, block.2)
  left_inv block := by simp only [mixing.mix_mix]
  right_inv block := by simp only [mixing.mix_mix]

/-- Mix the function of the left half into the right one, and exchange the
halves. -/
def round : Equiv.Perm (α × α) where
  toFun block := (mixing.mix block.2 (function block.1), block.1)
  invFun block := (block.2, mixing.mix block.1 (function block.2))
  left_inv block := by simp only [mixing.mix_mix]
  right_inv block := by simp only [mixing.mix_mix]

/-- A key before the first round, between rounds and behind the last one. -/
def ladder : (key : α) → (keys : List α) → Equiv.Perm (α × α)
  | key, [] => mixing.whiten key
  | key, next :: keys =>
      ladder next keys * mixing.round function * mixing.whiten key

/-- The halves are exchanged before the last key. -/
def network (first : α) (keys : List α) (last : α) : Equiv.Perm (α × α) :=
  mixing.whiten last * Equiv.prodComm α α *
    mixing.ladder function first keys

theorem whiten_inv (key : α) :
    (mixing.whiten key)⁻¹ = mixing.whiten key := rfl

theorem prodComm_inv : (Equiv.prodComm α α)⁻¹ = Equiv.prodComm α α := rfl

/-- Undoing a round is a round between two exchanges. -/
theorem round_inv :
    (mixing.round function)⁻¹ =
      Equiv.prodComm α α * mixing.round function * Equiv.prodComm α α := rfl

/-- A key that is mixed into the right half before a round is in the left half
behind it. -/
theorem round_whiten (key : α) :
    mixing.round function *
        (Equiv.prodComm α α * mixing.whiten key * Equiv.prodComm α α) =
      mixing.whiten key * mixing.round function := by
  apply Equiv.ext
  rintro ⟨left, right⟩
  change (mixing.mix (mixing.mix right key) (function left), left) =
    (mixing.mix (mixing.mix right (function left)) key, left)
  rw [mixing.mix_comm]

/-- The last key of a ladder is mixed in behind all the rounds. -/
theorem ladder_append (first : α) (keys : List α) (last : α) :
    mixing.ladder function first (keys ++ [last]) =
      mixing.whiten last * mixing.round function *
        mixing.ladder function first keys := by
  induction keys generalizing first with
  | nil => rfl
  | cons next keys inductionHypothesis =>
      simp only [List.cons_append, ladder, inductionHypothesis, mul_assoc]

/-- What is left of a network when its first key is taken from the end of the
reversed one. -/
theorem ladder_inv (first : α) (keys : List α) (last : α) :
    (mixing.ladder function first keys)⁻¹ * Equiv.prodComm α α *
        mixing.whiten last =
      mixing.whiten first * Equiv.prodComm α α *
        mixing.ladder function last keys.reverse := by
  induction keys generalizing first with
  | nil => rfl
  | cons next keys inductionHypothesis =>
      have unrolled :
          (mixing.ladder function first (next :: keys))⁻¹ =
            mixing.whiten first *
              (Equiv.prodComm α α * mixing.round function *
                Equiv.prodComm α α) *
              (mixing.ladder function next keys)⁻¹ := by
        rw [ladder, mul_inv_rev, mul_inv_rev, whiten_inv, round_inv]
        simp only [mul_assoc]
      calc
        _ = mixing.whiten first *
              (Equiv.prodComm α α * mixing.round function *
                Equiv.prodComm α α) *
              ((mixing.ladder function next keys)⁻¹ * Equiv.prodComm α α *
                mixing.whiten last) := by
            rw [unrolled]
            simp only [mul_assoc]
        _ = mixing.whiten first * Equiv.prodComm α α *
              (mixing.round function *
                (Equiv.prodComm α α * mixing.whiten next *
                  Equiv.prodComm α α)) *
              mixing.ladder function last keys.reverse := by
            rw [inductionHypothesis]
            simp only [mul_assoc]
        _ = _ := by
            rw [round_whiten, List.reverse_cons, ladder_append]
            simp only [mul_assoc]

/-- The network with its keys in the reverse order undoes the network. -/
theorem network_inv (first : α) (keys : List α) (last : α) :
    (mixing.network function first keys last)⁻¹ =
      mixing.network function last keys.reverse first := by
  rw [network, network, mul_inv_rev, mul_inv_rev, whiten_inv, prodComm_inv,
    ← mul_assoc, ladder_inv]

end Mixing
end Cipher
