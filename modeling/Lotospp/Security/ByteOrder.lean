import Lotospp.Security.Eksblowfish
import Lotospp.Security.Hashes
import Lotospp.Security.KeyStream
import Mathlib.Tactic.IntervalCases

/-!
# The order of the bytes

`BF_swap` makes a hash the same on all machines: behind it a word of the salt
or of the hash has the highest byte first, in whichever order the machine
stores it.
-/

namespace Lotospp
namespace Security

open Text

/-! ## Swapping -/

/-- The bytes of a word in the reverse order, bit by bit. -/
theorem bfSwap_wordOf (b0 b1 b2 b3 : UInt8) :
    bfSwap .little (wordOf [b0, b1, b2, b3]) = wordOf [b3, b2, b1, b0] := by
  apply UInt32.eq_of_toBitVec_eq
  apply BitVec.eq_of_getLsbD_eq
  intro bit small
  simp only [bfSwap, wordOf, List.foldl_cons, List.foldl_nil, push,
    UInt32.toBitVec_or, UInt32.toBitVec_and, UInt32.toBitVec_shiftLeft,
    UInt32.toBitVec_shiftRight]
  interval_cases bit <;> simp

theorem load_big (b0 b1 b2 b3 : UInt8) :
    ByteOrder.big.load [b0, b1, b2, b3] = wordOf [b0, b1, b2, b3] := by
  have small0 := b0.toNat_lt
  have small1 := b1.toNat_lt
  have small2 := b2.toNat_lt
  have small3 := b3.toNat_lt
  rw [← UInt32.toNat_inj, toNat_wordOf, ByteOrder.load, UInt32.toNat_ofNat']
  change ofLittleEndian [b3, b2, b1, b0] % 2 ^ 32 = _
  simp only [ofLittleEndian_cons]
  change (b3.toNat + 256 * (b2.toNat + 256 * (b1.toNat + 256 *
    (b0.toNat + 256 * 0)))) % 2 ^ 32 = _
  omega

theorem load_little (b0 b1 b2 b3 : UInt8) :
    ByteOrder.little.load [b0, b1, b2, b3] = wordOf [b3, b2, b1, b0] :=
  load_big b3 b2 b1 b0

/-- A word that is loaded and swapped has the highest byte first. -/
theorem bfSwap_load
    (order : ByteOrder)
    {bytes : Bytes}
    (four : bytes.length = 4) :
    bfSwap order (order.load bytes) = wordOf bytes := by
  obtain ⟨b0, b1, b2, b3, rfl⟩ := List.length_eq_four.mp four
  cases order with
  | little => rw [load_little, bfSwap_wordOf]
  | big => exact load_big b0 b1 b2 b3

/-- Every word is that of some bytes. -/
theorem exists_wordOf (word : UInt32) :
    ∃ b0 b1 b2 b3, word = wordOf [b0, b1, b2, b3] := by
  have small := word.toNat_lt
  refine ⟨UInt8.ofNat (word.toNat / 2 ^ 24), UInt8.ofNat (word.toNat / 2 ^ 16),
    UInt8.ofNat (word.toNat / 2 ^ 8), UInt8.ofNat word.toNat, ?_⟩
  rw [← UInt32.toNat_inj, toNat_wordOf]
  simp only [UInt8.toNat_ofNat']
  omega

theorem store_big (b0 b1 b2 b3 : UInt8) :
    ByteOrder.big.store (wordOf [b0, b1, b2, b3]) = [b0, b1, b2, b3] := by
  have small0 := b0.toNat_lt
  have small1 := b1.toNat_lt
  have small2 := b2.toNat_lt
  have small3 := b3.toNat_lt
  rw [ByteOrder.store, toNat_wordOf]
  simp only [littleEndian, List.reverse_cons, List.reverse_nil, List.nil_append,
    List.cons_append, List.cons.injEq, and_true, ← UInt8.toNat_inj,
    UInt8.toNat_ofNat']
  omega

/-- A word that is swapped and stored has the highest byte first. -/
theorem store_bfSwap
    (order : ByteOrder)
    (b0 b1 b2 b3 : UInt8) :
    order.store (bfSwap order (wordOf [b0, b1, b2, b3])) = [b0, b1, b2, b3] := by
  cases order with
  | little =>
      have stored := store_big b3 b2 b1 b0
      rw [bfSwap_wordOf]
      rw [ByteOrder.store] at stored
      rw [ByteOrder.store, ← List.reverse_reverse (littleEndian _ _), stored]
      rfl
  | big => exact store_big b0 b1 b2 b3

/-! ## The hash -/

theorem length_store (order : ByteOrder) (word : UInt32) :
    (order.store word).length = 4 := by
  cases order with
  | little => exact length_littleEndian 4 _
  | big => rw [ByteOrder.store, List.length_reverse, length_littleEndian]

theorem length_eksRun
    (order : ByteOrder)
    (key : Bytes)
    (flags cost : Nat)
    (salt : Bytes) : (eksRun order key flags cost salt).length = 24 := by
  simp [eksRun, magicBlocks, length_store]

/-- The rounds of `BF_crypt` on a machine with this order of bytes. -/
def eksblowfish (order : ByteOrder) : Eksblowfish where
  run := eksRun order
  length_run := length_eksRun order
  setsKeys := setsKeys

theorem saltWords_eq
    (order : ByteOrder)
    {salt : Bytes}
    (whole : salt.length = 16) :
    saltWords order salt =
      Vector.ofFn fun i : Fin 4 => wordOf (slice salt (4 * i.val) 4) := by
  rw [saltWords]
  congr 1
  funext i
  apply bfSwap_load
  rw [slice, List.length_take, List.length_drop]
  omega

theorem store_bfSwap_eq (order order' : ByteOrder) (word : UInt32) :
    order.store (bfSwap order word) = order'.store (bfSwap order' word) := by
  obtain ⟨b0, b1, b2, b3, rfl⟩ := exists_wordOf word
  rw [store_bfSwap, store_bfSwap]

theorem eksRun_order
    (order order' : ByteOrder)
    (key : Bytes)
    (flags cost : Nat)
    {salt : Bytes}
    (whole : salt.length = 16) :
    eksRun order key flags cost salt = eksRun order' key flags cost salt := by
  rw [eksRun, eksRun, saltWords_eq order whole, saltWords_eq order' whole]
  simp only [store_bfSwap_eq order order']

end Security
end Lotospp
