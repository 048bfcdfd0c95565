import Lotospp.Text.Bytes
import Mathlib.Data.Nat.Digits.Defs

/-!
# Buffers of bytes

A buffer is a byte string of a fixed length, in which bytes are overwritten and
read at offsets.  Integers are stored with their lowest byte first.
-/

namespace Text

/-! ## Integers -/

/-- The lowest bytes of a number, the lowest one first. -/
def littleEndian : (width : Nat) → (value : Nat) → Bytes
  | 0, _ => []
  | width + 1, value =>
      UInt8.ofNat (value % 256) :: littleEndian width (value / 256)

/-- The number of these bytes, the lowest one first. -/
def ofLittleEndian (bytes : Bytes) : Nat :=
  Nat.ofDigits 256 (bytes.map UInt8.toNat)

@[simp] theorem length_littleEndian (width value : Nat) :
    (littleEndian width value).length = width := by
  induction width generalizing value with
  | zero => rfl
  | succ width inductionHypothesis =>
      rw [littleEndian, List.length_cons, inductionHypothesis]

theorem ofLittleEndian_cons (byte : UInt8) (bytes : Bytes) :
    ofLittleEndian (byte :: bytes) =
      byte.toNat + 256 * ofLittleEndian bytes := by
  simp [ofLittleEndian, Nat.ofDigits_cons]

/-- Stored bytes denote the number modulo their range. -/
theorem ofLittleEndian_littleEndian (width value : Nat) :
    ofLittleEndian (littleEndian width value) = value % 256 ^ width := by
  induction width generalizing value with
  | zero => rw [pow_zero, Nat.mod_one]; rfl
  | succ width inductionHypothesis =>
      have lowest : (UInt8.ofNat (value % 256)).toNat = value % 256 := by
        rw [UInt8.toNat_ofNat']
        omega
      rw [littleEndian, ofLittleEndian_cons, inductionHypothesis, lowest,
        pow_succ', Nat.mod_mul]

/-- A number in the range is read back. -/
theorem ofLittleEndian_of_lt
    {width value : Nat}
    (small : value < 256 ^ width) :
    ofLittleEndian (littleEndian width value) = value := by
  rw [ofLittleEndian_littleEndian, Nat.mod_eq_of_lt small]

/-! ## Overwriting -/

/-- The buffer with other bytes from an offset on. -/
def overwrite (buffer : Bytes) (offset : Nat) (bytes : Bytes) : Bytes :=
  buffer.take offset ++ bytes ++ buffer.drop (offset + bytes.length)

/-- Writing inside the buffer keeps its length. -/
theorem length_overwrite
    {buffer bytes : Bytes}
    {offset : Nat}
    (inside : offset + bytes.length ≤ buffer.length) :
    (overwrite buffer offset bytes).length = buffer.length := by
  rw [overwrite, List.length_append, List.length_append, List.length_take,
    List.length_drop]
  omega

/-- What stands in front of the bytes stays. -/
theorem take_overwrite
    {buffer : Bytes}
    {offset : Nat}
    (bytes : Bytes)
    (inside : offset ≤ buffer.length) :
    (overwrite buffer offset bytes).take (offset + bytes.length) =
      buffer.take offset ++ bytes := by
  rw [overwrite]
  exact List.take_left' (by simp [inside])

/-! ## Reading -/

/-- The bytes at an offset. -/
def slice (buffer : Bytes) (offset count : Nat) : Bytes :=
  (buffer.drop offset).take count

/-- What stands in the front of a buffer is read from there. -/
theorem slice_of_front
    {buffer before bytes : Bytes}
    (front : before ++ bytes <+: buffer) :
    slice buffer before.length bytes.length = bytes := by
  obtain ⟨rest, rfl⟩ := front
  rw [slice, List.append_assoc, List.drop_left, List.take_left]

end Text
