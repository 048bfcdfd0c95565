import Mathlib.Data.List.Basic
import Mathlib.Data.Nat.Basic
import Mathlib.Tactic.Common

/-!
# Byte strings

Byte strings with the checked operations of a `std::string`, and the
character classes of the "C" locale on a platform where `char` is signed.
Nothing here depends on a particular program.
-/

namespace Text

/-- The contents of a byte string. -/
abbrev Bytes := List UInt8

/-- What a string operation with a bad position does. -/
inductive Fault
  /-- The exception `std::out_of_range`. -/
  | outOfRange
  /-- An access whose behaviour the language leaves undefined. -/
  | undefined
  deriving DecidableEq, Repr

/-- The bytes of an ASCII text. -/
def lit (text : String) : Bytes :=
  text.toList.map fun character => UInt8.ofNat character.toNat

/-! ## Characters -/

/-- The value of a byte read through a signed `char`. -/
def signed (byte : UInt8) : Int :=
  if byte.toNat < 128 then byte.toNat else byte.toNat - 256

/-- A signed `char` below 33: a space or a control character, and also every
byte from 128 on. -/
def isBlank (byte : UInt8) : Bool :=
  signed byte < 33

/-- ASCII upper-case letters. -/
def isUpper (byte : UInt8) : Bool :=
  65 ≤ byte && byte ≤ 90

/-- ASCII lower-case letters. -/
def isLower (byte : UInt8) : Bool :=
  97 ≤ byte && byte ≤ 122

/-- `isalpha` in the "C" locale. -/
def isAlpha (byte : UInt8) : Bool :=
  isUpper byte || isLower byte

/-- `tolower` in the "C" locale. -/
def toLower (byte : UInt8) : UInt8 :=
  if isUpper byte then byte + 32 else byte

/-- `toupper` in the "C" locale. -/
def toUpper (byte : UInt8) : UInt8 :=
  if isLower byte then byte - 32 else byte

/-- `boost::algorithm::to_lower_copy`. -/
def toLowerCopy (text : Bytes) : Bytes :=
  text.map toLower

/-- `boost::iequals`: equality up to the case of ASCII letters. -/
def iequals (left right : Bytes) : Bool :=
  toLowerCopy left = toLowerCopy right

@[simp] theorem iequals_eq_true_iff (left right : Bytes) :
    iequals left right = true ↔ toLowerCopy left = toLowerCopy right := by
  simp [iequals]

theorem iequals_refl (text : Bytes) : iequals text text = true := by
  simp

theorem iequals_comm (left right : Bytes) :
    iequals left right = iequals right left := by
  simp only [iequals, eq_comm]

/-- A property of the 256 byte values holds of every byte. -/
theorem forall_byte
    (property : UInt8 → Prop)
    (values : ∀ value : Fin 256, property (UInt8.ofFin value))
    (byte : UInt8) :
    property byte := by
  have value := values byte.toFin
  rwa [UInt8.ofFin_toFin] at value

theorem toLower_toUpper (byte : UInt8) :
    toLower (toUpper byte) = toLower byte :=
  forall_byte (fun byte => toLower (toUpper byte) = toLower byte)
    (by decide +kernel) byte

theorem toLower_toLower (byte : UInt8) :
    toLower (toLower byte) = toLower byte :=
  forall_byte (fun byte => toLower (toLower byte) = toLower byte)
    (by decide +kernel) byte

/-! ## Positions -/

/-- `s[position]`: the terminating NUL stands at the end of the string, and
reading beyond it is undefined. -/
def charAt (text : Bytes) (position : Nat) : Except Fault UInt8 :=
  if position < text.length then .ok (text.getD position 0)
  else if position = text.length then .ok 0
  else .error .undefined

/-- `s.substr(position)`. -/
def substr (text : Bytes) (position : Nat) : Except Fault Bytes :=
  if position ≤ text.length then .ok (text.drop position)
  else .error .outOfRange

/-- `s.substr(position, count)`. -/
def substrCount (text : Bytes) (position count : Nat) :
    Except Fault Bytes :=
  if position ≤ text.length then .ok ((text.drop position).take count)
  else .error .outOfRange

/-- `s.erase(position)`. -/
def eraseFrom (text : Bytes) (position : Nat) : Except Fault Bytes :=
  if position ≤ text.length then .ok (text.take position)
  else .error .outOfRange

/-- `s.replace(position, count, inserted)`. -/
def replace (text : Bytes) (position count : Nat) (inserted : Bytes) :
    Except Fault Bytes :=
  if position ≤ text.length then
    .ok (text.take position ++ inserted ++ text.drop (position + count))
  else .error .outOfRange

theorem charAt_of_lt
    {text : Bytes}
    {position : Nat}
    (inside : position < text.length) :
    charAt text position = .ok text[position] := by
  simp [charAt, inside]

theorem charAt_of_gt
    {text : Bytes}
    {position : Nat}
    (outside : text.length < position) :
    charAt text position = .error .undefined := by
  rw [charAt, if_neg (by omega), if_neg (by omega)]

theorem charAt_of_le
    {text : Bytes}
    {position : Nat}
    (inside : position ≤ text.length) :
    charAt text position = .ok (text.getD position 0) := by
  unfold charAt
  split
  · rfl
  · have atEnd : position = text.length := by omega
    simp [atEnd]

theorem substr_of_le
    {text : Bytes}
    {position : Nat}
    (inside : position ≤ text.length) :
    substr text position = .ok (text.drop position) := by
  simp [substr, inside]

theorem substrCount_of_le
    {text : Bytes}
    {position : Nat}
    (count : Nat)
    (inside : position ≤ text.length) :
    substrCount text position count =
      .ok ((text.drop position).take count) := by
  simp [substrCount, inside]

theorem eraseFrom_of_le
    {text : Bytes}
    {position : Nat}
    (inside : position ≤ text.length) :
    eraseFrom text position = .ok (text.take position) := by
  simp [eraseFrom, inside]

theorem replace_of_le
    {text : Bytes}
    {position : Nat}
    (count : Nat)
    (inserted : Bytes)
    (inside : position ≤ text.length) :
    replace text position count inserted =
      .ok (text.take position ++ inserted ++ text.drop (position + count)) := by
  simp [replace, inside]

end Text
