import Lotospp.Text.Bytes
import Mathlib.Data.List.Forall2
import Mathlib.Data.List.DropRight
import Mathlib.Algebra.Order.Ring.Int
import Mathlib.Logic.Function.Iterate

/-!
# The generator of enumerations

The build runs the Lua function `enum` over every enumeration.  From a list of
declared values it writes a header with the enumerators, and the C++ function
`initialize` that enters them into the table of the enumeration.  The values
are first rebuilt into tables of their own; in a bitmask those without an
integer are then numbered with powers of two.
-/

namespace Lotospp
namespace Lua

open Text

/-! ## Declarations -/

/-- An item of a declared table. -/
inductive Scalar
  /-- A string. -/
  | string (text : Bytes)
  /-- A number, as the interpreter writes it. -/
  | number (text : Bytes)
  /-- A value that cannot be written: a boolean, a table or a function. -/
  | other
  deriving DecidableEq, Repr

/-- A value given to `enum`. -/
inductive Declared
  /-- A string. -/
  | string (text : Bytes)
  /-- A table with its items and whether its fields `null` and `all` are set. -/
  | table (items : List Scalar) (null all : Bool)
  /-- Anything else. -/
  | other
  deriving DecidableEq, Repr

/-- How the script fails. -/
inductive LuaError
  /-- `error("Value must be table/string")`. -/
  | badValue
  /-- A method is called on what is not a string. -/
  | badName
  /-- An operand of a concatenation is neither a string nor a number. -/
  | badAlias
  /-- The last value of an empty list is indexed. -/
  | noValues
  deriving DecidableEq, Repr

/-- The numbers of the Lua interpreter, and which powers of two it writes. -/
structure Numbers (Number : Type) where
  /-- The literal `0`. -/
  zero : Number
  /-- The literal `1`. -/
  one : Number
  /-- `number * 2`. -/
  double : Number → Number
  /-- The sum of two numbers. -/
  add : Number → Number → Number
  /-- The integer that the written number denotes in a C++ header; a number
  written with a fraction or an exponent denotes none. -/
  written : Number → Option Int
  /-- How many powers of two are written as they are. -/
  limit : Nat
  written_zero : written zero = some 0
  exact : ∀ k < limit, written (double^[k] one) = some (2 ^ k)
  inexact : ∀ n : Nat, written (double^[limit] one) ≠ some (2 ^ n)

namespace Numbers

theorem iterate_mul_two (k : Nat) : (fun n : Nat => n * 2)^[k] 1 = 2 ^ k := by
  induction k with
  | zero => rfl
  | succ k inductionHypothesis =>
      rw [Function.iterate_succ_apply', inductionHypothesis, pow_succ]

/-- The numbers of an interpreter that has floating point numbers only and
writes 14 digits: a larger number is written with an exponent. -/
def doubles : Numbers Nat where
  zero := 0
  one := 1
  double n := n * 2
  add n m := n + m
  written n := if n < 10 ^ 14 then some n else none
  limit := 47
  written_zero := rfl
  exact k small := by
    have bound : 2 ^ k < 10 ^ 14 :=
      (Nat.pow_le_pow_right (by decide) (Nat.le_of_lt_succ small)).trans_lt
        (show 2 ^ 46 < 10 ^ 14 by decide)
    rw [iterate_mul_two, if_pos bound]
    norm_cast
  inexact n := by
    rw [iterate_mul_two, if_neg (by decide)]
    exact (Option.some_ne_none _).symm

theorem iterate_bmod {k : Nat} (small : k < 63) :
    (fun n : Int => (n * 2).bmod (2 ^ 64))^[k] 1 = 2 ^ k := by
  induction k with
  | zero => rfl
  | succ k inductionHypothesis =>
      have bound : (2 : Int) ^ (k + 1) ≤ 2 ^ 62 :=
        pow_le_pow_right₀ (by decide) (Nat.le_of_lt_succ small)
      have positive : (0 : Int) < 2 ^ (k + 1) := pow_pos (by decide) _
      rw [Function.iterate_succ_apply', inductionHypothesis (by omega),
        ← pow_succ]
      exact Int.bmod_eq_of_le_mul_two (by omega) (by omega)

/-- The numbers of an interpreter with integers of 64 bits, which wrap. -/
def integers : Numbers Int where
  zero := 0
  one := 1
  double n := (n * 2).bmod (2 ^ 64)
  add n m := (n + m).bmod (2 ^ 64)
  written n := some n
  limit := 63
  written_zero := rfl
  exact k small := by rw [iterate_bmod small]
  inexact n := by
    have last : (fun n : Int => (n * 2).bmod (2 ^ 64))^[63] 1 = -2 ^ 63 := by
      rw [Function.iterate_succ_apply', iterate_bmod (by decide)]
      decide
    have positive : (0 : Int) < 2 ^ n := pow_pos (by decide) n
    rw [last, Ne, Option.some.injEq]
    omega

end Numbers

/-- The field `int` of a rebuilt value. -/
inductive Value (Number : Type)
  /-- The text behind the equals sign. -/
  | given (text : Bytes)
  /-- A number of the script. -/
  | number (number : Number)

/-- A rebuilt value. -/
structure Rebuilt (Number : Type) where
  /-- The first element of the field `name`. -/
  first : Bytes
  /-- The further elements of the field `name`. -/
  aliases : List Scalar := []
  /-- The field `int`. -/
  int : Option (Value Number) := none
  /-- The field `null`. -/
  null : Bool := false
  /-- The field `all`. -/
  all : Bool := false

/-! ## Rebuilding the values -/

/-- The class `%s` of a Lua pattern. -/
def isSpace (byte : UInt8) : Bool :=
  byte = 32 || (9 ≤ byte && byte ≤ 13)

/-- The class `%d` of a Lua pattern. -/
def isDigit (byte : UInt8) : Bool :=
  48 ≤ byte && byte ≤ 57

variable {Number : Type}

/-- The local function `split`: a match of `(.-)%s*=%s*(.*)` ends its first part
at the first equals sign, without the spaces before it. -/
def split (s : Bytes) : Rebuilt Number :=
  if 61 ∈ s then
    let e := (s.takeWhile fun byte => byte ≠ 61).rdropWhile isSpace
    let v := (s.dropWhile fun byte => byte ≠ 61).tail.dropWhile isSpace
    { first := e, int := some (.given v) }
  else { first := s }

theorem split_of_noEquals
    {text : Bytes}
    (noEquals : 61 ∉ text) : split text = ({ first := text } : Rebuilt Number) :=
  if_neg noEquals

/-- A turn of the loop that rebuilds the values: the field `all` is left
behind. -/
def rebuild : Declared → Except LuaError (Rebuilt Number)
  | .string text => .ok (split text)
  | .table (.string text :: items) null _ =>
      .ok { split text with aliases := items, null := null }
  | .table _ _ _ => .error .badName
  | .other => .error .badValue

/-- The test in `split` that clears `automask`. -/
def Rebuilt.hasInteger (v : Rebuilt Number) : Bool :=
  match v.int with
  | some (.given text) => text.any isDigit
  | _ => false

/-! ## Numbering a bitmask -/

/-- The loop that numbers the values of a bitmask, with `mask`, `fullmask` and
`mask_count`. -/
def automask (numbers : Numbers Number) : List (Rebuilt Number) →
    (mask fullmask : Number) → (maskCount : Nat) →
    List (Rebuilt Number) × Number × Nat
  | [], _, fullmask, maskCount => ([], fullmask, maskCount)
  | v :: values, mask, fullmask, maskCount =>
      if v.null then
        let (values, result) := automask numbers values mask fullmask maskCount
        ({ v with int := some (.number numbers.zero) } :: values, result)
      else if v.all || v.int.isSome then
        let (values, result) := automask numbers values mask fullmask maskCount
        (v :: values, result)
      else
        let (values, result) := automask numbers values (numbers.double mask)
          (numbers.add fullmask mask) (maskCount + 1)
        ({ v with int := some (.number mask) } :: values, result)

/-- The loop over `allmask`, which holds the values with the field `all` that
are not null. -/
def fillAll (fullmask : Number) (v : Rebuilt Number) : Rebuilt Number :=
  if !v.null && v.all then { v with int := some (.number fullmask) } else v

/-! ## Writing -/

/-- The third argument of a generated call. -/
inductive Argument
  /-- There is none. -/
  | missing
  /-- A string literal with this text. -/
  | literal (text : Bytes)
  /-- A number. -/
  | number (text : Bytes)
  deriving DecidableEq, Repr

/-- A generated call of `initAddValue`. -/
structure InitCall where
  /-- The enumerator. -/
  first : Bytes
  /-- The text of the string literal with the name. -/
  name : Bytes
  /-- The third argument. -/
  value : Argument
  deriving DecidableEq, Repr

/-- The size parameter of the generated type. -/
inductive EnumSize
  /-- The number of masks. -/
  | masks (count : Nat)
  /-- `-1`. -/
  | unknown
  /-- One more than this enumerator. -/
  | behind (last : Bytes)
  deriving DecidableEq, Repr

/-- What `enum` writes. -/
structure Generated (Number : Type) where
  /-- The enumerators and their integers. -/
  enumerators : List (Bytes × Option (Value Number))
  /-- The size parameter. -/
  size : EnumSize
  /-- The body of `initialize`. -/
  calls : List InitCall

/-- An item in a concatenation. -/
def Scalar.concat : Scalar → Except LuaError Bytes
  | .string text => .ok text
  | .number text => .ok text
  | .other => .error .badAlias

/-- A turn of the loop that writes `initialize`. -/
def initCall (v : Rebuilt Number) : Except LuaError InitCall :=
  match v.aliases with
  | [] => .ok ⟨v.first, v.first, .missing⟩
  | name :: more => do
      let text ← name.concat
      match more.head? with
      | some (.string value) => .ok ⟨v.first, text, .literal value⟩
      | some (.number value) => .ok ⟨v.first, text, .number value⟩
      | _ => .ok ⟨v.first, text, .literal []⟩

/-- The variable `automask` behind the loop that rebuilds the values. -/
def isAutomask (bitmask : Bool) (values : List (Rebuilt Number)) : Bool :=
  bitmask && values.all fun v => !v.hasInteger

/-- The numbered values and `mask_count`. -/
def numberValues (numbers : Numbers Number) (isAuto : Bool)
    (values : List (Rebuilt Number)) : List (Rebuilt Number) × Nat :=
  if isAuto then
    let (values, fullmask, maskCount) :=
      automask numbers values numbers.one numbers.zero 0
    (values.map (fillAll fullmask), maskCount)
  else (values, 0)

/-- The size parameter of the type. -/
def enumSize (bitmask isAuto : Bool) (values : List (Rebuilt Number))
    (maskCount : Nat) : Except LuaError EnumSize :=
  if bitmask then .ok (if isAuto then .masks maskCount else .unknown)
  else
    match values.getLast? with
    | some last => .ok (.behind last.first)
    | none => .error .noValues

/-- The function `enum`, for an enumeration that is a bitmask or is none. -/
def enum (numbers : Numbers Number) (bitmask : Bool)
    (values : List Declared) : Except LuaError (Generated Number) := do
  let values ← values.mapM rebuild
  let isAuto := isAutomask bitmask values
  let (values, maskCount) := numberValues numbers isAuto values
  let size ← enumSize bitmask isAuto values maskCount
  let calls ← values.mapM initCall
  pure ⟨values.map fun v => (v.first, v.int), size, calls⟩

/-! ## What a run of the generator writes -/

/-- A function that may fail succeeds on a list when it does on every
element. -/
theorem mapM_eq_ok_iff
    {Input Output Error : Type}
    {function : Input → Except Error Output}
    {inputs : List Input}
    {outputs : List Output} :
    inputs.mapM function = .ok outputs ↔
      List.Forall₂ (fun input output => function input = .ok output)
        inputs outputs := by
  induction inputs generalizing outputs with
  | nil =>
      rw [List.mapM_nil, List.forall₂_nil_left_iff]
      exact ⟨fun same => (Except.ok.inj same).symm, fun same => same ▸ rfl⟩
  | cons input inputs inductionHypothesis =>
      rw [List.mapM_cons, List.forall₂_cons_left_iff]
      cases first : function input with
      | error error => simp [bind, Except.bind]
      | ok output =>
          cases rest : inputs.mapM function with
          | error error =>
              have none : ∀ left, ¬ List.Forall₂
                  (fun input output => function input = .ok output)
                    inputs left := by
                intro left each
                rw [← inductionHypothesis, rest] at each
                cases each
              simp [bind, Except.bind, none]
          | ok left =>
              have only : ∀ left', List.Forall₂
                  (fun input output => function input = .ok output)
                    inputs left' ↔ left = left' := by
                intro left'
                rw [← inductionHypothesis, rest, Except.ok.injEq]
              simp [bind, Except.bind, pure, Except.pure, only, eq_comm]

/-- The second value is the first one with another integer. -/
def Renumbers (v numbered : Rebuilt Number) : Prop :=
  numbered = { v with int := numbered.int }

theorem renumbers_refl (v : Rebuilt Number) : Renumbers v v := rfl

/-- Numbering changes the integers only. -/
theorem automask_renumbers
    (numbers : Numbers Number)
    (values : List (Rebuilt Number))
    (mask fullmask : Number)
    (maskCount : Nat) :
    List.Forall₂ Renumbers values
      (automask numbers values mask fullmask maskCount).1 := by
  induction values generalizing mask fullmask maskCount with
  | nil => exact .nil
  | cons v values inductionHypothesis =>
      rw [automask]
      split
      · exact .cons rfl (inductionHypothesis ..)
      · split
        · exact .cons rfl (inductionHypothesis ..)
        · exact .cons rfl (inductionHypothesis ..)

theorem fillAll_renumbers (fullmask : Number) (v : Rebuilt Number) :
    Renumbers v (fillAll fullmask v) := by
  rw [fillAll]
  split <;> rfl

/-- Numbering the values of any enumeration changes the integers only. -/
theorem numberValues_renumbers
    (numbers : Numbers Number)
    (isAuto : Bool)
    (values : List (Rebuilt Number)) :
    List.Forall₂ Renumbers values (numberValues numbers isAuto values).1 := by
  rw [numberValues]
  split
  · have numbered :=
      automask_renumbers numbers values numbers.one numbers.zero 0
    rw [List.forall₂_map_right_iff]
    apply numbered.imp
    intro v numbered same
    rw [Renumbers, fillAll_renumbers, same]
  · exact List.forall₂_same.mpr fun v _ => renumbers_refl v

/-- What a run of `enum` that does not fail has done. -/
structure Ran (numbers : Numbers Number) (bitmask : Bool)
    (declared : List Declared) (generated : Generated Number)
    (values : List (Rebuilt Number)) : Prop where
  rebuilt : List.Forall₂ (fun declared v => rebuild declared = .ok v)
    declared values
  size : enumSize bitmask (isAutomask bitmask values)
    (numberValues numbers (isAutomask bitmask values) values).1
    (numberValues numbers (isAutomask bitmask values) values).2 =
      .ok generated.size
  calls : List.Forall₂ (fun v call => initCall v = .ok call)
    (numberValues numbers (isAutomask bitmask values) values).1 generated.calls
  enumerators : generated.enumerators =
    (numberValues numbers (isAutomask bitmask values) values).1.map
      fun v => (v.first, v.int)

theorem exists_ran
    {numbers : Numbers Number}
    {bitmask : Bool}
    {declared : List Declared}
    {generated : Generated Number}
    (ran : enum numbers bitmask declared = .ok generated) :
    ∃ values, Ran numbers bitmask declared generated values := by
  simp only [enum, bind, Except.bind, pure, Except.pure] at ran
  cases rebuilt : declared.mapM (@rebuild Number) with
  | error error => simp [rebuilt] at ran
  | ok values =>
      rw [rebuilt] at ran
      simp only at ran
      split at ran
      · cases ran
      · next size isSize =>
          split at ran
          · cases ran
          · next calls isCalls =>
              obtain rfl := Except.ok.inj ran
              exact ⟨values, mapM_eq_ok_iff.mp rebuilt, isSize,
                mapM_eq_ok_iff.mp isCalls, rfl⟩

end Lua
end Lotospp
