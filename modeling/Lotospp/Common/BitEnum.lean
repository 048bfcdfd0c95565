import Lotospp.Common.Enums
import Lotospp.Lua.Masks

/-!
# Sets of flags

`class BitEnum` keeps a set of the flags of a bitmask in an `int` of 32 bits,
of which `isSet` asks whether what is common to two of them is positive.  The
integers of the flags are those that the script writes into the header.  The
highest bit is the sign, so that no flag may have it.
-/

namespace Lotospp
namespace Common

open Text

/-- The `int` of a `BitEnum`. -/
abbrev BitEnum : Type :=
  BitVec 32

namespace BitEnum

/-- `BitEnum::isSet`. -/
def isSet (e o : BitEnum) : Bool :=
  0 < (e &&& o).toInt

/-- `BitEnum::set`. -/
def set (e o : BitEnum) : BitEnum :=
  e ||| o

/-- `BitEnum::unset`. -/
def unset (e o : BitEnum) : BitEnum :=
  e &&& ~~~o

/-- A call with a flag, which is named by its place in the bitmask. -/
inductive Call
  /-- `set`. -/
  | set (flag : Nat)
  /-- `unset`. -/
  | unset (flag : Nat)
  deriving DecidableEq, Repr

/-- The flag of a call. -/
def Call.flag : Call → Nat
  | .set flag => flag
  | .unset flag => flag

/-- What a call does, when the flags have these integers. -/
def Call.apply (integer : Nat → BitEnum) (e : BitEnum) : Call → BitEnum
  | .set flag => e.set (integer flag)
  | .unset flag => e.unset (integer flag)

/-- The value after some calls; a `BitEnum` is zero at the start. -/
def run (integer : Nat → BitEnum) (calls : List Call) : BitEnum :=
  calls.foldl (Call.apply integer) 0

/-- The flags that have been set and not unset since. -/
def marked (calls : List Call) : Nat → Bool :=
  calls.foldl
    (fun marks call =>
      match call with
      | .set flag => Function.update marks flag true
      | .unset flag => Function.update marks flag false) fun _ => false

theorem marked_append_set (calls : List Call) (flag : Nat) :
    marked (calls ++ [.set flag]) =
      Function.update (marked calls) flag true := by
  simp [marked]

theorem marked_append_unset (calls : List Call) (flag : Nat) :
    marked (calls ++ [.unset flag]) =
      Function.update (marked calls) flag false := by
  simp [marked]

theorem run_append_singleton
    (integer : Nat → BitEnum) (calls : List Call) (call : Call) :
    run integer (calls ++ [call]) = call.apply integer (run integer calls) := by
  simp [run]

/-- When every flag has a bit of its own, the bits are the flags. -/
theorem getLsbD_run
    {integer : Nat → BitEnum}
    {calls : List Call}
    (bits : ∀ call ∈ calls, integer call.flag = BitVec.twoPow 32 call.flag)
    {place : Nat}
    (inside : place < 32) :
    (run integer calls).getLsbD place = marked calls place := by
  induction calls using List.reverseRecOn with
  | nil => simp [run, marked]
  | append_singleton calls call inductionHypothesis =>
      have before := inductionHypothesis fun other member =>
        bits other (List.mem_append_left _ member)
      have bit := bits call (by simp)
      rw [run_append_singleton]
      cases call with
      | set flag =>
          rw [Call.flag] at bit
          rw [marked_append_set, Call.apply, set, bit, BitVec.getLsbD_or,
            before, BitVec.getLsbD_twoPow]
          by_cases same : place = flag
          · subst same
            simp [inside]
          · simp [same, Ne.symm same]
      | unset flag =>
          rw [Call.flag] at bit
          rw [marked_append_unset, Call.apply, unset, bit, BitVec.getLsbD_and,
            BitVec.getLsbD_not, before, BitVec.getLsbD_twoPow]
          by_cases same : place = flag
          · subst same
            simp [inside]
          · simp [same, Ne.symm same, inside]

/-- One bit is asked for; the sign is never there, and neither is a bit
beyond it. -/
theorem isSet_twoPow (e : BitEnum) (flag : Nat) :
    isSet e (BitVec.twoPow 32 flag) = (decide (flag < 31) && e.getLsbD flag) := by
  rw [isSet, BitVec.and_twoPow]
  cases e.getLsbD flag with
  | false => simp
  | true =>
      rw [if_pos rfl, BitVec.toInt_twoPow, Bool.and_true]
      by_cases beyond : 32 ≤ flag
      · rw [if_pos beyond]
        simp
        omega
      · rw [if_neg beyond]
        by_cases sign : flag = 31
        · subst sign
          decide
        · have positive : (0 : Int) < 2 ^ flag :=
            Int.pow_pos (by decide)
          rw [if_neg (by omega)]
          simp only [positive, decide_true]
          symm
          simp
          omega

theorem isSet_run
    {integer : Nat → BitEnum}
    {calls : List Call}
    (bits : ∀ call ∈ calls, integer call.flag = BitVec.twoPow 32 call.flag)
    {flag : Nat}
    (bit : integer flag = BitVec.twoPow 32 flag) :
    isSet (run integer calls) (integer flag) =
      (decide (flag < 31) && marked calls flag) := by
  rw [bit, isSet_twoPow]
  by_cases small : flag < 31
  · rw [getLsbD_run bits (by omega)]
  · simp [small]

end BitEnum

/-! ## The flags of the header -/

section Header

open Lua

variable {Number : Type}

/-- The integer of a plain value of the header, as an `int`. -/
def headerFlag
    (numbers : Numbers Number)
    (declared : List Declared)
    (generated : Generated Number)
    (flag : Nat) : BitEnum :=
  BitVec.ofInt 32
    (((plainIntegers numbers declared generated)[flag]?.getD none).getD 0)

variable {numbers : Numbers Number} {declared : List Declared}
  {generated : Generated Number}

/-- The flags have the bits from the lowest one on. -/
theorem headerFlag_eq
    (implicit : ∀ value ∈ declared, value.isExplicit = false)
    (noAll : ∀ value ∈ declared, value.isAll = false)
    (few : declared.countP Declared.isPlain ≤ numbers.limit)
    (ran : enum numbers true declared = .ok generated)
    {flag : Nat}
    (inside : flag < declared.countP Declared.isPlain) :
    headerFlag numbers declared generated flag = BitVec.twoPow 32 flag := by
  obtain ⟨values, numbered, enumerators, -⟩ := enum_numbered implicit ran
  have written : (plainIntegers numbers declared generated)[flag]? =
      some (some (2 ^ flag)) := by
    rw [plainIntegers_eq numbered enumerators noAll, List.getElem?_map,
      List.getElem?_range inside, Option.map_some,
      numbers.exact flag (inside.trans_le few)]
  have cast : (2 : Int) ^ flag = ((2 ^ flag : Nat) : Int) := by simp
  rw [headerFlag, written, Option.getD_some, Option.getD_some, cast,
    BitVec.ofInt_natCast]
  exact BitVec.eq_of_toNat_eq (by simp)

/-- In whatever order the flags of a bitmask are set and unset, `isSet` answers
for the first 31 of them whether they were set last, and for no other one. -/
theorem flags_follow
    (implicit : ∀ value ∈ declared, value.isExplicit = false)
    (noAll : ∀ value ∈ declared, value.isAll = false)
    (few : declared.countP Declared.isPlain ≤ numbers.limit)
    (ran : enum numbers true declared = .ok generated)
    (calls : List BitEnum.Call)
    (known : ∀ call ∈ calls, call.flag < declared.countP Declared.isPlain)
    {flag : Nat}
    (inside : flag < declared.countP Declared.isPlain) :
    BitEnum.isSet (BitEnum.run (headerFlag numbers declared generated) calls)
        (headerFlag numbers declared generated flag) =
      (decide (flag < 31) && BitEnum.marked calls flag) := by
  have bits := fun call member =>
    headerFlag_eq implicit noAll few ran (known call member)
  exact BitEnum.isSet_run bits (headerFlag_eq implicit noAll few ran inside)

/-- `TelnetFlag`. -/
def telnetFlags : List Declared :=
  [.string (lit "TelnetFlag_ECHO"), .string (lit "TelnetFlag_SGA"),
    .string (lit "TelnetFlag_TERMTYPE"), .string (lit "TelnetFlag_TERMSIZE"),
    .string (lit "TelnetFlag_GOT_TELOPT_INFO"),
    .string (lit "TelnetFlag_ANSI_TERM"), .string (lit "TelnetFlag_LASTFLAG")]

theorem telnetFlags_plain :
    (∀ value ∈ telnetFlags, value.isExplicit = false) ∧
      (∀ value ∈ telnetFlags, value.isAll = false) ∧
      telnetFlags.countP Declared.isPlain = 7 := by
  decide

/-- A flag is set, and then another one set and unset. -/
theorem flags_follow_telnetFlags :
    ∃ generated, enum Numbers.integers true telnetFlags = .ok generated ∧
      BitEnum.isSet
          (BitEnum.run (headerFlag Numbers.integers telnetFlags generated)
            [.set 3, .set 5, .unset 5])
          (headerFlag Numbers.integers telnetFlags generated 3) =
        (decide (3 < 31) &&
          BitEnum.marked [.set 3, .set 5, .unset 5] 3) := by
  obtain ⟨implicit, noAll, count⟩ := telnetFlags_plain
  obtain ⟨generated, ran⟩ : ∃ generated,
      enum Numbers.integers true telnetFlags = .ok generated := ⟨_, rfl⟩
  refine ⟨generated, ran, flags_follow implicit noAll ?_ ran _ ?_ ?_⟩
  · rw [count]
    decide
  · rw [count]
    decide
  · rw [count]
    decide

end Header

/-! ## The flags of a session -/

/-- The flags that the session code uses. -/
inductive TelnetFlag
  | echo
  | sga
  | termtype
  | termsize
  | gotTeloptInfo
  | ansiTerm
  deriving DecidableEq, Repr

/-- The place in the bitmask. -/
def TelnetFlag.place : TelnetFlag → Nat
  | .echo => 0
  | .sga => 1
  | .termtype => 2
  | .termsize => 3
  | .gotTeloptInfo => 4
  | .ansiTerm => 5

namespace TelnetFlags

/-- The bit of a flag. -/
def has (flags : TelnetFlags) : TelnetFlag → Bool
  | .echo => flags.echo
  | .sga => flags.sga
  | .termtype => flags.termtype
  | .termsize => flags.termsize
  | .gotTeloptInfo => flags.gotTeloptInfo
  | .ansiTerm => flags.ansiTerm

/-- Another value for the bit of a flag. -/
def assign (flags : TelnetFlags) (value : Bool) : TelnetFlag → TelnetFlags
  | .echo => { flags with echo := value }
  | .sga => { flags with sga := value }
  | .termtype => { flags with termtype := value }
  | .termsize => { flags with termsize := value }
  | .gotTeloptInfo => { flags with gotTeloptInfo := value }
  | .ansiTerm => { flags with ansiTerm := value }

theorem has_assign
    (flags : TelnetFlags) (value : Bool) (flag other : TelnetFlag) :
    (flags.assign value flag).has other =
      if other = flag then value else flags.has other := by
  cases flag <;> cases other <;> rfl

end TelnetFlags

/-- A flag is set or unset. -/
def TelnetFlag.call (call : TelnetFlag × Bool) : BitEnum.Call :=
  if call.2 then .set call.1.place else .unset call.1.place

theorem TelnetFlag.place_inj
    {flag other : TelnetFlag} : flag.place = other.place ↔ flag = other := by
  cases flag <;> cases other <;> decide

/-- The flags of a session after some calls. -/
def TelnetFlags.after (calls : List (TelnetFlag × Bool)) : TelnetFlags :=
  calls.foldl (fun flags call => flags.assign call.2 call.1) {}

/-- The flags of a session are those that have been set last. -/
theorem TelnetFlags.has_after
    (calls : List (TelnetFlag × Bool)) (flag : TelnetFlag) :
    (TelnetFlags.after calls).has flag =
      BitEnum.marked (calls.map TelnetFlag.call) flag.place := by
  induction calls using List.reverseRecOn with
  | nil => cases flag <;> rfl
  | append_singleton calls call inductionHypothesis =>
      obtain ⟨other, value⟩ := call
      have step : TelnetFlags.after (calls ++ [(other, value)]) =
          (TelnetFlags.after calls).assign value other := by
        simp [TelnetFlags.after]
      rw [step, TelnetFlags.has_assign, inductionHypothesis, List.map_append,
        List.map_cons, List.map_nil]
      cases value with
      | true =>
          have last : TelnetFlag.call (other, true) = .set other.place := rfl
          rw [last, BitEnum.marked_append_set, Function.update_apply]
          simp only [TelnetFlag.place_inj]
      | false =>
          have last : TelnetFlag.call (other, false) = .unset other.place := rfl
          rw [last, BitEnum.marked_append_unset, Function.update_apply]
          simp only [TelnetFlag.place_inj]

theorem TelnetFlag.place_lt (flag : TelnetFlag) : flag.place < 7 := by
  cases flag <;> decide

theorem TelnetFlag.flag_call (call : TelnetFlag × Bool) :
    (TelnetFlag.call call).flag = call.1.place := by
  obtain ⟨flag, value⟩ := call
  cases value <;> rfl

/-- The session model has a field for each flag; they are what `isSet` answers
for the integers of the header. -/
theorem TelnetFlags.isSet_eq_has
    {Number : Type}
    {numbers : Lua.Numbers Number}
    (few : 7 ≤ numbers.limit)
    {generated : Lua.Generated Number}
    (ran : Lua.enum numbers true telnetFlags = .ok generated)
    (calls : List (TelnetFlag × Bool))
    (flag : TelnetFlag) :
    BitEnum.isSet
        (BitEnum.run (headerFlag numbers telnetFlags generated)
          (calls.map TelnetFlag.call))
        (headerFlag numbers telnetFlags generated flag.place) =
      (TelnetFlags.after calls).has flag := by
  obtain ⟨implicit, noAll, count⟩ := telnetFlags_plain
  have bit : ∀ flag : TelnetFlag,
      headerFlag numbers telnetFlags generated flag.place =
        BitVec.twoPow 32 flag.place := fun flag =>
    headerFlag_eq implicit noAll (count ▸ few) ran (count ▸ flag.place_lt)
  rw [TelnetFlags.has_after, BitEnum.isSet_run _ (bit flag)]
  · have small : flag.place < 31 := flag.place_lt.trans (by decide)
    simp [small]
  · intro call member
    obtain ⟨origin, -, rfl⟩ := List.mem_map.mp member
    rw [TelnetFlag.flag_call]
    exact bit origin.1

end Common
end Lotospp
