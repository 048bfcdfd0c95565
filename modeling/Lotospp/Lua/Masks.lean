import Lotospp.Lua.Enum

/-!
# Numbering a bitmask

A bitmask may have plain values, null values and values that stand for all
plain ones.  The script marks the last two kinds with fields of the declared
tables, but rebuilds the tables before it numbers them and takes only the
field `null` along, so that it numbers a value for all as a plain one.
-/

namespace Lotospp
namespace Lua

open Text

namespace Declared

/-- The value is marked as null. -/
def isNull : Declared → Bool
  | .table _ null _ => null
  | _ => false

/-- The value is marked as standing for all, and not as null. -/
def isAll : Declared → Bool
  | .table _ null all => !null && all
  | _ => false

/-- The value is not marked. -/
def isPlain (value : Declared) : Bool :=
  !value.isNull && !value.isAll

/-- The value has an integer or a composition behind an equals sign. -/
def isExplicit : Declared → Bool
  | .string text => 61 ∈ text
  | .table (.string text :: _) _ _ => 61 ∈ text
  | _ => false

end Declared

variable {Number : Type}

/-- The integer of an enumerator of the header, if it is written as one. -/
def integerOf (numbers : Numbers Number) : Option (Value Number) → Option Int
  | some (.number number) => numbers.written number
  | _ => none

/-- The integers of the plain values, in order. -/
def plainIntegers (numbers : Numbers Number) (declared : List Declared)
    (generated : Generated Number) : List (Option Int) :=
  ((declared.zip generated.enumerators).filter fun pair => pair.1.isPlain).map
    fun pair => integerOf numbers pair.2.2

/-- Null values are zero, plain ones distinct powers of two, those for all the
sum of the plain ones, and the size is the number of plain ones. -/
structure Masked (numbers : Numbers Number) (declared : List Declared)
    (generated : Generated Number) : Prop where
  null : ∀ pair ∈ declared.zip generated.enumerators,
    pair.1.isNull = true → integerOf numbers pair.2.2 = some 0
  plain : ∃ exponents : List Nat, exponents.Nodup ∧
    plainIntegers numbers declared generated =
      exponents.map fun exponent => some (2 ^ exponent)
  all : ∀ pair ∈ declared.zip generated.enumerators,
    pair.1.isAll = true → integerOf numbers pair.2.2 =
      some ((plainIntegers numbers declared generated).map
        fun integer => integer.getD 0).sum
  size : generated.size = .masks (declared.countP Declared.isPlain)

/-! ## The rebuilt values -/

/-- A value as the loop that numbers a bitmask finds it. -/
structure Unnumbered (declared : Declared) (v : Rebuilt Number) : Prop where
  null : v.null = declared.isNull
  all : v.all = false
  int : v.int = none

/-- The mark for all is lost when a value is rebuilt. -/
theorem unnumbered_rebuild
    {declared : Declared}
    {v : Rebuilt Number}
    (implicit : declared.isExplicit = false)
    (rebuilt : rebuild declared = .ok v) : Unnumbered declared v := by
  cases declared with
  | other => cases rebuilt
  | string text =>
      rw [rebuild, split_of_noEquals
        (by simpa [Declared.isExplicit] using implicit)] at rebuilt
      obtain rfl := Except.ok.inj rebuilt
      exact ⟨rfl, rfl, rfl⟩
  | table items null all =>
      rcases items with _ | ⟨_ | _ | _, items⟩
      · cases rebuilt
      · next text =>
          rw [rebuild, split_of_noEquals
            (by simpa [Declared.isExplicit] using implicit)] at rebuilt
          obtain rfl := Except.ok.inj rebuilt
          exact ⟨rfl, rfl, rfl⟩
      · cases rebuilt
      · cases rebuilt

/-- The loop numbers everything that is not null, in order. -/
structure Numbered (numbers : Numbers Number) (declared : List Declared)
    (mask : Number) (values : List (Rebuilt Number)) : Prop where
  null : ∀ pair ∈ declared.zip values,
    pair.1.isNull = true → pair.2.int = some (.number numbers.zero)
  others : ((declared.zip values).filter fun pair => !pair.1.isNull).map
      (fun pair => pair.2.int) =
    (List.range (declared.countP fun value => !value.isNull)).map
      fun k => some (.number (numbers.double^[k] mask))

theorem Numbered.cons_null
    {numbers : Numbers Number}
    {declared : List Declared}
    {mask : Number}
    {values : List (Rebuilt Number)}
    (numbered : Numbered numbers declared mask values)
    {value : Declared}
    {v : Rebuilt Number}
    (isNull : value.isNull = true)
    (zero : v.int = some (.number numbers.zero)) :
    Numbered numbers (value :: declared) mask (v :: values) where
  null := by
    rw [List.zip_cons_cons, List.forall_mem_cons]
    exact ⟨fun _ => zero, numbered.null⟩
  others := by
    rw [List.zip_cons_cons, List.filter_cons_of_neg (by simp [isNull]),
      List.countP_cons_of_neg (by simp [isNull])]
    exact numbered.others

theorem Numbered.cons_other
    {numbers : Numbers Number}
    {declared : List Declared}
    {mask : Number}
    {values : List (Rebuilt Number)}
    (numbered : Numbered numbers declared (numbers.double mask) values)
    {value : Declared}
    {v : Rebuilt Number}
    (notNull : value.isNull = false)
    (masked : v.int = some (.number mask)) :
    Numbered numbers (value :: declared) mask (v :: values) where
  null := by
    rw [List.zip_cons_cons, List.forall_mem_cons]
    exact ⟨fun isNull => absurd (isNull.symm.trans notNull) (by decide),
      numbered.null⟩
  others := by
    rw [List.zip_cons_cons, List.filter_cons_of_pos (by simp [notNull]),
      List.countP_cons_of_pos (by simp [notNull]), List.map_cons,
      numbered.others, List.range_succ_eq_map, List.map_cons, List.map_map,
      masked]
    rfl

/-- The loop counts what it numbers. -/
theorem automask_numbered
    (numbers : Numbers Number)
    {declared : List Declared}
    {values : List (Rebuilt Number)}
    (unnumbered : List.Forall₂ Unnumbered declared values)
    (mask fullmask : Number)
    (maskCount : Nat) :
    Numbered numbers declared mask
        (automask numbers values mask fullmask maskCount).1 ∧
      (automask numbers values mask fullmask maskCount).2.2 =
        maskCount + declared.countP fun value => !value.isNull := by
  induction unnumbered generalizing mask fullmask maskCount with
  | nil => exact ⟨⟨by simp, rfl⟩, rfl⟩
  | @cons value v declared values first _ inductionHypothesis =>
      rw [automask, first.null, first.all, first.int]
      cases isNull : value.isNull with
      | true =>
          obtain ⟨numbered, count⟩ :=
            inductionHypothesis mask fullmask maskCount
          refine ⟨numbered.cons_null isNull rfl, ?_⟩
          rw [List.countP_cons_of_neg (by simp [isNull])]
          exact count
      | false =>
          obtain ⟨numbered, count⟩ := inductionHypothesis
            (numbers.double mask) (numbers.add fullmask mask) (maskCount + 1)
          refine ⟨numbered.cons_other isNull rfl, ?_⟩
          rw [List.countP_cons_of_pos (by simp [isNull]), ← Nat.add_assoc,
            Nat.add_right_comm]
          exact count

/-- The loop over `allmask` finds no value. -/
theorem map_fillAll
    {declared : List Declared}
    {values numbered : List (Rebuilt Number)}
    (unnumbered : List.Forall₂ Unnumbered declared values)
    (renumbers : List.Forall₂ Renumbers values numbered)
    (fullmask : Number) : numbered.map (fillAll fullmask) = numbered := by
  induction unnumbered generalizing numbered with
  | nil =>
      obtain rfl := List.forall₂_nil_left_iff.mp renumbers
      rfl
  | cons first _ inductionHypothesis =>
      obtain ⟨v, rest, same, others, rfl⟩ :=
        List.forall₂_cons_left_iff.mp renumbers
      have unmarked : v.all = false := by
        rw [same]
        exact first.all
      rw [List.map_cons, inductionHypothesis others, fillAll, unmarked,
        Bool.and_false, if_neg (by decide)]

/-- No value keeps the script from numbering the bitmask. -/
theorem isAutomask_of_unnumbered
    {declared : List Declared}
    {values : List (Rebuilt Number)}
    (unnumbered : List.Forall₂ Unnumbered declared values) :
    isAutomask true values = true := by
  induction unnumbered with
  | nil => rfl
  | cons first _ inductionHypothesis =>
      rw [isAutomask, Bool.true_and] at inductionHypothesis ⊢
      rw [List.all_cons, inductionHypothesis, Rebuilt.hasInteger, first.int]
      rfl

theorem numberValues_true
    (numbers : Numbers Number)
    (values : List (Rebuilt Number)) :
    numberValues numbers true values =
      ((automask numbers values numbers.one numbers.zero 0).1.map (fillAll
        (automask numbers values numbers.one numbers.zero 0).2.1),
        (automask numbers values numbers.one numbers.zero 0).2.2) := rfl

/-- What `enum` makes of a bitmask without integers. -/
theorem enum_numbered
    {numbers : Numbers Number}
    {declared : List Declared}
    {generated : Generated Number}
    (implicit : ∀ value ∈ declared, value.isExplicit = false)
    (ran : enum numbers true declared = .ok generated) :
    ∃ values, Numbered numbers declared numbers.one values ∧
      generated.enumerators = values.map (fun v => (v.first, v.int)) ∧
      generated.size =
        .masks (declared.countP fun value => !value.isNull) := by
  obtain ⟨values, rebuilt, size, -, enumerators⟩ := exists_ran ran
  have unnumbered : List.Forall₂ Unnumbered declared values :=
    ((List.forall₂_and_left _ _).mpr ⟨implicit, rebuilt⟩).imp
      fun declared v both => unnumbered_rebuild both.1 both.2
  have renumbers := automask_renumbers numbers values numbers.one numbers.zero 0
  have numbered := automask_numbered numbers unnumbered numbers.one
    numbers.zero 0
  rw [isAutomask_of_unnumbered unnumbered, numberValues_true,
    map_fillAll unnumbered renumbers] at size enumerators
  rw [enumSize, if_pos rfl, if_pos rfl, numbered.2, Nat.zero_add] at size
  exact ⟨_, numbered.1, enumerators, (Except.ok.inj size).symm⟩

/-! ## The integers of the header -/

/-- Without values for all, the plain values are those that are not null. -/
theorem isPlain_of_noAll
    {value : Declared}
    (notAll : value.isAll = false) : value.isPlain = !value.isNull := by
  rw [Declared.isPlain, notAll, Bool.not_false, Bool.and_true]

theorem countP_isPlain_of_noAll
    {declared : List Declared}
    (noAll : ∀ value ∈ declared, value.isAll = false) :
    declared.countP Declared.isPlain =
      declared.countP fun value => !value.isNull :=
  List.countP_congr fun value inside => by
    rw [isPlain_of_noAll (noAll value inside)]

/-- Values for all are counted as well. -/
theorem noAll_of_countP
    {declared : List Declared}
    (same : declared.countP (fun value => !value.isNull) =
      declared.countP Declared.isPlain) :
    ∀ value ∈ declared, value.isAll = false := by
  have kept : List.Sublist (declared.filter Declared.isPlain)
      (declared.filter fun value => !value.isNull) := by
    apply List.monotone_filter_right
    intro value plain
    exact (Bool.and_eq_true_iff.mp plain).1
  have equal := kept.eq_of_length (by
    rw [← List.countP_eq_length_filter, ← List.countP_eq_length_filter, same])
  intro value inside
  by_contra isAll
  rw [Bool.not_eq_false] at isAll
  have notNull : value.isNull = false := by
    cases value with
    | table items null all =>
        rw [Declared.isAll, Bool.and_eq_true_iff] at isAll
        simpa [Declared.isNull] using isAll.1
    | string text => rfl
    | other => rfl
  have counted : value ∈ declared.filter fun value => !value.isNull :=
    List.mem_filter.mpr ⟨inside, by rw [notNull]; rfl⟩
  rw [← equal] at counted
  have plain := (List.mem_filter.mp counted).2
  rw [Declared.isPlain, isAll] at plain
  simp at plain

/-- Without values for all, the plain ones get the masks of the interpreter. -/
theorem plainIntegers_eq
    {numbers : Numbers Number}
    {declared : List Declared}
    {generated : Generated Number}
    {values : List (Rebuilt Number)}
    (numbered : Numbered numbers declared numbers.one values)
    (enumerators : generated.enumerators = values.map fun v => (v.first, v.int))
    (noAll : ∀ value ∈ declared, value.isAll = false) :
    plainIntegers numbers declared generated =
      (List.range (declared.countP Declared.isPlain)).map
        fun k => numbers.written (numbers.double^[k] numbers.one) := by
  have others := congrArg (List.map (integerOf numbers)) numbered.others
  rw [List.map_map, List.map_map] at others
  rw [plainIntegers, enumerators, countP_isPlain_of_noAll noAll,
    List.zip_map_right, List.filter_map, List.map_map]
  have filtered : (declared.zip values).filter
      ((fun pair => pair.1.isPlain) ∘
        Prod.map id fun v : Rebuilt Number => (v.first, v.int)) =
      (declared.zip values).filter fun pair => !pair.1.isNull :=
    List.filter_congr fun pair inside =>
      isPlain_of_noAll (noAll pair.1 (List.of_mem_zip inside).1)
  rw [filtered]
  exact others

/-- The values of a bitmask without integers come out right exactly when none
of them stands for all and the interpreter writes the mask of every plain
one. -/
theorem masked_iff
    {numbers : Numbers Number}
    {declared : List Declared}
    {generated : Generated Number}
    (implicit : ∀ value ∈ declared, value.isExplicit = false)
    (ran : enum numbers true declared = .ok generated) :
    Masked numbers declared generated ↔
      (∀ value ∈ declared, value.isAll = false) ∧
        declared.countP Declared.isPlain ≤ numbers.limit := by
  obtain ⟨values, numbered, enumerators, size⟩ := enum_numbered implicit ran
  constructor
  · intro masked
    have noAll : ∀ value ∈ declared, value.isAll = false :=
      noAll_of_countP (EnumSize.masks.inj (size.symm.trans masked.size))
    refine ⟨noAll, ?_⟩
    by_contra tooMany
    obtain ⟨exponents, -, same⟩ := masked.plain
    have last : numbers.written
        (numbers.double^[numbers.limit] numbers.one) ∈
          plainIntegers numbers declared generated := by
      rw [plainIntegers_eq numbered enumerators noAll]
      exact List.mem_map.mpr
        ⟨numbers.limit, List.mem_range.mpr (Nat.lt_of_not_le tooMany), rfl⟩
    rw [same] at last
    obtain ⟨exponent, -, written⟩ := List.mem_map.mp last
    exact numbers.inexact exponent written.symm
  · rintro ⟨noAll, few⟩
    have integers := plainIntegers_eq numbered enumerators noAll
    refine ⟨?_, ⟨List.range (declared.countP Declared.isPlain),
      List.nodup_range, ?_⟩, ?_, ?_⟩
    · rw [enumerators, List.zip_map_right]
      intro pair inside isNull
      obtain ⟨unwritten, unwrittenInside, rfl⟩ := List.mem_map.mp inside
      have zero := numbered.null unwritten unwrittenInside isNull
      rw [Prod.map_snd, zero]
      exact numbers.written_zero
    · rw [integers]
      apply List.map_congr_left
      intro k small
      exact numbers.exact k ((List.mem_range.mp small).trans_le few)
    · intro pair inside isAll
      have unmarked := noAll pair.1 (List.of_mem_zip inside).1
      exact absurd (isAll.symm.trans unmarked) (by decide)
    · rw [size, countP_isPlain_of_noAll noAll]

/-- Two flags and a null value. -/
def flags : List Declared :=
  [.string (lit "ECHO"), .table [.string (lit "NONE")] true false,
    .string (lit "SGA")]

theorem masked_flags :
    (∀ value ∈ flags, value.isExplicit = false) ∧
      ∃ generated, enum Numbers.integers true flags = .ok generated ∧
        (Masked Numbers.integers flags generated ↔
          (∀ value ∈ flags, value.isAll = false) ∧
            flags.countP Declared.isPlain ≤ 63) := by
  have implicit : ∀ value ∈ flags, value.isExplicit = false := by decide
  have ran : enum Numbers.integers true flags =
      .ok ⟨[(lit "ECHO", some (.number 1)), (lit "NONE", some (.number 0)),
        (lit "SGA", some (.number 2))], .masks 2,
        [⟨lit "ECHO", lit "ECHO", .missing⟩,
          ⟨lit "NONE", lit "NONE", .missing⟩,
          ⟨lit "SGA", lit "SGA", .missing⟩]⟩ := rfl
  exact ⟨implicit, _, ran, masked_iff implicit ran⟩

/-- Two flags and a value for both. -/
def flagsAndBoth : List Declared :=
  [.string (lit "ECHO"), .string (lit "SGA"),
    .table [.string (lit "BOTH")] false true]

/-- The value for both flags gets a mask of its own, and is counted. -/
theorem not_masked_flagsAndBoth :
    (∀ value ∈ flagsAndBoth, value.isExplicit = false) ∧
      ∃ generated, enum Numbers.integers true flagsAndBoth = .ok generated ∧
        generated.enumerators.map (fun enumerator =>
          integerOf Numbers.integers enumerator.2) = [some 1, some 2, some 4] ∧
        generated.size = .masks 3 ∧
        ¬ Masked Numbers.integers flagsAndBoth generated := by
  refine ⟨by decide, _, rfl, rfl, rfl, fun masked => ?_⟩
  exact absurd (EnumSize.masks.inj masked.size) (by decide)

end Lua
end Lotospp
