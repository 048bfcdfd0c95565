import Lotospp.Common.Enums
import Mathlib.Data.List.Induction
import Mathlib.Data.List.Nodup
import Mathlib.Logic.Function.Basic

/-!
# The tables of an enumeration

The class template `Enum` keeps four maps, which its `initialize` fills with
`initAddValue`, and searches them in both directions.  `toString` and `exists`
test the result of their search; in the other lookups the test is the other
way round: they throw for what they find, and dereference the end of the map
for what they do not.
-/

namespace Lotospp
namespace Common

open Text

/-- The static members of an instance of `Enum`. -/
structure EnumTable where
  /-- The name of the enumeration. -/
  enumName : Bytes
  /-- The names of every value. -/
  enumToString : Int → Option (List Bytes) := fun _ => none
  /-- The registered text of every value that has one. -/
  enumToValue : Int → Option Bytes := fun _ => none
  /-- The value of every name. -/
  stringToEnum : Bytes → Option Int := fun _ => none
  /-- The value of every name in lower case. -/
  lstringToEnum : Bytes → Option Int := fun _ => none

/-- How a lookup fails. -/
inductive EnumError
  /-- The exception `enum_conversion_error` with its text. -/
  | conversion (what : Bytes)
  /-- The element behind the end of a map is read. -/
  | pastEnd
  deriving DecidableEq, Repr

/-- The lookup throws `enum_conversion_error`. -/
def Throws {α : Type} (result : Except EnumError α) : Prop :=
  ∃ what, result = .error (.conversion what)

/-- The arguments of a call of `initAddValue`. -/
structure EnumEntry where
  /-- The value. -/
  e : Int
  /-- Its name. -/
  str : Bytes
  /-- Its registered text. -/
  value : Bytes
  deriving DecidableEq, Repr

namespace EnumTable

/-- The exception that a lookup throws. -/
def conversionError {α : Type} (table : EnumTable) (problem key : Bytes) :
    Except EnumError α :=
  .error (.conversion
    (lit "Enum " ++ table.enumName ++ problem ++ lit " (" ++ key ++ lit ")"))

/-- `Enum::initAddValue`. -/
def initAddValue (table : EnumTable) (entry : EnumEntry) : EnumTable :=
  { table with
    enumToString := Function.update table.enumToString entry.e
      (some ((table.enumToString entry.e).getD [] ++ [entry.str]))
    enumToValue :=
      if entry.value.length ≠ 0 ∧ table.enumToValue entry.e = none then
        Function.update table.enumToValue entry.e (some entry.value)
      else table.enumToValue
    stringToEnum :=
      Function.update table.stringToEnum entry.str (some entry.e)
    lstringToEnum :=
      Function.update table.lstringToEnum (toLowerCopy entry.str)
        (some entry.e) }

/-- The table after `initialize`. -/
def filled (enumName : Bytes) (entries : List EnumEntry) : EnumTable :=
  entries.foldl initAddValue { enumName := enumName }

/-- `Enum::toString`. -/
def toString (table : EnumTable) (e : Int) : Except EnumError Bytes :=
  match table.enumToString e with
  | some (str :: _) => .ok str
  | some [] => .error .pastEnd
  | none => table.conversionError (lit " value out of range") (lit e.repr)

/-- A search whose test is `==end()` where `!=end()` is meant: it answers the
element behind the end of the map, and throws where it finds the key. -/
def reversedSearch {Key Value Answer : Type} (table : EnumTable)
    (map : Key → Option Value) (key : Key) (problem text : Bytes) :
    Except EnumError Answer :=
  match map key with
  | none => .error .pastEnd
  | some _ => table.conversionError problem text

/-- `Enum::toValue`. -/
def toValue (table : EnumTable) (e : Int) : Except EnumError Bytes :=
  table.reversedSearch table.enumToValue e (lit " value out of range")
    (lit e.repr)

/-- `Enum::toStrings`: the test is reversed too, and what is found gives no
names. -/
def toStrings (table : EnumTable) (e : Int) : Except EnumError (List Bytes) :=
  match table.enumToString e with
  | none => .error .pastEnd
  | some _ => .ok []

/-- `Enum::fromString`. -/
def fromString (table : EnumTable) (str : Bytes) : Except EnumError Int :=
  table.reversedSearch table.stringToEnum str (lit " value does not exist") str

/-- `Enum::fromInteger`. -/
def fromInteger (table : EnumTable) (id : Int) : Except EnumError Int :=
  table.reversedSearch table.enumToString id (lit " value is invalid")
    (lit id.repr)

/-- `Enum::fromStringI`: the key is not changed to lower case. -/
def fromStringI (table : EnumTable) (str : Bytes) : Except EnumError Int :=
  table.reversedSearch table.lstringToEnum str (lit " value out of range") str

/-- `Enum::exists`. -/
def exists_ (table : EnumTable) (v : Int) : Bool :=
  (table.enumToString v).isSome

/-! ## Filling the maps -/

@[simp] theorem filled_nil (enumName : Bytes) :
    filled enumName [] = { enumName := enumName } := rfl

@[simp] theorem filled_append_singleton
    (enumName : Bytes)
    (entries : List EnumEntry)
    (entry : EnumEntry) :
    filled enumName (entries ++ [entry]) =
      (filled enumName entries).initAddValue entry := by
  simp [filled]

/-- The names that the entries give a value. -/
def namesOf (entries : List EnumEntry) (e : Int) : List Bytes :=
  (entries.filter fun entry => entry.e = e).map EnumEntry.str

@[simp] theorem namesOf_append_singleton
    (entries : List EnumEntry)
    (entry : EnumEntry)
    (e : Int) :
    namesOf (entries ++ [entry]) e =
      namesOf entries e ++ if entry.e = e then [entry.str] else [] := by
  by_cases same : entry.e = e <;> simp [namesOf, same]

/-- Among entries with distinct values each one gives the only name. -/
theorem namesOf_of_mem
    {entries : List EnumEntry}
    (distinct : (entries.map EnumEntry.e).Nodup)
    {entry : EnumEntry}
    (inside : entry ∈ entries) : namesOf entries entry.e = [entry.str] := by
  obtain ⟨before, after, rfl⟩ := List.append_of_mem inside
  rw [List.map_append, List.map_cons, List.nodup_middle, List.nodup_cons]
    at distinct
  have others : ∀ other ∈ before ++ after, other.e ≠ entry.e := by
    intro other elsewhere same
    apply distinct.1
    rw [← List.map_append, ← same]
    exact List.mem_map_of_mem elsewhere
  have inFront := fun other elsewhere =>
    others other (List.mem_append_left after elsewhere)
  have behind := fun other elsewhere =>
    others other (List.mem_append_right before elsewhere)
  rw [namesOf, List.filter_append, List.filter_cons_of_pos (by simp),
    List.filter_eq_nil_iff.mpr (by simpa using inFront),
    List.filter_eq_nil_iff.mpr (by simpa using behind)]
  rfl

/-- A value has all the names that its entries give it. -/
theorem enumToString_filled
    (enumName : Bytes)
    (entries : List EnumEntry)
    (e : Int) :
    (filled enumName entries).enumToString e =
      if namesOf entries e = [] then none else some (namesOf entries e) := by
  induction entries using List.reverseRecOn with
  | nil => rfl
  | append_singleton entries entry inductionHypothesis =>
      rw [filled_append_singleton, initAddValue, namesOf_append_singleton]
      by_cases same : entry.e = e
      · subst same
        have known : ((filled enumName entries).enumToString entry.e).getD [] =
            namesOf entries entry.e := by
          rw [inductionHypothesis]
          split
          · next unnamed => rw [unnamed, Option.getD_none]
          · rfl
        simp only [Function.update_self, known, if_true]
        rw [if_neg (by simp)]
      · rw [if_neg same, List.append_nil, ← inductionHypothesis]
        exact Function.update_of_ne (Ne.symm same) ..

/-- A map that holds one more key. -/
theorem update_some_eq_none_iff
    {Key Value : Type}
    [DecidableEq Key]
    (map : Key → Option Value)
    (key other : Key)
    (value : Value) :
    Function.update map key (some value) other = none ↔
      map other = none ∧ key ≠ other := by
  by_cases same : key = other
  · simp [same]
  · simp [Function.update_of_ne (Ne.symm same), same]

/-- The values with a text are those of the entries with a text. -/
theorem enumToValue_filled_eq_none_iff
    (enumName : Bytes)
    (entries : List EnumEntry)
    (e : Int) :
    (filled enumName entries).enumToValue e = none ↔
      ∀ entry ∈ entries, entry.value ≠ [] → entry.e ≠ e := by
  induction entries using List.reverseRecOn with
  | nil => simp
  | append_singleton entries entry inductionHypothesis =>
      rw [filled_append_singleton, initAddValue, List.forall_mem_append,
        List.forall_mem_singleton, ← inductionHypothesis]
      simp only [ne_eq, ← List.length_eq_zero_iff]
      by_cases textless : entry.value.length = 0
      · simp [textless]
      by_cases missing : (filled enumName entries).enumToValue entry.e = none
      · simp [textless, missing, update_some_eq_none_iff]
      · have known : entry.e = e →
            (filled enumName entries).enumToValue e ≠ none := by
          rintro rfl
          exact missing
        simp only [textless, missing, and_false, if_false]
        tauto

section Keys

variable {Key Value : Type} [DecidableEq Key] {enumName : Bytes}

/-- A map that gets a key of every entry has the keys of the entries. -/
theorem filled_eq_none_iff
    {map : EnumTable → Key → Option Value}
    {keyOf : EnumEntry → Key}
    {key : Key}
    (empty : map { enumName := enumName } key = none)
    (adds : ∀ table entry, ∃ value, map (table.initAddValue entry) =
      Function.update (map table) (keyOf entry) (some value))
    (entries : List EnumEntry) :
    map (filled enumName entries) key = none ↔
      ∀ entry ∈ entries, keyOf entry ≠ key := by
  induction entries using List.reverseRecOn with
  | nil => simpa using empty
  | append_singleton entries entry inductionHypothesis =>
      obtain ⟨value, added⟩ := adds (filled enumName entries) entry
      rw [filled_append_singleton, added, update_some_eq_none_iff,
        inductionHypothesis, List.forall_mem_append, List.forall_mem_singleton]

end Keys

/-- The values in the table are those of the entries. -/
theorem enumToString_filled_eq_none_iff
    (enumName : Bytes)
    (entries : List EnumEntry)
    (e : Int) :
    (filled enumName entries).enumToString e = none ↔
      ∀ entry ∈ entries, entry.e ≠ e :=
  filled_eq_none_iff rfl (fun _ _ => ⟨_, rfl⟩) entries

/-- The names in the table are those of the entries. -/
theorem stringToEnum_filled_eq_none_iff
    (enumName : Bytes)
    (entries : List EnumEntry)
    (str : Bytes) :
    (filled enumName entries).stringToEnum str = none ↔
      ∀ entry ∈ entries, entry.str ≠ str :=
  filled_eq_none_iff rfl (fun _ _ => ⟨_, rfl⟩) entries

/-- The names in lower case are those of the entries. -/
theorem lstringToEnum_filled_eq_none_iff
    (enumName : Bytes)
    (entries : List EnumEntry)
    (str : Bytes) :
    (filled enumName entries).lstringToEnum str = none ↔
      ∀ entry ∈ entries, toLowerCopy entry.str ≠ str :=
  filled_eq_none_iff rfl (fun _ _ => ⟨_, rfl⟩) entries

/-! ## Looking up -/

/-- The keys of the entries are distinct. -/
structure Distinct (entries : List EnumEntry) : Prop where
  values : (entries.map EnumEntry.e).Nodup
  names : (entries.map EnumEntry.str).Nodup
  lowered : (entries.map fun entry => toLowerCopy entry.str).Nodup

/-- Every lookup in the table of the entries undoes the other, and those that
search for an entry throw for the keys of no entry. -/
structure Decodes (enumName : Bytes) (entries : List EnumEntry) : Prop where
  present : ∀ entry ∈ entries, (filled enumName entries).exists_ entry.e = true
  integer : ∀ entry ∈ entries,
    (filled enumName entries).fromInteger entry.e = .ok entry.e
  string : ∀ entry ∈ entries,
    ((filled enumName entries).toString entry.e >>=
      (filled enumName entries).fromString) = .ok entry.e
  stringI : ∀ entry ∈ entries, ∀ str, iequals str entry.str = true →
    (filled enumName entries).fromStringI str = .ok entry.e
  strings : ∀ entry ∈ entries, ∃ names,
    (filled enumName entries).toStrings entry.e = .ok names ∧ entry.str ∈ names
  value : ∀ entry ∈ entries, entry.value ≠ [] →
    (filled enumName entries).toValue entry.e = .ok entry.value
  noInteger : ∀ id, Throws ((filled enumName entries).fromInteger id) ↔
    ∀ entry ∈ entries, entry.e ≠ id
  noString : ∀ str, Throws ((filled enumName entries).fromString str) ↔
    ∀ entry ∈ entries, entry.str ≠ str
  noStringI : ∀ str, Throws ((filled enumName entries).fromStringI str) ↔
    ∀ entry ∈ entries, iequals str entry.str = false

/-- What the lookups do: `exists` and `toString` are right, the others fail for
every entry, and the searches throw for the keys of entries. -/
structure Inverts (enumName : Bytes) (entries : List EnumEntry) : Prop where
  present : ∀ entry ∈ entries, (filled enumName entries).exists_ entry.e = true
  string : ∀ entry ∈ entries,
    (filled enumName entries).toString entry.e = .ok entry.str
  strings : ∀ entry ∈ entries,
    (filled enumName entries).toStrings entry.e = .ok []
  value : ∀ entry ∈ entries, entry.value ≠ [] →
    Throws ((filled enumName entries).toValue entry.e)
  integer : ∀ id, Throws ((filled enumName entries).fromInteger id) ↔
    ∃ entry ∈ entries, entry.e = id
  fromName : ∀ str, Throws ((filled enumName entries).fromString str) ↔
    ∃ entry ∈ entries, entry.str = str
  fromNameI : ∀ str, Throws ((filled enumName entries).fromStringI str) ↔
    ∃ entry ∈ entries, toLowerCopy entry.str = str
  notInteger : ∀ id e, (filled enumName entries).fromInteger id ≠ .ok e
  notString : ∀ str e, (filled enumName entries).fromString str ≠ .ok e
  notStringI : ∀ str e, (filled enumName entries).fromStringI str ≠ .ok e

section Reversed

variable {Key Value Answer : Type} (table : EnumTable)
  (map : Key → Option Value) (key : Key) (problem text : Bytes)

/-- A reversed search answers for no key. -/
theorem reversedSearch_ne_ok (answer : Answer) :
    table.reversedSearch map key problem text ≠ .ok answer := by
  rw [reversedSearch]
  cases map key <;> simp [conversionError]

/-- A reversed search throws for the keys of the map. -/
theorem throws_reversedSearch_iff :
    Throws (table.reversedSearch map key problem text :
      Except EnumError Answer) ↔ map key ≠ none := by
  rw [reversedSearch]
  cases map key <;> simp [Throws, conversionError]

end Reversed

/-- The keys that a map does not lack are those of the entries. -/
theorem ne_none_iff
    {Value : Type}
    {found : Option Value}
    {entries : List EnumEntry}
    {isKey : EnumEntry → Prop}
    (missing : found = none ↔ ∀ entry ∈ entries, ¬ isKey entry) :
    found ≠ none ↔ ∃ entry ∈ entries, isKey entry := by
  rw [ne_eq, missing]
  simp

theorem inverts
    (enumName : Bytes)
    {entries : List EnumEntry}
    (distinct : (entries.map EnumEntry.e).Nodup) : Inverts enumName entries where
  present entry inside := by
    rw [exists_, Option.isSome_iff_ne_none, ne_eq,
      enumToString_filled_eq_none_iff]
    exact fun missing => missing entry inside rfl
  string entry inside := by
    rw [toString, enumToString_filled, namesOf_of_mem distinct inside]
    rfl
  strings entry inside := by
    rw [toStrings, enumToString_filled, namesOf_of_mem distinct inside]
    rfl
  value entry inside hasText := by
    rw [toValue, throws_reversedSearch_iff, ne_eq,
      enumToValue_filled_eq_none_iff]
    exact fun missing => missing entry inside hasText rfl
  integer id := (throws_reversedSearch_iff ..).trans
    (ne_none_iff (enumToString_filled_eq_none_iff enumName entries id))
  fromName str := (throws_reversedSearch_iff ..).trans
    (ne_none_iff (stringToEnum_filled_eq_none_iff enumName entries str))
  fromNameI str := (throws_reversedSearch_iff ..).trans
    (ne_none_iff (lstringToEnum_filled_eq_none_iff enumName entries str))
  notInteger _ := reversedSearch_ne_ok _ _ _ _ _
  notString _ := reversedSearch_ne_ok _ _ _ _ _
  notStringI _ := reversedSearch_ne_ok _ _ _ _ _

/-- No table decodes: with distinct keys `exists` and `toString` are right, and
every other lookup fails for every entry. -/
theorem not_decodes
    (enumName : Bytes)
    {entries : List EnumEntry}
    (distinct : Distinct entries) :
    ¬ Decodes enumName entries ∧ Inverts enumName entries := by
  have inverts := inverts enumName distinct.values
  refine ⟨fun decodes => ?_, inverts⟩
  cases entries with
  | nil =>
      obtain ⟨entry, inside, -⟩ :=
        (inverts.integer 0).mp ((decodes.noInteger 0).mpr (by simp))
      exact absurd inside (by simp)
  | cons entry entries =>
      exact inverts.notInteger entry.e entry.e
        (decodes.integer entry List.mem_cons_self)

/-- The entries of `UserLevel`. -/
def userLevels : List EnumEntry :=
  [⟨0, lit "login", []⟩, ⟨1, lit "novice", []⟩, ⟨2, lit "user", []⟩,
    ⟨3, lit "admin", []⟩]

theorem not_decodes_userLevels :
    ¬ Decodes (lit "UserLevel") userLevels ∧
      Inverts (lit "UserLevel") userLevels :=
  not_decodes _ ⟨by decide, by decide, by decide⟩

/-- A stored level of a user is not read back, and an unknown one is not
refused. -/
theorem fromInteger_userLevels :
    (filled (lit "UserLevel") userLevels).fromInteger 1 =
        .error (.conversion (lit "Enum UserLevel value is invalid (1)")) ∧
      (filled (lit "UserLevel") userLevels).fromInteger 7 = .error .pastEnd ∧
      ¬ Decodes (lit "UserLevel") userLevels := by
  have found : (filled (lit "UserLevel") userLevels).fromInteger 1 =
      .error (.conversion (lit "Enum UserLevel value is invalid (1)")) := by
    decide
  refine ⟨found, by decide, fun decodes => ?_⟩
  have read := decodes.integer ⟨1, lit "novice", []⟩ (by decide)
  rw [found] at read
  cases read

/-- The lookup of the levels that loads a user is the one in the table. -/
theorem fromInteger_eq
    (enumName : Bytes)
    (entries : List EnumEntry)
    (pastEnd id : Int) :
    Common.fromInteger (entries.map EnumEntry.e) pastEnd id =
      match (filled enumName entries).fromInteger id with
      | .ok e => some e
      | .error (.conversion _) => none
      | .error .pastEnd => some pastEnd := by
  have keys : id ∈ entries.map EnumEntry.e ↔
      (filled enumName entries).enumToString id ≠ none := by
    rw [ne_none_iff (enumToString_filled_eq_none_iff enumName entries id)]
    exact List.mem_map
  rw [Common.fromInteger, fromInteger, reversedSearch]
  cases found : (filled enumName entries).enumToString id with
  | none => rw [if_neg (by simp [keys, found])]
  | some names =>
      rw [if_pos (keys.mpr (by simp [found]))]
      rfl

end EnumTable
end Common
end Lotospp
