import Lotospp.Common.EnumTable
import Mathlib.Data.List.Dedup
import Mathlib.Data.List.Sort
import Mathlib.Data.List.TakeWhile

/-!
# The search for a login command

`User::login` walks through the table of `LoginCom` until a name matches the
line, and then switches on the value at the iterator, whichever way the loop
has ended.  Behind the end of the table there is no value.
-/

namespace Lotospp
namespace Common

open Text

namespace EnumTable

/-- The keys of `enum_to_string`, in the order of the map. -/
def keys (entries : List EnumEntry) : List Int :=
  (entries.map EnumEntry.e).dedup.insertionSort (· ≤ ·)

/-- An iterator into `enum_to_string`: the keys from its element on.  There
are none at the end. -/
abbrev Iterator : Type := List Int

/-- `(*it).value()`. -/
def valueAt : (it : Iterator) → Except EnumError Int
  | [] => .error .pastEnd
  | e :: _ => .ok e

/-- The loop of `User::login` over the table, from an iterator on. -/
def searchLoop (table : EnumTable) (inpstr : Bytes) :
    (it : Iterator) → Except EnumError Iterator
  | [] => .ok []
  | e :: rest => do
      if iequals (← table.toString e) inpstr then pure (e :: rest)
      else searchLoop table inpstr rest

/-- The value that `User::login` switches on. -/
def loginCommand
    (enumName : Bytes)
    (entries : List EnumEntry)
    (inpstr : Bytes) : Except EnumError Int := do
  valueAt (← searchLoop (filled enumName entries) inpstr (keys entries))

/-- The name of a value is the line, up to case. -/
def isNamed (table : EnumTable) (inpstr : Bytes) (e : Int) : Bool :=
  match table.toString e with
  | .ok name => iequals name inpstr
  | .error _ => false

/-- The iterator points to an entry, and this is the entry of which the name
is the line. -/
def FindsCommand
    (enumName : Bytes)
    (entries : List EnumEntry)
    (inpstr : Bytes) : Prop :=
  ∃ e ∈ keys entries, loginCommand enumName entries inpstr = .ok e ∧
    ∀ other ∈ keys entries,
      other = e ↔ (filled enumName entries).isNamed inpstr other = true

section Search

variable (enumName : Bytes) (entries : List EnumEntry) (inpstr : Bytes)

theorem toString_of_mem_keys
    {e : Int}
    (inside : e ∈ keys entries) :
    ∃ name, (filled enumName entries).toString e = .ok name := by
  rw [keys, List.mem_insertionSort, List.mem_dedup, List.mem_map] at inside
  obtain ⟨entry, isEntry, rfl⟩ := inside
  have known : namesOf entries entry.e ≠ [] := by
    intro unnamed
    have missing : (filled enumName entries).enumToString entry.e = none := by
      rw [enumToString_filled, if_pos unnamed]
    rw [enumToString_filled_eq_none_iff] at missing
    exact missing entry isEntry rfl
  obtain ⟨name, others, named⟩ := List.exists_cons_of_ne_nil known
  refine ⟨name, ?_⟩
  rw [toString, enumToString_filled, if_neg known, named]

/-- The loop ends at the first name that is the line, or at the end. -/
theorem searchLoop_eq
    {table : EnumTable}
    {it : Iterator}
    (named : ∀ e ∈ it, ∃ name, table.toString e = .ok name) :
    searchLoop table inpstr it =
      .ok (it.dropWhile fun e => !table.isNamed inpstr e) := by
  induction it with
  | nil => rfl
  | cons e rest inductionHypothesis =>
      obtain ⟨⟨name, toString_eq⟩, namedRest⟩ := List.forall_mem_cons.mp named
      have isNamed_eq : table.isNamed inpstr e = iequals name inpstr := by
        rw [isNamed, toString_eq]
      rw [searchLoop, toString_eq]
      cases found : iequals name inpstr with
      | true =>
          rw [List.dropWhile_cons_of_neg (by simp [isNamed_eq, found])]
          simp [bind, Except.bind, found, pure, Except.pure]
      | false =>
          rw [List.dropWhile_cons_of_pos (by simp [isNamed_eq, found]),
            ← inductionHypothesis namedRest]
          simp [bind, Except.bind, found]

/-- The value that is read is the first with the name, or what stands behind
the end. -/
theorem loginCommand_eq :
    loginCommand enumName entries inpstr =
      match (keys entries).find? ((filled enumName entries).isNamed inpstr) with
      | some e => .ok e
      | none => .error .pastEnd := by
  have named : ∀ e ∈ keys entries,
      ∃ name, (filled enumName entries).toString e = .ok name :=
    fun e inside => toString_of_mem_keys enumName entries inside
  rw [loginCommand, searchLoop_eq inpstr named, List.find?_eq_head?_dropWhile_not]
  simp only [bind, Except.bind]
  cases (keys entries).dropWhile
    fun e => !(filled enumName entries).isNamed inpstr e <;> rfl

/-- The search finds the command exactly if one entry of the table has the
line as its name. -/
theorem findsCommand_iff_existsUnique :
    FindsCommand enumName entries inpstr ↔
      ∃! e, e ∈ keys entries ∧
        (filled enumName entries).isNamed inpstr e = true := by
  constructor
  · rintro ⟨e, inside, -, only⟩
    refine ⟨e, ⟨inside, (only e inside).mp rfl⟩, ?_⟩
    rintro other ⟨otherInside, named⟩
    exact (only other otherInside).mpr named
  · rintro ⟨e, ⟨inside, named⟩, unique⟩
    refine ⟨e, inside, ?_, fun other otherInside => ⟨?_, fun otherNamed =>
      unique other ⟨otherInside, otherNamed⟩⟩⟩
    · rw [loginCommand_eq]
      cases found : (keys entries).find?
          ((filled enumName entries).isNamed inpstr) with
      | none => exact absurd named (List.find?_eq_none.mp found e inside)
      | some first =>
          rw [unique first ⟨List.mem_of_find?_eq_some found,
            List.find?_some found⟩]
    · rintro rfl
      exact named

/-- Among entries with distinct values, the line is the name of an entry. -/
theorem isNamed_iff
    {entries : List EnumEntry}
    (distinct : (entries.map EnumEntry.e).Nodup)
    (e : Int) :
    (filled enumName entries).isNamed inpstr e = true ↔
      ∃ entry ∈ entries, entry.e = e ∧ iequals entry.str inpstr = true := by
  have names : ∀ entry ∈ entries,
      (filled enumName entries).isNamed inpstr entry.e =
        iequals entry.str inpstr := by
    intro entry inside
    rw [isNamed, (inverts enumName distinct).string entry inside]
  constructor
  · intro named
    by_cases known : ∀ entry ∈ entries, entry.e ≠ e
    · have missing := (enumToString_filled_eq_none_iff enumName entries e).mpr
        known
      simp [isNamed, toString, missing, conversionError] at named
    · push Not at known
      obtain ⟨entry, inside, rfl⟩ := known
      rw [names entry inside] at named
      exact ⟨entry, inside, rfl, named⟩
  · rintro ⟨entry, inside, rfl, named⟩
    rw [names entry inside, named]

end Search

end EnumTable

namespace LoginCom

open EnumTable

/-- The entries of `LoginCom`. -/
def entries : List EnumEntry :=
  table.map fun entry => ⟨entry.1, entry.2, []⟩

theorem keys_entries : keys entries = [0, 1, 2] := by
  decide

/-- The search is the one that `User::login` makes, where some value stands
behind the end of the table. -/
theorem search_eq (pastEnd : Int) (inpstr : Bytes) :
    search pastEnd inpstr =
      match loginCommand (lit "LoginCom") entries inpstr with
      | .ok e => e
      | .error _ => pastEnd := by
  have isQuit : (filled (lit "LoginCom") entries).isNamed inpstr 0 =
      iequals (lit "quit") inpstr := rfl
  have isWho : (filled (lit "LoginCom") entries).isNamed inpstr 1 =
      iequals (lit "who") inpstr := rfl
  have isVersion : (filled (lit "LoginCom") entries).isNamed inpstr 2 =
      iequals (lit "version") inpstr := rfl
  rw [loginCommand_eq, keys_entries, search, table]
  simp only [List.find?_cons, List.find?_nil, isQuit, isWho, isVersion]
  cases iequals (lit "quit") inpstr <;> cases iequals (lit "who") inpstr <;>
    cases iequals (lit "version") inpstr <;> rfl

/-- The search finds a login command in a table exactly if one entry has the
line as its name; for the table of `LoginCom`, exactly if the line is one of
the three commands. -/
theorem findsCommand_iff
    (enumName : Bytes)
    (initialised : List EnumEntry)
    (inpstr : Bytes) :
    (FindsCommand enumName initialised inpstr ↔
      ∃! e, e ∈ keys initialised ∧
        (filled enumName initialised).isNamed inpstr e = true) ∧
    (FindsCommand (lit "LoginCom") entries inpstr ↔
      ∃ entry ∈ table, iequals entry.2 inpstr = true) := by
  refine ⟨findsCommand_iff_existsUnique enumName initialised inpstr, ?_⟩
  have named := isNamed_iff (lit "LoginCom") inpstr
    (show (entries.map EnumEntry.e).Nodup by decide)
  have lowered : ∀ entry ∈ entries, ∀ other ∈ entries,
      toLowerCopy entry.str = toLowerCopy other.str → entry = other := by
    decide
  rw [findsCommand_iff_existsUnique]
  constructor
  · rintro ⟨e, ⟨-, isName⟩, -⟩
    obtain ⟨entry, inside, -, same⟩ := (named e).mp isName
    obtain ⟨row, isRow, rfl⟩ := List.mem_map.mp inside
    exact ⟨row, isRow, same⟩
  · rintro ⟨row, isRow, same⟩
    have inside : (⟨row.1, row.2, []⟩ : EnumEntry) ∈ entries :=
      List.mem_map_of_mem isRow
    have allKeys : ∀ row ∈ table, row.1 ∈ keys entries := by decide
    refine ⟨row.1, ⟨allKeys row isRow, (named _).mpr ⟨_, inside, rfl, same⟩⟩,
      ?_⟩
    rintro other ⟨-, isName⟩
    obtain ⟨entry, isEntry, rfl, sameToo⟩ := (named other).mp isName
    rw [iequals_eq_true_iff] at same sameToo
    rw [lowered entry isEntry _ inside (sameToo.trans same.symm)]

/-- A name is looked for in vain, and the iterator behind the table is
read. -/
theorem findsCommand_name :
    loginCommand (lit "LoginCom") entries (lit "bob") = .error .pastEnd ∧
      ¬ ∀ inpstr : Bytes,
        FindsCommand (lit "LoginCom") entries inpstr := by
  have behind : loginCommand (lit "LoginCom") entries (lit "bob") =
      .error .pastEnd := by
    decide +kernel
  refine ⟨behind, fun always => ?_⟩
  obtain ⟨e, -, found, -⟩ := always (lit "bob")
  rw [behind] at found
  cases found

end LoginCom
end Common
end Lotospp
