import Lotospp.Database.Users

/-!
# Accounts

What the queries of the session code do to the accounts: a row that is added
is found under its login, and the accounts of other logins stay as they are.
-/

namespace Lotospp
namespace Database

open Text

/-- The queries have left the table and the transaction as they were. -/
def SameTable (users after : Users) : Prop :=
  after.rows = users.rows ∧ after.undo = users.undo

/-- No two rows have the same login. -/
def DistinctLogins (rows : List Row) : Prop :=
  rows.Pairwise fun left right => ¬ iequals left.login right.login

instance (rows : List Row) : Decidable (DistinctLogins rows) :=
  inferInstanceAs (Decidable (rows.Pairwise fun left right =>
    ¬ iequals left.login right.login))

namespace SameTable

variable {users middle after : Users}

theorem refl (users : Users) : SameTable users users :=
  ⟨rfl, rfl⟩

theorem of_eq (same : after = users) : SameTable users after := by
  rw [same]
  exact refl users

theorem trans
    (first : SameTable users middle)
    (second : SameTable middle after) : SameTable users after :=
  ⟨second.1.trans first.1, second.2.trans first.2⟩

/-- A query for a login changes nothing. -/
theorem select (fails : Nat → Bool) (users : Users) (login : Bytes) :
    SameTable users (users.select fails login).2 := by
  unfold Users.select
  split <;> exact refl users

theorem lookup (same : SameTable users after) (login : Bytes) :
    after.lookup login = users.lookup login := by
  unfold Users.lookup
  rw [same.1]

end SameTable

namespace Users

variable {users : Users} {login other : Bytes}

/-- A row that is found has the login that was asked for. -/
theorem mem_of_lookup
    {row : Row}
    (found : users.lookup login = some row) :
    row ∈ users.rows ∧ iequals row.login login :=
  ⟨List.mem_of_find?_eq_some found, by simpa using List.find?_some found⟩

/-- Nothing is found if and only if no row has the login. -/
theorem lookup_eq_none_iff :
    users.lookup login = none ↔
      ∀ row ∈ users.rows, ¬ iequals row.login login := by
  simp [lookup]

/-- The case of a login makes no difference. -/
theorem lookup_congr (same : iequals login other) :
    users.lookup login = users.lookup other := by
  have lower : toLowerCopy login = toLowerCopy other := by simpa using same
  simp [lookup, iequals, lower]

/-- A query that works finds what is stored. -/
theorem select_of_works
    {fails : Nat → Bool}
    (works : fails users.queries = false) :
    (users.select fails login).1 = users.lookup login := by
  simp [select, works]

/-- What a query finds is stored. -/
theorem lookup_of_select
    {fails : Nat → Bool}
    {row : Row}
    (found : (users.select fails login).1 = some row) :
    users.lookup login = some row := by
  unfold select at found
  split at found
  · exact absurd found (by simp)
  · exact found

section Append

variable {after : Users} {row : Row}

/-- An account that is added leaves the others. -/
theorem lookup_append_of_ne
    (added : after.rows = users.rows ++ [row])
    (different : ¬ iequals row.login other) :
    after.lookup other = users.lookup other := by
  have alone : [row].find? (fun row => iequals row.login other) = none := by
    simpa using different
  rw [lookup, added, List.find?_append, alone, Option.or_none]
  rfl

/-- Accounts stay. -/
theorem lookup_append_ne_none
    (added : after.rows = users.rows ++ [row])
    (found : users.lookup other ≠ none) : after.lookup other ≠ none := by
  obtain ⟨first, isFirst⟩ := Option.ne_none_iff_exists'.mp found
  rw [lookup] at isFirst
  rw [lookup, added, List.find?_append, isFirst, Option.some_or]
  exact Option.some_ne_none first

/-- An account that is added is found. -/
theorem lookup_append_self
    (added : after.rows = users.rows ++ [row]) :
    after.lookup row.login ≠ none := by
  rw [Ne, lookup_eq_none_iff]
  intro none
  exact none row (by simp [added]) (iequals_refl row.login)

end Append

end Users

/-- An account with a new login can be added. -/
theorem DistinctLogins.append
    {users after : Users}
    {row : Row}
    (distinct : DistinctLogins users.rows)
    (added : after.rows = users.rows ++ [row])
    (free : users.lookup row.login = none) : DistinctLogins after.rows := by
  rw [DistinctLogins, added]
  refine List.pairwise_append.mpr ⟨distinct, List.pairwise_singleton .., ?_⟩
  intro stored inside last isLast
  rw [List.mem_singleton.mp isLast]
  exact Users.lookup_eq_none_iff.mp free stored inside

end Database
end Lotospp
