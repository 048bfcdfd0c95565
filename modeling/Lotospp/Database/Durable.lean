import Lotospp.Database.Accounts

/-!
# What the table keeps

Committed rows stay in front of the table, whichever queries fail, and a row
that is in the table without having been there from the start has been
inserted.
-/

namespace Lotospp
namespace Database

open Text

/-- The table still has these rows in front, committed, and all its rows have
a property. -/
structure Users.Grown
    (base : List Row)
    (genuine : Row → Prop)
    (users : Users) : Prop where
  /-- The rows are committed. -/
  stored : base <+: users.committed
  /-- The committed rows are in front. -/
  settled : users.committed <+: users.rows
  /-- All rows have the property. -/
  genuine : ∀ row ∈ users.rows, genuine row

namespace Users.Grown

variable {base : List Row} {genuine : Row → Prop} {users after : Users}

/-- The rows are in front. -/
theorem kept (grown : users.Grown base genuine) : base <+: users.rows :=
  grown.stored.trans grown.settled

theorem table
    (grown : users.Grown base genuine)
    (same : SameTable users after) : after.Grown base genuine := by
  have committed : after.committed = users.committed := by
    rw [committed, committed, same.1, same.2]
  refine ⟨?_, ?_, ?_⟩
  · rw [committed]
    exact grown.stored
  · rw [committed, same.1]
    exact grown.settled
  · rw [same.1]
    exact grown.genuine

theorem mono
    {genuine' : Row → Prop}
    (grown : users.Grown base genuine)
    (weaker : ∀ row, genuine row → genuine' row) :
    users.Grown base genuine' where
  stored := grown.stored
  settled := grown.settled
  genuine row inside := weaker row (grown.genuine row inside)

/-- From now on the committed rows are kept. -/
theorem rebase (grown : users.Grown base genuine) :
    users.Grown users.committed genuine where
  stored := List.prefix_rfl
  settled := grown.settled
  genuine := grown.genuine

/-! ## Queries -/

variable (fails : Nat → Bool)

theorem beginTransaction (grown : users.Grown base genuine) :
    (users.beginTransaction fails).2.Grown base genuine := by
  rw [Users.beginTransaction]
  split
  · exact grown.table ⟨rfl, rfl⟩
  · exact ⟨grown.kept, List.prefix_rfl, grown.genuine⟩

/-- A row is inserted behind the others; without a transaction it is committed
at once. -/
theorem insert
    (grown : users.Grown base genuine)
    (login password : Bytes)
    (level : Nat)
    (added : genuine ⟨users.nextId, login, password, level⟩) :
    (users.insert fails login password level).2.Grown base genuine := by
  rw [Users.insert]
  split
  · exact grown.table ⟨rfl, rfl⟩
  · have longer : users.rows <+:
        users.rows ++ [⟨users.nextId, login, password, level⟩] :=
      List.prefix_append ..
    refine ⟨?_, ?_, ?_⟩
    · cases undo : users.undo with
      | none => simpa [committed, counted, undo] using grown.kept.trans longer
      | some rows => simpa [committed, counted, undo] using grown.stored
    · cases undo : users.undo with
      | none => simp [committed, counted, undo]
      | some rows =>
          have settled := grown.settled
          rw [committed, undo, Option.getD_some] at settled
          simpa [committed, counted, undo] using settled.trans longer
    · intro row inside
      rcases List.mem_append.mp inside with before | last
      · exact grown.genuine row before
      · rw [List.mem_singleton.mp last]
        exact added

theorem commit (grown : users.Grown base genuine) :
    (users.commit fails).2.Grown base genuine := by
  rw [Users.commit]
  split
  · exact grown.table ⟨rfl, rfl⟩
  · exact ⟨grown.kept, List.prefix_rfl, grown.genuine⟩

/-- A rollback goes back to the committed rows. -/
theorem rollback (grown : users.Grown base genuine) :
    (users.rollback fails).2.Grown base genuine := by
  rw [Users.rollback]
  split
  · exact grown.table ⟨rfl, rfl⟩
  · refine ⟨grown.stored, List.prefix_rfl, fun row inside => ?_⟩
    exact grown.genuine row (grown.settled.subset inside)

end Users.Grown
end Database
end Lotospp
