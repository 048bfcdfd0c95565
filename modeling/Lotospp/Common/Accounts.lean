import Lotospp.Common.Credentials
import Lotospp.Database.Accounts

/-!
# What a line does to the accounts

Only the confirmation of a password adds an account, and only when the queries
for it work.  All other lines leave the table as it is.
-/

namespace Lotospp
namespace Common

open Text Effect Commands Strings Database

/-- The session awaits a password or its confirmation. -/
def Credentials.Pending (credentials : Credentials) : Prop :=
  credentials.level = .login ∧
    (credentials.stage = .loginPwd ∨ credentials.stage = .loginReenterPwd)

theorem Credentials.not_pending
    {credentials : Credentials}
    (pwd : credentials.stage ≠ .loginPwd)
    (reenter : credentials.stage ≠ .loginReenterPwd) :
    ¬ credentials.Pending := by
  rintro ⟨-, stage | stage⟩
  · exact pwd stage
  · exact reenter stage

/-- A name keeps its letters when it is made a proper name. -/
theorem iequals_properName (line : Bytes) :
    iequals line (properName line) := by
  rw [iequals_eq_true_iff]
  cases line with
  | nil => rfl
  | cons first rest =>
      simp [properName, toLowerCopy, toLower_toUpper, toLower_toLower]

section Tables

variable (env : Env) (me : Nat) (line : Bytes) (core : Core)

theorem db_attempted : (core.attempted me).db = core.db := by
  unfold Core.attempted Core.counted
  simp only
  split
  · simp [Core.removeList]
  · simp

theorem db_rejected : (core.rejected me line).db = core.db := by
  apply @Core.rejected_intro core me line fun now => now.db = core.db
  · rfl
  · exact fun now same => (db_attempted me now).trans same

/-- Loading an account leaves the table. -/
theorem table_load (userName : Bytes) (preload : Bool) :
    SameTable core.db (loadOutcome env me userName preload core).2.db := by
  apply @loadOutcome_intro env me userName preload core
    fun now => SameTable core.db now.db
  · exact SameTable.select env.dbFails core.db userName
  · exact fun _ _ asked => asked
  · exact fun _ _ asked => asked

theorem table_named : SameTable core.db (core.named env me line).db := by
  rw [Core.named]
  have renamed : (((core.rejected me line).setUser me fun user =>
      { user with name := properName line }).cleared me).db = core.db := by
    rw [Core.db_cleared, Core.db_setUser, db_rejected]
  generalize ((core.rejected me line).setUser me fun user =>
    { user with name := properName line }).cleared me = entered at renamed ⊢
  rw [← renamed]
  exact table_load env me entered line true

theorem db_run : (runOutcome me core).2.db = core.db := by
  have drawn : (drawOutcome core).2.db = core.db := by
    unfold drawOutcome
    split <;> rfl
  apply @runOutcome_intro me core fun now => now.db = core.db
  · rfl
  · exact drawn
  · simpa [Core.removeList] using drawn

theorem db_parsed : (parseOutcome me core).2.db = core.db := by
  have dispatched : ∀ stage (now : Core),
      (dispatchOutcome me stage now).2.db = now.db := by
    intro stage now
    unfold dispatchOutcome
    split
    · exact db_run me now
    · rfl
  apply @parseOutcome_intro me core _ (fun now => now.db = core.db) rfl rfl
  · exact fun com => dispatched _ _
  · exact fun now same => same

end Tables

/-- The row that a registration adds. -/
def newRow (db : Users) (name password : Bytes) : Row :=
  ⟨db.nextId, name, password, UserLevel.novice.value.toNat⟩

/-- The queries with which the line looks for an account that there is, or adds
one, work; the start of a transaction and the loading of a level may fail. -/
def Works (env : Env) (me : Nat) (line : Bytes) (core : Core) : Prop :=
  (EntersName env me line core →
      env.dbFails core.db.queries = false ∨ core.db.lookup line = none) ∧
    (Confirms env me line core →
      env.dbFails (core.db.queries + 1) = false ∧
        env.dbFails (core.db.queries + 2) = false)

instance (env : Env) (me : Nat) (line : Bytes) (core : Core) :
    Decidable (Works env me line core) :=
  inferInstanceAs (Decidable ((_ → _ ∨ _ = none) ∧ (_ → _)))

/-- A registration whose queries work adds an account and commits it. -/
theorem created_works
    {env : Env}
    {me : Nat}
    {line : Bytes}
    {core : Core}
    (works : Works env me line core)
    (confirmed : Confirms env me line core)
    (password : Bytes) :
    (core.created env me password).2.rows =
        core.db.rows ++ [newRow core.db (core.users me).name password] ∧
      (core.created env me password).2.undo = none := by
  obtain ⟨inserts, commits⟩ := works.2 confirmed
  have begun : (core.db.beginTransaction env.dbFails).2.rows = core.db.rows ∧
      (core.db.beginTransaction env.dbFails).2.queries =
        core.db.queries + 1 ∧
      (core.db.beginTransaction env.dbFails).2.nextId = core.db.nextId := by
    unfold Users.beginTransaction
    split <;> exact ⟨rfl, rfl, rfl⟩
  obtain ⟨rows, queries, nextId⟩ := begun
  rw [Core.created, createOutcome]
  simp only
  generalize (core.db.beginTransaction env.dbFails).2 = begun
    at rows queries nextId ⊢
  have inserted : begun.insert env.dbFails (core.users me).name password
      UserLevel.novice.value.toNat = (true, { begun.counted with
        rows := core.db.rows ++
          [newRow core.db (core.users me).name password]
        nextId := core.db.nextId + 1 }) := by
    rw [Users.insert, queries, inserts]
    simp [newRow, rows, nextId]
  rw [inserted]
  simp only [if_true]
  unfold Users.commit
  simp only [Users.counted, queries, commits]
  simp

/-- A load that throws has found an account, whose hash it has copied. -/
theorem credentials_throws
    {env : Env}
    {me : Nat}
    {userName : Bytes}
    {core reached : Core}
    {abort : Abort}
    (failed : loadOutcome env me userName false core =
      (.error abort, reached)) :
    ∃ row, core.db.lookup userName = some row ∧
      (reached.users me).credentials =
        { (core.users me).credentials with
          password := some row.password } := by
  unfold loadOutcome at failed
  simp only [Bool.false_eq_true, if_false] at failed
  split at failed
  · simp at failed
  · rename_i row found
    split at failed
    · simp only [Prod.mk.injEq] at failed
      rw [← failed.2]
      exact ⟨row, Users.lookup_of_select found, credentials_copied me _ row⟩
    · simp at failed

/-- A load changes the level only when it finds the account. -/
theorem level_load
    {env : Env}
    {me : Nat}
    {userName : Bytes}
    {core : Core} :
    ((loadOutcome env me userName false core).2.users me).level =
        (core.users me).level ∨
      core.db.lookup userName ≠ none := by
  unfold loadOutcome
  simp only
  split
  · exact .inl rfl
  · rename_i row found
    right
    rw [Users.lookup_of_select found]
    exact Option.some_ne_none row

end Common
end Lotospp
