import Lotospp.Common.Output

/-!
# Loading and creating accounts

`IOUser` reads a user from the database and writes new ones.
-/

namespace Lotospp
namespace Common

open Text Effect

/-- Run a query. -/
def query {α : Type} (run : Database.Users → α × Database.Users) : CoreM α := do
  let core ← Prog.get
  let (result, db) := run core.db
  Prog.modify fun core => { core with db := db }
  pure result

/-- `IOUser::load`. -/
def load (env : Env) (me : Nat) (userName : Bytes) (preload : Bool) :
    CoreM Bool := do
  match ← query fun db => db.select env.dbFails userName with
  | none => pure false
  | some row => do
      update me fun user =>
        { user with guid := row.id, password := some row.password }
      if preload then pure true
      else
        match fromInteger UserLevel.table env.userLevelEnd row.level with
        | none => Prog.raise .enumConversion
        | some level => do
            update me fun user => { user with level := ⟨level⟩ }
            pure true

/-- `IOUser::create`: the new row's identifier, or zero.  The result of
`begin` is not looked at, and a transaction that was not committed is rolled
back when the insertion failed. -/
def create (env : Env) (me : Nat) : CoreM Nat := do
  let _ ← query fun db => db.beginTransaction env.dbFails
  let user ← user me
  match user.password with
  | none => Prog.raise .nullPointer
  | some password =>
      if ← query fun db =>
          db.insert env.dbFails user.name password user.level.value.toNat then do
        let core ← Prog.get
        if ← query fun db => db.commit env.dbFails then
          pure (core.db.nextId - 1)
        else pure 0
      else do
        let _ ← query fun db => db.rollback env.dbFails
        pure 0

end Common
end Lotospp
