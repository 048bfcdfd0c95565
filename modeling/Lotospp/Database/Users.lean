import Lotospp.Text.Bytes

/-!
# The table of users

The table `users` behind the driver, with its transactions.  A query has a
number, and whether it fails is decided by the number: a failed query changes
nothing.  Logins are compared without regard to case, which is what `LOWER` and
a collation do that tell all other texts apart, and values are stored as they
are; no index makes the logins unique.  `queries_refine` leaves the comparison
to the server, and says of which logins and values the table is then right.
-/

namespace Lotospp
namespace Database

open Text

/-- A row of the table `users`. -/
structure Row where
  /-- The column `id`. -/
  id : Nat
  /-- The column `login`. -/
  login : Bytes
  /-- The column `password`. -/
  password : Bytes
  /-- The column `level`. -/
  level : Nat
  deriving DecidableEq, Repr

/-- The database as the driver sees it. -/
structure Users where
  /-- The rows, the uncommitted ones included. -/
  rows : List Row := []
  /-- The rows at the start of the open transaction. -/
  undo : Option (List Row) := none
  /-- The number of queries so far. -/
  queries : Nat := 0
  /-- The next value of the column `id`. -/
  nextId : Nat := 1
  deriving DecidableEq

namespace Users

/-- The first row with this login. -/
def lookup (users : Users) (login : Bytes) : Option Row :=
  users.rows.find? fun row => iequals row.login login

/-- The rows that survive a loss of the open transaction. -/
def committed (users : Users) : List Row :=
  users.undo.getD users.rows

/-- Count a query. -/
def counted (users : Users) : Users :=
  { users with queries := users.queries + 1 }

/-- `Driver::storeQuery` for the login, which answers nothing both when the
query fails and when there is no row. -/
def select (fails : Nat → Bool) (users : Users) (login : Bytes) :
    Option Row × Users :=
  if fails users.queries then (none, users.counted)
  else (users.lookup login, users.counted)

/-- `Driver::beginTransaction`, which commits a transaction still open. -/
def beginTransaction (fails : Nat → Bool) (users : Users) : Bool × Users :=
  if fails users.queries then (false, users.counted)
  else (true, { users.counted with undo := some users.rows })

/-- `Driver::executeQuery` of an `INSERT`. -/
def insert
    (fails : Nat → Bool)
    (users : Users)
    (login password : Bytes)
    (level : Nat) : Bool × Users :=
  if fails users.queries then (false, users.counted)
  else
    (true, { users.counted with
      rows := users.rows ++ [⟨users.nextId, login, password, level⟩]
      nextId := users.nextId + 1 })

/-- `Driver::commit`. -/
def commit (fails : Nat → Bool) (users : Users) : Bool × Users :=
  if fails users.queries then (false, users.counted)
  else (true, { users.counted with undo := none })

/-- `Driver::rollback`. -/
def rollback (fails : Nat → Bool) (users : Users) : Bool × Users :=
  if fails users.queries then (false, users.counted)
  else (true, { users.counted with rows := users.committed, undo := none })

end Users
end Database
end Lotospp
