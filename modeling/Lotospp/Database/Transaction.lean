import Lotospp.Database.Insert
import Lotospp.Effect.Machine

/-!
# Transactions

`class Transaction` and the two functions of `IOUser` that use it, on the
driver for MySQL.  The server answers every query, every commit and every
rollback with success or failure, in any pattern, and may be lost with a
failure: from then on the driver is not connected and issues nothing.

A transaction that began successfully is unfinished until a commit succeeds or
a rollback is issued.
-/

namespace Lotospp
namespace Database

open Text Effect

/-- What the client library reports of the server. -/
structure Server where
  /-- `mysql_real_connect` succeeds. -/
  opens : Bool := true
  /-- Whether `mysql_real_query` with this number succeeds. -/
  answers : Nat → Bool
  /-- Whether the error of the query with this number is `CR_SERVER_LOST` or
  `CR_SERVER_GONE_ERROR`, if it fails. -/
  loses : Nat → Bool := fun _ => false
  /-- Whether the `mysql_commit` or `mysql_rollback` with this number
  succeeds. -/
  ends : Nat → Bool

namespace Server

/-- `m_connected` before the query with this number. -/
def connected (server : Server) : Nat → Bool
  | 0 => server.opens
  | number + 1 =>
      server.connected number &&
        (server.answers number || !server.loses number)

/-- What `MySQL::internalQuery` returns for the query with this number. -/
def executes (server : Server) (number : Nat) : Bool :=
  server.connected number && server.answers number

variable {server : Server} {number : Nat}

/-- A query that succeeds leaves the driver connected. -/
theorem connected_succ (executes : server.executes number = true) :
    server.connected (number + 1) = true := by
  obtain ⟨connected, answers⟩ := Bool.and_eq_true_iff.mp executes
  rw [Server.connected, connected, answers]
  rfl

/-- A query that fails leaves the driver connected unless it has lost the
server. -/
theorem connected_succ_of_fails
    (connected : server.connected number = true)
    (fails : server.executes number = false) :
    server.connected (number + 1) = !server.loses number := by
  have answers : server.answers number = false := by
    rwa [executes, connected, Bool.true_and] at fails
  rw [Server.connected, connected, answers, Bool.true_and, Bool.false_or]

end Server

/-- A driver with transactions. -/
structure Session where
  /-- The server behind it. -/
  server : Server
  /-- The queries and their answers; `BEGIN` is one of them. -/
  db : Driver
  /-- The commits and rollbacks issued so far. -/
  ended : Nat := 0
  /-- The transactions that began and are unfinished. -/
  unfinished : Nat := 0
  /-- `escapeString`. -/
  escapeString : Bytes → Bytes
  /-- `getLastInsertedRowID` after so many queries. -/
  lastInsertedRowID : Nat → Nat

namespace Session

/-- `m_connected`. -/
def connected (session : Session) : Bool :=
  session.server.connected session.db.executed.length

/-- `Driver::executeQuery`. -/
def executeQuery (session : Session) (query : Bytes) : Bool × Session :=
  let (done, db) := session.db.executeQuery query
  (done, { session with db := db })

/-- `MySQL::beginTransaction`. -/
def beginTransaction (session : Session) : Bool × Session :=
  let (begun, session) := session.executeQuery (lit "BEGIN")
  if begun then
    (true, { session with unfinished := session.unfinished + 1 })
  else (false, session)

/-- `MySQL::commit`. -/
def commit (session : Session) : Bool × Session :=
  if !session.connected then (false, session)
  else
    let committed := session.server.ends session.ended
    let session := { session with ended := session.ended + 1 }
    if committed then
      (true, { session with unfinished := session.unfinished - 1 })
    else (false, session)

/-- `MySQL::rollback`, which issues nothing without a connection. -/
def rollback (session : Session) : Bool × Session :=
  if !session.connected then (false, session)
  else
    (session.server.ends session.ended,
      { session with
        ended := session.ended + 1
        unfinished := session.unfinished - 1 })

/-- `Driver::getLastInsertedRowID`. -/
def getLastInsertedRowID (session : Session) : Nat :=
  session.lastInsertedRowID session.db.executed.length

end Session

/-! ## The transaction -/

/-- `Transaction::TransactionStates_t`. -/
inductive TransactionState
  | noStart
  | start
  | commit
  deriving DecidableEq, Repr

/-- `class Transaction`. -/
structure Transaction where
  /-- `m_state`. -/
  state : TransactionState := .noStart

namespace Transaction

/-- `Transaction::begin`. -/
def begin (_ : Transaction) (session : Session) :
    Bool × Transaction × Session :=
  let (begun, session) := session.beginTransaction
  (begun, ⟨.start⟩, session)

/-- `Transaction::commit`. -/
def commit (transaction : Transaction) (session : Session) :
    Bool × Transaction × Session :=
  if transaction.state = .start then
    let (committed, session) := session.commit
    (committed, ⟨.commit⟩, session)
  else (false, transaction, session)

/-- The destructor. -/
def destruct (transaction : Transaction) (session : Session) : Session :=
  if transaction.state = .start then session.rollback.2 else session

end Transaction

/-! ## Saving and creating users -/

/-- What `IOUser` writes of a `User`. -/
structure Account where
  /-- `name`. -/
  name : Bytes
  /-- `password`; `none` is a null pointer. -/
  password : Option Bytes
  /-- `level.value()`. -/
  level : Nat
  /-- `getGUID()`. -/
  guid : Nat
  deriving DecidableEq

/-- A number in a query. -/
def decimal (number : Nat) : Bytes :=
  lit (toString number)

/-- The query of `IOUser::save`. -/
def saveQuery (session : Session) (user : Account) : Bytes :=
  lit "UPDATE users SET " ++
    lit " login=" ++ session.escapeString user.name ++
    lit ", level=" ++ decimal user.level ++
    lit " WHERE id=" ++ decimal user.guid

/-- `IOUser::save`. -/
def save (session : Session) (user : Account) : Bool × Session :=
  let query := saveQuery session user
  let (begun, transaction, session) := Transaction.begin {} session
  if !begun then (false, transaction.destruct session)
  else
    let (done, session) := session.executeQuery query
    if !done then (false, transaction.destruct session)
    else
      let (committed, transaction, session) := transaction.commit session
      (committed, transaction.destruct session)

/-- The row of `IOUser::create`. -/
def createRow (session : Session) (user : Account) (password : Bytes) : Bytes :=
  session.escapeString user.name ++ lit "," ++
    session.escapeString password ++ lit "," ++ decimal user.level

/-- `insert.addRow(row) && insert.execute()`. -/
def insertRow (session : Session) (insert : Insert) (row : Bytes) :
    Bool × Session :=
  match insert.addRow session.db row with
  | (false, _, db) => (false, { session with db := db })
  | (true, insert, db) =>
      let (done, _, db) := insert.execute db
      (done, { session with db := db })

/-- `IOUser::create`, unless it follows a null pointer. -/
def create (session : Session) (user : Account) : Option (Nat × Session) :=
  let (_, transaction, session) := Transaction.begin {} session
  let insert := (Insert.new session.db).setQuery
    (lit "INSERT INTO users (login, password, level) VALUES ")
  user.password.map fun password =>
    let row := createRow session user password
    let (done, session) := insertRow session insert row
    if !done then (0, transaction.destruct session)
    else
      let id := session.getLastInsertedRowID
      let (committed, transaction, session) := transaction.commit session
      (if committed then id else 0, transaction.destruct session)

/-! ## Sequences of calls -/

/-- A call of `IOUser`. -/
inductive Call
  | save (user : Account)
  | create (user : Account)

/-- The session after a call that returns. -/
def Session.call (session : Session) : Call → Option Session
  | .save user => some (save session user).2
  | .create user => (create session user).map Prod.snd

/-- A driver of which nothing has been asked. -/
def connect
    (multiInsert : Bool)
    (server : Server)
    (escapeString : Bytes → Bytes)
    (lastInsertedRowID : Nat → Nat) :
    Machine Session Call where
  start :=
    { server := server
      db := { multiInsert := multiInsert, answers := server.executes }
      escapeString := escapeString
      lastInsertedRowID := lastInsertedRowID }
  step := Session.call

/-- No transaction that began is unfinished. -/
def Settled (session : Session) : Prop :=
  session.unfinished = 0

instance (session : Session) : Decidable (Settled session) :=
  inferInstanceAs (Decidable (_ = _))

/-- If the `BEGIN` of the call succeeds, then its commit succeeds when its
query does, and its query does not lose the server when it fails. -/
def Commits (session : Session) (_ : Call) : Prop :=
  session.db.answers session.db.executed.length = true →
    (session.db.answers (session.db.executed.length + 1) = true →
        session.server.ends session.ended = true) ∧
      (session.db.answers (session.db.executed.length + 1) = false →
        session.server.loses (session.db.executed.length + 1) = false)

/-- The driver answers what it makes of the answers of its server. -/
def Session.Answers (session : Session) : Prop :=
  session.db.answers = session.server.executes

theorem Session.Answers.executes
    {session : Session}
    (answers : session.Answers)
    {number : Nat}
    {answer : Bool}
    (answered : session.db.answers number = answer) :
    session.server.executes number = answer := by
  rw [← answered, answers]

/-- The query of `create` is the next one, whether `addRow` or `execute` sends
it. -/
theorem insertRow_eq (session : Session) (query row : Bytes) :
    insertRow session ((Insert.new session.db).setQuery query) row =
      session.executeQuery (query ++ Insert.parens row) := by
  have filled : 0 < (Insert.parens row).length := by
    simp [Insert.parens, lit]
  unfold Session.executeQuery
  cases multiInsert : session.db.multiInsert with
  | true =>
      simp [insertRow, Insert.new, Insert.setQuery, Insert.addRow,
        Insert.execute, multiInsert, filled, Driver.executeQuery]
  | false =>
      cases answer : session.db.answers session.db.executed.length <;>
        simp [insertRow, Insert.new, Insert.setQuery, Insert.addRow,
          Insert.execute, multiInsert, Driver.executeQuery, answer]

/-- A transaction whose query has failed is rolled back, with a connection. -/
theorem unfinished_destruct (session : Session) :
    (Transaction.destruct ⟨.start⟩ session).unfinished =
      if session.connected then session.unfinished - 1
      else session.unfinished := by
  cases connected : session.connected <;>
    simp [Transaction.destruct, Session.rollback, connected]

/-- A transaction whose query has succeeded is not rolled back when its commit
fails. -/
theorem unfinished_commit (session : Session) :
    ((Transaction.commit ⟨.start⟩ session).2.1.destruct
        (Transaction.commit ⟨.start⟩ session).2.2).unfinished =
      if session.connected && session.server.ends session.ended then
        session.unfinished - 1
      else session.unfinished := by
  cases connected : session.connected <;>
    cases committed : session.server.ends session.ended <;>
    simp [Transaction.commit, Transaction.destruct, Session.commit, connected,
      committed]

/-- How a transaction with one query ends: with its destructor if the query
fails, and otherwise with its commit. -/
theorem ended_settled_iff
    {session : Session}
    (answers : session.Answers)
    (settled : Settled session)
    (query : Bytes)
    (call : Call) :
    Settled
        (let (done, asked) :=
          (Transaction.begin {} session).2.2.executeQuery query
        if !done then Transaction.destruct ⟨.start⟩ asked
        else
          (Transaction.commit ⟨.start⟩ asked).2.1.destruct
            (Transaction.commit ⟨.start⟩ asked).2.2) ↔
      Commits session call := by
  unfold Settled at settled ⊢
  unfold Commits
  cases begun : session.db.answers session.db.executed.length with
  | false =>
      cases done : session.db.answers (session.db.executed.length + 1) <;>
        simp [Transaction.begin, Session.beginTransaction,
          Session.executeQuery, Driver.executeQuery, begun, done, settled,
          unfinished_destruct, unfinished_commit]
  | true =>
      have still := Server.connected_succ (answers.executes begun)
      cases done : session.db.answers (session.db.executed.length + 1) with
      | true =>
          have again := Server.connected_succ (answers.executes done)
          simp [Transaction.begin, Session.beginTransaction,
            Session.executeQuery, Driver.executeQuery, begun, done, settled,
            unfinished_commit, Session.connected, again]
      | false =>
          have after :=
            Server.connected_succ_of_fails still (answers.executes done)
          simp [Transaction.begin, Session.beginTransaction,
            Session.executeQuery, Driver.executeQuery, begun, done, settled,
            unfinished_destruct, Session.connected, after]

/-- `save` leaves its transaction unfinished exactly when the commit fails or
the query loses the server. -/
theorem save_settled_iff
    {session : Session}
    (answers : session.Answers)
    (settled : Settled session)
    (user : Account) :
    Settled (save session user).2 ↔ Commits session (.save user) := by
  cases begun : session.db.answers session.db.executed.length with
  | false =>
      unfold Settled at settled ⊢
      simp [Commits, save, Transaction.begin, Session.beginTransaction,
        Session.executeQuery, Driver.executeQuery, begun, settled,
        unfinished_destruct]
  | true =>
      have begins : (Transaction.begin {} session).1 = true := by
        simp [Transaction.begin, Session.beginTransaction,
          Session.executeQuery, Driver.executeQuery, begun]
      unfold save
      simp only [begins, Bool.not_true, Bool.false_eq_true, if_false]
      rw [apply_ite Prod.snd]
      exact ended_settled_iff answers settled _ _

/-- `create` leaves its transaction unfinished exactly when the commit fails or
the query loses the server. -/
theorem create_settled_iff
    {session session' : Session}
    (answers : session.Answers)
    (settled : Settled session)
    {user : Account}
    (created : session.call (.create user) = some session') :
    Settled session' ↔ Commits session (.create user) := by
  cases given : user.password with
  | none => simp [Session.call, create, given] at created
  | some password =>
      simp only [Session.call, create, given, Option.map_some, insertRow_eq,
        Option.some.injEq] at created
      rw [apply_ite Prod.snd] at created
      rw [← created]
      exact ended_settled_iff answers settled _ _

theorem call_settled_iff
    {session session' : Session}
    (answers : session.Answers)
    (settled : Settled session)
    {call : Call}
    (returned : session.call call = some session') :
    Settled session' ↔ Commits session call := by
  cases call with
  | save user =>
      cases returned
      exact save_settled_iff answers settled user
  | create user => exact create_settled_iff answers settled returned

/-! ## What the calls send -/

/-- A session sends these queries and otherwise leaves the driver alone. -/
structure Sends (sent : List Bytes) (session session' : Session) : Prop where
  server : session'.server = session.server
  answers : session'.db.answers = session.db.answers
  escapeString : session'.escapeString = session.escapeString
  executed : session'.db.executed = session.db.executed ++ sent

namespace Sends

variable {session session' session'' : Session} {sent later : List Bytes}

theorem trans
    (sends : Sends sent session session')
    (sendsNext : Sends later session' session'') :
    Sends (sent ++ later) session session'' where
  server := sendsNext.server.trans sends.server
  answers := sendsNext.answers.trans sends.answers
  escapeString := sendsNext.escapeString.trans sends.escapeString
  executed := by
    rw [sendsNext.executed, sends.executed, List.append_assoc]

theorem nothing
    (server : session'.server = session.server)
    (db : session'.db = session.db)
    (escapeString : session'.escapeString = session.escapeString) :
    Sends [] session session' :=
  ⟨server, by rw [db], escapeString, by rw [db, List.append_nil]⟩

theorem executeQuery (session : Session) (query : Bytes) :
    Sends [query] session (session.executeQuery query).2 :=
  ⟨rfl, rfl, rfl, rfl⟩

theorem begin (transaction : Transaction) (session : Session) :
    Sends [lit "BEGIN"] session (transaction.begin session).2.2 := by
  have asked := executeQuery session (lit "BEGIN")
  unfold Transaction.begin Session.beginTransaction
  simp only
  split
  · exact ⟨asked.server, asked.answers, asked.escapeString, asked.executed⟩
  · exact asked

theorem destruct (transaction : Transaction) (session : Session) :
    Sends [] session (transaction.destruct session) := by
  unfold Transaction.destruct Session.rollback
  split_ifs <;> exact .nothing rfl rfl rfl

theorem commit (transaction : Transaction) (session : Session) :
    Sends [] session ((transaction.commit session).2.1.destruct
      (transaction.commit session).2.2) := by
  have commits : Sends [] session (transaction.commit session).2.2 := by
    unfold Transaction.commit Session.commit
    split
    · simp only
      split_ifs <;> exact .nothing rfl rfl rfl
    · exact .nothing rfl rfl rfl
  exact commits.trans (destruct _ _)

/-- `save` sends its query behind `BEGIN`, or nothing else. -/
theorem save (session : Session) (user : Account) :
    ∃ sent, Sends sent session (Database.save session user).2 ∧
      ∀ query ∈ sent, query = lit "BEGIN" ∨ query = saveQuery session user := by
  have begins := begin {} session
  have queries := begins.trans (executeQuery _ (saveQuery session user))
  have abandons := begins.trans (destruct (Transaction.begin {} session).2.1 _)
  have undoes := queries.trans (destruct (Transaction.begin {} session).2.1 _)
  have commits := queries.trans (commit (Transaction.begin {} session).2.1 _)
  unfold Database.save
  simp only
  split
  · exact ⟨_, abandons, by simp⟩
  · split
    · exact ⟨_, undoes, by simp⟩
    · exact ⟨_, commits, by simp⟩

/-- `create` sends its query behind `BEGIN`. -/
theorem create
    {session session' : Session}
    {user : Account}
    (created : session.call (.create user) = some session') :
    ∃ password, user.password = some password ∧
      Sends
        [lit "BEGIN", lit "INSERT INTO users (login, password, level) VALUES " ++
          Insert.parens (createRow session user password)]
        session session' := by
  cases given : user.password with
  | none => simp [Session.call, Database.create, given] at created
  | some password =>
      have begins := begin {} session
      have row : createRow (Transaction.begin {} session).2.2 user password =
          createRow session user password := by
        simp only [createRow, begins.escapeString]
      have queries := begins.trans (executeQuery _
        (lit "INSERT INTO users (login, password, level) VALUES " ++
          Insert.parens (createRow session user password)))
      have undoes := queries.trans (destruct (Transaction.begin {} session).2.1 _)
      have commits := queries.trans (commit (Transaction.begin {} session).2.1 _)
      simp only [Session.call, Database.create, given, Option.map_some,
        insertRow_eq, row, Option.some.injEq] at created
      subst created
      refine ⟨password, rfl, ?_⟩
      split
      · exact undoes
      · exact commits

end Sends

/-- The driver answers for its server behind every call. -/
theorem Session.Answers.call
    {session session' : Session}
    (answers : session.Answers)
    {call : Call}
    (returned : session.call call = some session') : session'.Answers := by
  have keeps : ∀ {sent}, Sends sent session session' → session'.Answers :=
    fun sends => by
      rw [Session.Answers, sends.answers, sends.server]
      exact answers
  cases call with
  | save user =>
      cases returned
      obtain ⟨sent, sends, -⟩ := Sends.save session user
      exact keeps sends
  | create user =>
      obtain ⟨password, -, sends⟩ := Sends.create returned
      exact keeps sends

/-! ## Every sequence of calls -/

/-- For every sequence of calls and every pattern of answers: no call leaves a
transaction unfinished, if and only if the commit of every call succeeds whose
`BEGIN` and query have succeeded, and no query whose `BEGIN` has succeeded
loses the server. -/
theorem settled_iff_commits
    (multiInsert : Bool)
    (server : Server)
    (escapeString : Bytes → Bytes)
    (lastInsertedRowID : Nat → Nat)
    (calls : List Call) :
    let driver := connect multiInsert server escapeString lastInsertedRowID
    driver.Always Settled driver.start calls ↔
      driver.Meets Commits driver.start calls := by
  intro driver
  have keeps : ∀ session call session', session.Answers → True →
      driver.step session call = some session' → session'.Answers :=
    fun _ _ _ answers _ returned => answers.call returned
  have leads : ∀ session call session', session.Answers → True →
      Settled session → driver.step session call = some session' →
      (Settled session' ↔ Commits session call) :=
    fun _ _ _ answers _ settled returned =>
      call_settled_iff answers settled returned
  have answers : driver.start.Answers := rfl
  have settled : Settled driver.start := rfl
  exact Machine.always_iff_meets keeps leads answers settled
    fun _ _ => trivial

/-- The commit of a `save` fails, or its query loses the server, and nothing
rolls its transaction back. -/
theorem save_unfinished :
    ¬ Settled ((connect true
        { answers := fun _ => true, ends := fun _ => false } id id).after
        [.save ⟨lit "Ann", some (lit "secret"), 1, 7⟩]) ∧
      ¬ Settled ((connect true
        { answers := fun number => number = 0
          loses := fun number => number = 1
          ends := fun _ => true } id id).after
        [.save ⟨lit "Ann", some (lit "secret"), 1, 7⟩]) := by
  decide

end Database
end Lotospp
