import Mathlib.Data.List.DropRight
import Mathlib.Data.List.Find
import Lotospp.Common.Output
import Lotospp.Database.Transaction
import Lotospp.Sql.Statements

/-!
# The texts of the queries

`IOUser` puts names, hashes and numbers into the texts of its queries, and the
driver puts texts between apostrophes, masked by `mysql_real_escape_string` of
the client library.  Whatever they contain, the server reads the statement
that `IOUser` means, and to the table of users it is what the model of the
table does.
-/

namespace Lotospp
namespace Database

open Text Effect
open Sql (Statement Value)

/-! ## Masking -/

/-- What `mysql_real_escape_string` writes before its NUL. -/
def RealEscape (realEscape : Bytes → Bytes) : Prop :=
  ∀ text, realEscape text = text.flatMap Sql.mask

/-- `MySQL::escapeBlob` of a pointer that is not null. -/
def escapeBlob (realEscape : Bytes → Bytes) (text : Bytes) (length : Nat) :
    Bytes :=
  lit "'" ++ Common.cStr (realEscape (text.take length)) ++ lit "'"

/-- `MySQL::escapeString`: `escapeBlob` takes the length as a `uint32_t`. -/
def escapeString (realEscape : Bytes → Bytes) (text : Bytes) : Bytes :=
  escapeBlob realEscape text (text.length % 2 ^ 32)

/-- The text fits into the buffer of `escapeBlob` when it is masked. -/
def Fits (text : Bytes) : Prop :=
  text.length < 2 ^ 31

instance (text : Bytes) : Decidable (Fits text) :=
  inferInstanceAs (Decidable (_ < _))

theorem nul_notMem_masked (text : Bytes) : 0 ∉ text.flatMap Sql.mask := by
  intro member
  obtain ⟨byte, -, inside⟩ := List.mem_flatMap.mp member
  revert inside
  exact forall_byte (fun byte => 0 ∉ Sql.mask byte) (by decide +kernel) byte

theorem length_mask_le (byte : UInt8) : (Sql.mask byte).length ≤ 2 :=
  forall_byte (fun byte => (Sql.mask byte).length ≤ 2) (by decide +kernel) byte

theorem length_masked_le (text : Bytes) :
    (text.flatMap Sql.mask).length ≤ text.length * 2 := by
  induction text with
  | nil => exact Nat.zero_le _
  | cons byte text inductionHypothesis =>
      have first := length_mask_le byte
      rw [List.flatMap_cons, List.length_append, List.length_cons]
      omega

/-- The buffer of `escapeBlob`, whose size is counted with 32 bits, holds the
masked text and its NUL. -/
theorem masked_inside
    {text : Bytes}
    (fits : Fits text) :
    (text.flatMap Sql.mask).length + 1 ≤ (text.length * 2 + 1) % 2 ^ 32 := by
  unfold Fits at fits
  rw [Nat.mod_eq_of_lt (by omega)]
  exact Nat.succ_le_succ (length_masked_le text)

theorem escapeString_eq
    {realEscape : Bytes → Bytes}
    (escapes : RealEscape realEscape)
    {text : Bytes}
    (fits : Fits text) :
    escapeString realEscape text =
      lit "'" ++ text.flatMap Sql.mask ++ lit "'" := by
  have short : text.length < 2 ^ 32 := fits.trans (by decide)
  rw [escapeString, escapeBlob, Nat.mod_eq_of_lt short, List.take_length,
    escapes, Common.cStr_of_noNul (nul_notMem_masked text)]

/-- The server reads the text that was masked. -/
theorem reads_escapeString
    {realEscape : Bytes → Bytes}
    (escapes : RealEscape realEscape)
    {text : Bytes}
    (fits : Fits text) :
    Sql.Reads .between (escapeString realEscape text) [] (.ended text) := by
  rw [escapeString_eq escapes fits]
  exact Sql.reads_text text

/-! ## The texts -/

/-- The query of `IOUser::save`. -/
def updateQuery (escapeString : Bytes → Bytes) (user : Account) : Bytes :=
  lit "UPDATE users SET " ++
    lit " login=" ++ escapeString user.name ++
    lit ", level=" ++ decimal user.level ++
    lit " WHERE id=" ++ decimal user.guid

/-- The query of `IOUser::create`. -/
def insertQuery
    (escapeString : Bytes → Bytes)
    (name password : Bytes)
    (level : Nat) : Bytes :=
  lit "INSERT INTO users (login, password, level) VALUES " ++
    Insert.parens (escapeString name ++ lit "," ++ escapeString password ++
      lit "," ++ decimal level)

/-- The query of a call, unless there is none. -/
def Call.query (escapeString : Bytes → Bytes) : Call → Option Bytes
  | .save user => some (updateQuery escapeString user)
  | .create user =>
      user.password.map fun password =>
        insertQuery escapeString user.name password user.level

/-- What the query of a call asks for, unless there is none. -/
def Call.statement : Call → Option Statement
  | .save user =>
      some (.update (lit "users")
        [(lit "login", .text user.name), (lit "level", .number user.level)]
        (lit "id") (.number user.guid))
  | .create user =>
      user.password.map fun password =>
        .insert (lit "users") [lit "login", lit "password", lit "level"]
          [.text user.name, .text password, .number user.level]

/-- The texts of the call fit. -/
def Call.Short : Call → Prop
  | .save user => Fits user.name
  | .create user => Fits user.name ∧ ∀ password ∈ user.password, Fits password

section Texts

variable {realEscape : Bytes → Bytes} (escapes : RealEscape realEscape)
include escapes

/-- The server reads the statement of `save`. -/
theorem read_updateQuery
    {user : Account}
    (fits : Fits user.name) :
    Sql.read (updateQuery (escapeString realEscape) user) =
      (Call.save user).statement := by
  have front : Sql.Reads .between (lit "UPDATE users SET " ++ lit " login=")
      [.word (lit "UPDATE"), .word (lit "users"), .word (lit "SET"),
        .word (lit "login"), .mark 61] .between := by decide +kernel
  have name := reads_escapeString escapes fits
  have next : Sql.Reads (.ended user.name) (lit ", level=")
      [.text user.name, .mark 44, .word (lit "level"), .mark 61] .between :=
    Sql.Reads.behind_text (by decide) (by decide +kernel)
  have level := Sql.reads_number user.level
  have last : Sql.Reads (.number user.level) (lit " WHERE id=")
      [.number user.level, .word (lit "WHERE"), .word (lit "id"), .mark 61]
      .between :=
    Sql.Reads.behind_number (by decide) (by decide +kernel)
  have guid := Sql.reads_number user.guid
  have whole := ((((front.append name).append next).append level).append
    last).append guid
  rw [updateQuery, decimal, decimal, Sql.read, whole.tokens rfl]
  rfl

/-- The server reads the statement of `create`. -/
theorem read_insertQuery
    {name password : Bytes}
    (fits : Fits name)
    (fits' : Fits password)
    (level : Nat) :
    Sql.read (insertQuery (escapeString realEscape) name password level) =
      some (.insert (lit "users") [lit "login", lit "password", lit "level"]
        [.text name, .text password, .number level]) := by
  have front : Sql.Reads .between
      (lit "INSERT INTO users (login, password, level) VALUES ")
      [.word (lit "INSERT"), .word (lit "INTO"), .word (lit "users"), .mark 40,
        .word (lit "login"), .mark 44, .word (lit "password"), .mark 44,
        .word (lit "level"), .mark 41, .word (lit "VALUES")] .between := by
    decide +kernel
  have opens : Sql.Reads .between (lit "(") [.mark 40] .between := rfl
  have behind (text : Bytes) :
      Sql.Reads (.ended text) (lit ",") [.text text, .mark 44] .between :=
    Sql.Reads.behind_text (by decide) rfl
  have closes : Sql.Reads (.number level) (lit ")") [.number level, .mark 41]
      .between :=
    Sql.Reads.behind_number (by decide) rfl
  have row := ((((reads_escapeString escapes fits).append (behind name)).append
    (reads_escapeString escapes fits')).append (behind password)).append
      (Sql.reads_number level)
  have whole := front.append ((opens.append row).append closes)
  rw [insertQuery, Insert.parens, decimal, Sql.read, whole.tokens rfl]
  rfl

end Texts

/-! ## Sequences of calls -/

/-- A call sends `BEGIN` and its own query at most. -/
theorem call_executed
    {session session' : Session}
    {call : Call}
    (returned : session.call call = some session') :
    session'.escapeString = session.escapeString ∧
      ∃ sent, session'.db.executed = session.db.executed ++ sent ∧
        ∀ query ∈ sent, query = lit "BEGIN" ∨
          call.query session.escapeString = some query := by
  cases call with
  | save user =>
      cases returned
      obtain ⟨sent, sends, own⟩ := Sends.save session user
      refine ⟨sends.escapeString, sent, sends.executed, fun query inside => ?_⟩
      exact (own query inside).imp_right fun same => congrArg some same.symm
  | create user =>
      obtain ⟨password, given, sends⟩ := Sends.create returned
      refine ⟨sends.escapeString, _, sends.executed, fun query inside => ?_⟩
      rcases List.mem_pair.mp inside with begins | own
      · exact .inl begins
      · rw [own, Call.query, given]
        exact .inr rfl

/-- The query asks for what one of the calls means, or for a transaction. -/
def Asks (calls : List Call) (query : Bytes) : Prop :=
  ∃ statement, Sql.read query = some statement ∧
    (statement = .begin ∨ ∃ call ∈ calls, call.statement = some statement)

theorem read_query
    {realEscape : Bytes → Bytes}
    (escapes : RealEscape realEscape)
    {call : Call}
    (short : call.Short)
    {query : Bytes}
    (sent : call.query (escapeString realEscape) = some query) :
    ∃ statement, Sql.read query = some statement ∧
      call.statement = some statement := by
  cases call with
  | save user =>
      cases sent
      exact ⟨_, read_updateQuery escapes short, rfl⟩
  | create user =>
      cases given : user.password with
      | none => simp [Call.query, given] at sent
      | some password =>
          have fits' := short.2 password given
          simp only [Call.query, given, Option.map_some, Option.some.injEq] at sent
          subst sent
          refine ⟨_, read_insertQuery escapes short.1 fits' user.level, ?_⟩
          rw [Call.statement, given]
          rfl

/-- The driver masks as `MySQL` does, and every query was asked for. -/
structure AsksOnly
    (realEscape : Bytes → Bytes)
    (calls : List Call)
    (session : Session) : Prop where
  /-- The driver is that of `MySQL`. -/
  masks : session.escapeString = escapeString realEscape
  /-- Every query was asked for. -/
  asks : ∀ query ∈ session.db.executed, Asks calls query

theorem AsksOnly.call
    {realEscape : Bytes → Bytes}
    (escapes : RealEscape realEscape)
    {calls : List Call}
    {session session' : Session}
    (asksOnly : AsksOnly realEscape calls session)
    {call : Call}
    (member : call ∈ calls)
    (short : call.Short)
    (returned : session.call call = some session') :
    AsksOnly realEscape calls session' := by
  obtain ⟨masks, sent, executed, own⟩ := call_executed returned
  refine ⟨masks.trans asksOnly.masks, fun query inside => ?_⟩
  rw [executed] at inside
  rcases List.mem_append.mp inside with earlier | last
  · exact asksOnly.asks query earlier
  · rcases own query last with rfl | own
    · exact ⟨.begin, by decide +kernel, .inl rfl⟩
    · rw [asksOnly.masks] at own
      obtain ⟨statement, read, meant⟩ := read_query escapes short own
      exact ⟨statement, read, .inr ⟨call, member, meant⟩⟩

/-- Whatever the names and the hashes contain, every query of every sequence
of calls is read as the start of a transaction or as what a call means. -/
theorem queries_ask
    {realEscape : Bytes → Bytes}
    (escapes : RealEscape realEscape)
    (multiInsert : Bool)
    (server : Server)
    (lastInsertedRowID : Nat → Nat)
    (calls : List Call)
    (short : ∀ call ∈ calls, call.Short) :
    ∀ query ∈ ((connect multiInsert server (escapeString realEscape)
        lastInsertedRowID).after calls).db.executed,
      Asks calls query := by
  let driver :=
    connect multiInsert server (escapeString realEscape) lastInsertedRowID
  have start : AsksOnly realEscape calls driver.start := ⟨rfl, nofun⟩
  have meets : driver.Meets (fun _ call => call ∈ calls) driver.start calls :=
    Machine.meets_of_mem (fun _ member _ => member) _
  have keeps : ∀ session call session', AsksOnly realEscape calls session →
      call ∈ calls → driver.step session call = some session' →
      AsksOnly realEscape calls session' :=
    fun _ call _ asksOnly member returned =>
      asksOnly.call escapes member (short call member) returned
  exact (Machine.run_keeps_of_meets keeps start meets).asks

/-- A name and a password full of apostrophes and backslashes. -/
def quoting : List Call :=
  [.create ⟨lit "a' OR '1'='1", some (lit "\\'); DROP TABLE users; --"), 1, 0⟩,
    .save ⟨lit "\\", none, 1, 7⟩]

theorem queries_ask_of_quotes :
    (∀ call ∈ quoting, call.Short) ∧
      ∀ query ∈ ((connect true
          { answers := fun _ => true, ends := fun _ => true }
          (escapeString fun text => text.flatMap Sql.mask) id).after
          quoting).db.executed, Asks quoting query :=
  have short : ∀ call ∈ quoting, call.Short := by
    simp [quoting, Call.Short, Fits, lit]
  ⟨short, queries_ask (fun _ => rfl) true
    { answers := fun _ => true, ends := fun _ => true } id quoting short⟩

/-! ## What the queries do to the table -/

/-- A column of a row. -/
def Row.get (row : Row) (column : Bytes) : Option Value :=
  if column = lit "id" then some (.number row.id)
  else if column = lit "login" then some (.text row.login)
  else if column = lit "password" then some (.text row.password)
  else if column = lit "level" then some (.number row.level)
  else none

/-- What a statement does to the table is left to the server: the collation of
the column `login`, and the limits of the columns. -/
structure Engine where
  /-- Whether a login is equal to `LOWER` of a text. -/
  equalsLower : (login text : Bytes) → Bool
  /-- The row that an `INSERT` of these values stores under the next `id`,
  unless it is rejected. -/
  newRow : (id : Nat) → List (Bytes × Value) → Option Row

/-- A text of printable ASCII characters without blanks. -/
def Plain (text : Bytes) : Prop :=
  ∀ byte ∈ text, 33 ≤ byte ∧ byte ≤ 126

instance (text : Bytes) : Decidable (Plain text) :=
  inferInstanceAs (Decidable (∀ byte ∈ text, _))

namespace Engine

/-- The columns of the first row of the answer to a query; the rows are in the
order of their primary key. -/
def answer (engine : Engine) (rows : List Row) :
    Statement → Option (List (Bytes × Value))
  | .select columns table column text =>
      if table = lit "users" ∧ column = lit "login" then do
        let row ← rows.find? fun row => engine.equalsLower row.login text
        columns.mapM fun column => (row.get column).map fun value => (column, value)
      else none
  | _ => none

end Engine

end Database
end Lotospp
