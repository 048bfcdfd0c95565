import Lotospp.Text.Bytes
import Mathlib.Algebra.BigOperators.Group.List.Basic
import Mathlib.Algebra.Order.Ring.Nat
import Mathlib.Data.List.Induction

/-!
# The `INSERT` statement

`Insert` sends rows to the database.  On a driver with multi-line inserts it
collects them in a buffer, which it sends when the buffer has passed 8192
bytes, and it counts the collected rows beside the buffer.
-/

namespace Lotospp
namespace Database

open Text

/-- The part of a driver that an `Insert` uses, with every query it was given
and the answer it has for each. -/
structure Driver where
  /-- `getParam(DBPARAM_MULTIINSERT)`. -/
  multiInsert : Bool
  /-- Whether the query with this number succeeds. -/
  answers : Nat → Bool
  /-- The queries executed so far. -/
  executed : List Bytes := []

/-- `Driver::executeQuery`. -/
def Driver.executeQuery (db : Driver) (query : Bytes) : Bool × Driver :=
  (db.answers db.executed.length,
    { db with executed := db.executed ++ [query] })

/-- `class Insert`. -/
structure Insert where
  /-- The driver supports multi-line inserts. -/
  multiLine : Bool
  /-- The row counter, of 32 bits. -/
  rows : Nat := 0
  /-- The query in front of the rows. -/
  query : Bytes := []
  /-- The buffered rows. -/
  buf : Bytes := []

namespace Insert

/-- The constructor. -/
def new (db : Driver) : Insert :=
  { multiLine := db.multiInsert }

/-- `Insert::setQuery`. -/
def setQuery (insert : Insert) (query : Bytes) : Insert :=
  { insert with query := query, buf := [], rows := 0 }

/-- `Insert::execute`. -/
def execute (insert : Insert) (db : Driver) : Bool × Insert × Driver :=
  if insert.multiLine ∧ 0 < insert.buf.length then
    if insert.rows = 0 then (true, insert, db)
    else
      let (res, db) := db.executeQuery (insert.query ++ insert.buf)
      (res, { insert with rows := 0, buf := [] }, db)
  else (true, insert, db)

/-- A row in parentheses. -/
def parens (row : Bytes) : Bytes :=
  lit "(" ++ row ++ lit ")"

/-- `Insert::addRow`. -/
def addRow (insert : Insert) (db : Driver) (row : Bytes) :
    Bool × Insert × Driver :=
  if insert.multiLine then
    let insert := { insert with rows := (insert.rows + 1) % 2 ^ 32 }
    let size := insert.buf.length
    if size = 0 then
      (true, { insert with buf := insert.buf ++ parens row }, db)
    else if size > 8192 then
      match insert.execute db with
      | (false, insert, db) => (false, insert, db)
      | (true, insert, db) =>
          (true, { insert with buf := insert.buf ++ parens row }, db)
    else
      (true, { insert with buf := insert.buf ++ lit "," ++ parens row }, db)
  else
    let (res, db) := db.executeQuery (insert.query ++ parens row)
    (res, insert, db)

/-- Add the rows one after the other. -/
def addRows (insert : Insert) (db : Driver) (rows : List Bytes) :
    Insert × Driver :=
  rows.foldl
    (fun state row => (state.1.addRow state.2 row).2) (insert, db)

/-- `setQuery`, `addRow` for each row and a final `execute`. -/
def insertAll (db : Driver) (query : Bytes) (rows : List Bytes) : Driver :=
  let (insert, db) := ((Insert.new db).setQuery query).addRows db rows
  (insert.execute db).2.2

/-! ## What a sequence of queries sends -/

/-- The text of a block of rows in one query. -/
def block : List Bytes → Bytes
  | [] => []
  | [row] => parens row
  | row :: next :: rest => parens row ++ lit "," ++ block (next :: rest)

/-- The queries send the rows, each once and in order: every query holds the
next rows, at least one. -/
def SendsRows
    (query : Bytes)
    (rows : List Bytes)
    (queries : List Bytes) : Prop :=
  ∃ blocks : List (List Bytes),
    blocks.flatten = rows ∧
      (∀ rows ∈ blocks, rows ≠ []) ∧
      queries = blocks.map fun rows => query ++ block rows

/-- Inserting the rows adds queries to those executed that send them. -/
def SendsAll (db : Driver) (query : Bytes) (rows : List Bytes) : Prop :=
  ∃ queries,
    (insertAll db query rows).executed = db.executed ++ queries ∧
      SendsRows query rows queries

/-- The size of the buffer when the rows have been added. -/
def bufferedBytes (rows : List Bytes) : Nat :=
  rows.foldl
    (fun size row =>
      if size = 0 ∨ size > 8192 then row.length + 2
      else size + row.length + 3) 0

/-! ## Blocks of rows -/

theorem block_append_singleton
    (rows : List Bytes)
    (row : Bytes)
    (nonempty : rows ≠ []) :
    block (rows ++ [row]) = block rows ++ lit "," ++ parens row := by
  induction rows with
  | nil => exact absurd rfl nonempty
  | cons first rest inductionHypothesis =>
      cases rest with
      | nil => simp [block]
      | cons second rest => simp_all [block]

/-- A row takes two parentheses, and a comma unless it is the last. -/
theorem length_block (rows : List Bytes) (nonempty : rows ≠ []) :
    (block rows).length + 1 = (rows.map fun row => row.length + 3).sum := by
  induction rows with
  | nil => exact absurd rfl nonempty
  | cons first rest inductionHypothesis =>
      cases rest with
      | nil => simp [block, parens, lit]
      | cons second rest =>
          have shorter := inductionHypothesis (by simp)
          simp only [List.map_cons, List.sum_cons] at shorter ⊢
          rw [← shorter]
          simp only [block, parens, lit, List.length_append, List.length_map]
          simp
          omega

theorem length_le_length_block (rows : List Bytes) :
    rows.length ≤ (block rows).length := by
  by_cases empty : rows = []
  · simp [empty]
  · have bytes := length_block rows empty
    have atLeast : rows.length * 3 ≤
        (rows.map fun row => row.length + 3).sum := by
      simp
    have positive := List.length_pos_of_ne_nil empty
    omega

/-- The bytes of the queries tell how many bytes of rows they send. -/
theorem SendsRows.length_eq
    {query : Bytes}
    {rows queries : List Bytes}
    (sends : SendsRows query rows queries) :
    (queries.map List.length).sum + queries.length =
      queries.length * query.length +
        (rows.map fun row => row.length + 3).sum := by
  obtain ⟨blocks, rfl, nonempty, rfl⟩ := sends
  induction blocks with
  | nil => simp
  | cons first blocks inductionHypothesis =>
      have bytes := length_block first (nonempty first (by simp))
      have others := inductionHypothesis fun rows inside =>
        nonempty rows (List.mem_cons_of_mem _ inside)
      simp only [List.map_cons, List.sum_cons, List.length_cons,
        List.flatten_cons, List.map_append, List.sum_append,
        List.length_append, List.length_map, Nat.add_mul, Nat.one_mul]
        at others ⊢
      omega

/-- No queries send some rows both with and without further ones. -/
theorem SendsRows.not_append
    {query : Bytes}
    {rows queries : List Bytes}
    (sends : SendsRows query rows queries)
    (further : List Bytes)
    (nonempty : further ≠ []) :
    ¬ SendsRows query (rows ++ further) queries := by
  intro sendsMore
  have fewer := sends.length_eq
  have more := sendsMore.length_eq
  obtain ⟨row, rest, rfl⟩ := List.exists_cons_of_ne_nil nonempty
  simp only [List.map_append, List.sum_append, List.map_cons,
    List.sum_cons] at more
  omega

/-! ## Runs on a driver with multi-line inserts -/

/-- Where the rows added so far are: in the blocks already sent or in the
buffer.  The counter misses the row that is buffered after a block was
sent. -/
structure Holds
    (db : Driver)
    (query : Bytes)
    (rows : List Bytes)
    (insert : Insert)
    (after : Driver)
    (blocks : List (List Bytes))
    (buffered : List Bytes) : Prop where
  multiLine : insert.multiLine = true
  query_eq : insert.query = query
  answers : after.answers = db.answers
  executed : after.executed =
    db.executed ++ blocks.map fun rows => query ++ block rows
  nonempty : ∀ rows ∈ blocks, rows ≠ []
  rows_eq : blocks.flatten ++ buffered = rows
  buf : insert.buf = block buffered
  size : insert.buf.length = bufferedBytes rows
  few : buffered.length ≤ 8193
  counted : insert.rows ≤ buffered.length
  missed : buffered ≠ [] →
    (insert.rows = 0 ↔ 8192 < bufferedBytes rows.dropLast)

/-- `execute` sends what is in the buffer once the counter has seen a row. -/
theorem execute_eq
    (insert : Insert)
    (db : Driver)
    (multiLine : insert.multiLine = true)
    (nonempty : insert.buf ≠ [])
    (seen : insert.rows ≠ 0) :
    insert.execute db =
      (db.answers db.executed.length, { insert with rows := 0, buf := [] },
        { db with executed := db.executed ++ [insert.query ++ insert.buf] }) := by
  have positive := List.length_pos_of_ne_nil nonempty
  rw [execute, if_pos ⟨multiLine, positive⟩, if_neg seen]
  rfl

@[simp] theorem bufferedBytes_nil : bufferedBytes [] = 0 := rfl

@[simp] theorem bufferedBytes_append_singleton
    (rows : List Bytes)
    (row : Bytes) :
    bufferedBytes (rows ++ [row]) =
      if bufferedBytes rows = 0 ∨ bufferedBytes rows > 8192 then
        row.length + 2
      else bufferedBytes rows + row.length + 3 := by
  simp [bufferedBytes]

theorem length_parens (row : Bytes) :
    (parens row).length = row.length + 2 := by
  simp [parens, lit]

/-- Adding a row keeps track of all rows, whether or not it sends a block. -/
theorem Holds.addRow
    {db after : Driver}
    {query : Bytes}
    {rows : List Bytes}
    {insert : Insert}
    {blocks : List (List Bytes)}
    {buffered : List Bytes}
    (holds : Holds db query rows insert after blocks buffered)
    (succeeds : ∀ number, db.answers number = true)
    (row : Bytes) :
    ∃ blocks buffered,
      Holds db query (rows ++ [row]) (insert.addRow after row).2.1
        (insert.addRow after row).2.2 blocks buffered := by
  have size := holds.size
  have few := holds.few
  have counted := holds.counted
  have atLeast := length_le_length_block buffered
  rw [← holds.buf] at atLeast
  have count : (insert.rows + 1) % 2 ^ 32 = insert.rows + 1 := by omega
  rw [Insert.addRow, if_pos holds.multiLine]
  simp only [count]
  by_cases zero : insert.buf.length = 0
  · -- the first row of all
    have empty : buffered = [] := List.length_eq_zero_iff.mp (by omega)
    simp only [zero, if_true]
    exact ⟨blocks, [row],
      { multiLine := holds.multiLine
        query_eq := holds.query_eq
        answers := holds.answers
        executed := holds.executed
        nonempty := holds.nonempty
        rows_eq := by rw [← holds.rows_eq, empty]; simp
        buf := by simp [List.eq_nil_of_length_eq_zero zero, block]
        size := by simp [← size, zero, length_parens]
        few := by simp
        counted := by simp [empty] at counted; simp [counted]
        missed := by simp [← size, zero] }⟩
  · have bufNonempty : insert.buf ≠ [] := by
      rintro empty
      exact zero (by rw [empty]; rfl)
    have nonempty : buffered ≠ [] := by
      rintro rfl
      exact bufNonempty holds.buf
    by_cases full : insert.buf.length > 8192
    · -- the buffer is sent, and the row is buffered without being counted
      have sent := execute_eq { insert with rows := insert.rows + 1 }
        after holds.multiLine bufNonempty (Nat.succ_ne_zero _)
      rw [holds.answers, succeeds] at sent
      simp only [zero, full, if_false, if_true, sent]
      exact ⟨blocks ++ [buffered], [row],
        { multiLine := holds.multiLine
          query_eq := holds.query_eq
          answers := rfl
          executed := by
            simp [holds.executed, holds.query_eq, holds.buf]
          nonempty := by
            simpa [or_imp, forall_and] using ⟨holds.nonempty, nonempty⟩
          rows_eq := by simp [← holds.rows_eq]
          buf := by simp [block]
          size := by
            rw [size] at full
            simp [full, length_parens]
          few := by simp
          counted := by simp
          missed := by
            rw [size] at full
            simp [full] }⟩
    · -- the row joins the others behind a comma
      simp only [zero, full, if_false]
      exact ⟨blocks, buffered ++ [row],
        { multiLine := holds.multiLine
          query_eq := holds.query_eq
          answers := holds.answers
          executed := holds.executed
          nonempty := holds.nonempty
          rows_eq := by simp [← holds.rows_eq]
          buf := by rw [block_append_singleton _ _ nonempty, holds.buf]
          size := by
            rw [size] at zero full
            simp [zero, full, length_parens, lit, size]
            omega
          few := by simp; omega
          counted := by simp; omega
          missed := by
            rw [size] at full
            simp [full] }⟩

/-- After any rows, every row is in a block already sent or in the buffer. -/
theorem addRows_holds
    (db : Driver)
    (query : Bytes)
    (rows : List Bytes)
    (multiInsert : db.multiInsert = true)
    (succeeds : ∀ number, db.answers number = true) :
    ∃ blocks buffered,
      Holds db query rows
        (((Insert.new db).setQuery query).addRows db rows).1
        (((Insert.new db).setQuery query).addRows db rows).2
        blocks buffered := by
  induction rows using List.reverseRecOn with
  | nil =>
      exact ⟨[], [],
        { multiLine := multiInsert
          query_eq := rfl
          answers := rfl
          executed := by simp [addRows]
          nonempty := by simp
          rows_eq := rfl
          buf := rfl
          size := rfl
          few := by simp
          counted := by simp [addRows, setQuery]
          missed := by simp }⟩
  | append_singleton rows row inductionHypothesis =>
      obtain ⟨blocks, buffered, holds⟩ := inductionHypothesis
      simpa [addRows] using holds.addRow succeeds row

theorem eq_nil_of_bufferedBytes_eq_zero
    {rows : List Bytes}
    (zero : bufferedBytes rows = 0) :
    rows = [] := by
  induction rows using List.reverseRecOn with
  | nil => rfl
  | append_singleton rows row _ =>
      rw [bufferedBytes_append_singleton] at zero
      split at zero <;> omega

/-- The final `execute` sends the buffered rows, unless the counter misses
them. -/
theorem Holds.executed_execute
    {db after : Driver}
    {query : Bytes}
    {rows : List Bytes}
    {insert : Insert}
    {blocks : List (List Bytes)}
    {buffered : List Bytes}
    (holds : Holds db query rows insert after blocks buffered) :
    (insert.execute after).2.2.executed =
      db.executed ++
        (if insert.rows = 0 ∨ buffered = [] then blocks
          else blocks ++ [buffered]).map fun rows => query ++ block rows := by
  by_cases empty : buffered = []
  · have bufEmpty : insert.buf = [] := by rw [holds.buf, empty]; rfl
    simp [execute, bufEmpty, empty, holds.executed]
  · by_cases missed : insert.rows = 0
    · simp only [execute, missed, if_true, true_or]
      split <;> exact holds.executed
    · have bufNonempty : insert.buf ≠ [] := by
        have atLeast := length_le_length_block buffered
        have positive := List.length_pos_of_ne_nil empty
        rw [holds.buf]
        exact List.ne_nil_of_length_pos (by omega)
      rw [execute_eq insert after holds.multiLine bufNonempty missed]
      simp [missed, empty, holds.executed, holds.query_eq, holds.buf]

/-- The rows are sent when the last one finds room in the buffer. -/
theorem sendsAll_of_room
    (db : Driver)
    (query : Bytes)
    (rows : List Bytes)
    (multiInsert : db.multiInsert = true)
    (succeeds : ∀ number, db.answers number = true)
    (room : bufferedBytes rows.dropLast ≤ 8192) :
    SendsAll db query rows := by
  obtain ⟨blocks, buffered, holds⟩ :=
    addRows_holds db query rows multiInsert succeeds
  generalize added : ((Insert.new db).setQuery query).addRows db rows = state
    at holds
  obtain ⟨insert, after⟩ := state
  simp only [SendsAll, insertAll, added, holds.executed_execute,
    List.append_cancel_left_eq, exists_eq_left']
  by_cases empty : buffered = []
  · refine ⟨blocks, ?_, holds.nonempty, by simp [empty]⟩
    simpa [empty] using holds.rows_eq
  · have seen : insert.rows ≠ 0 := by
      intro missed
      have full := (holds.missed empty).mp missed
      omega
    refine ⟨blocks ++ [buffered], by simp [← holds.rows_eq], ?_,
      by simp [seen, empty]⟩
    simpa [or_imp, forall_and] using ⟨holds.nonempty, empty⟩

/-- When the last row flushes the buffer, it is not counted and never sent. -/
theorem not_sendsAll_of_full
    (db : Driver)
    (query : Bytes)
    (rows : List Bytes)
    (multiInsert : db.multiInsert = true)
    (succeeds : ∀ number, db.answers number = true)
    (full : 8192 < bufferedBytes rows.dropLast) :
    ¬ SendsAll db query rows := by
  obtain ⟨blocks, buffered, holds⟩ :=
    addRows_holds db query rows multiInsert succeeds
  generalize added : ((Insert.new db).setQuery query).addRows db rows = state
    at holds
  obtain ⟨insert, after⟩ := state
  have sent : SendsRows query blocks.flatten
      (blocks.map fun rows => query ++ block rows) :=
    ⟨blocks, rfl, holds.nonempty, rfl⟩
  have nonempty : buffered ≠ [] := by
    rintro rfl
    have size := holds.size
    rw [holds.buf] at size
    have noRows : rows = [] := eq_nil_of_bufferedBytes_eq_zero size.symm
    simp [noRows] at full
  have missed : insert.rows = 0 := (holds.missed nonempty).mpr full
  have lost := sent.not_append buffered nonempty
  rw [holds.rows_eq] at lost
  simpa only [SendsAll, insertAll, added, holds.executed_execute, missed,
    true_or, if_true, List.append_cancel_left_eq, exists_eq_left'] using lost

/-- The rows are sent, all of them once and in order, exactly when the last
one does not find the buffer full: a row that flushes the buffer is not
counted, so the final `execute` sends it only if a further row follows. -/
theorem insertAll_sendsAll_iff
    (db : Driver)
    (query : Bytes)
    (rows : List Bytes)
    (multiInsert : db.multiInsert = true)
    (succeeds : ∀ number, db.answers number = true) :
    SendsAll db query rows ↔ bufferedBytes rows.dropLast ≤ 8192 := by
  constructor
  · intro sends
    by_contra full
    exact not_sendsAll_of_full db query rows multiInsert succeeds
      (by omega) sends
  · exact sendsAll_of_room db query rows multiInsert succeeds

/-- A driver with multi-line inserts on which every query succeeds. -/
def reliable : Driver :=
  { multiInsert := true, answers := fun _ => true }

theorem twoRows_sendsAll :
    SendsAll reliable (lit "INSERT INTO users (login) VALUES ")
      [lit "'Ann'", lit "'Bob'"] :=
  (insertAll_sendsAll_iff reliable _ _ rfl fun _ => rfl).mpr (by decide)

/-- A row behind one of 8192 bytes is lost when it is the last. -/
theorem rowBehindLongRow_lost :
    ¬ SendsAll reliable (lit "INSERT INTO users (login) VALUES ")
      [List.replicate 8192 97, lit "'Bob'"] :=
  not_sendsAll_of_full reliable _ _ rfl (fun _ => rfl) (by
    simp only [bufferedBytes, List.dropLast, List.foldl, List.length_replicate]
    decide)

/-- Without multi-line inserts every row is sent by a query of its own. -/
theorem insertAll_sendsAll_of_not_multiInsert
    (db : Driver)
    (query : Bytes)
    (rows : List Bytes)
    (single : db.multiInsert = false) :
    SendsAll db query rows := by
  have sent : ∀ insert : Insert, ∀ db : Driver, insert.multiLine = false →
      insert.query = query →
      (insert.addRows db rows).1 = insert ∧
        (insert.addRows db rows).2.executed =
          db.executed ++ rows.map fun row => query ++ block [row] := by
    induction rows with
    | nil => intro insert db _ _; simp [addRows]
    | cons row rows inductionHypothesis =>
        intro insert db multiLine query_eq
        have others := inductionHypothesis insert
          { db with executed := db.executed ++ [query ++ parens row] }
          multiLine query_eq
        simpa [addRows, addRow, multiLine, query_eq, Driver.executeQuery,
          block] using others
  obtain ⟨same, executed⟩ := sent ((Insert.new db).setQuery query) db single rfl
  refine ⟨rows.map fun row => query ++ block [row], ?_,
    rows.map fun row => [row], ?_, by simp, by simp⟩
  · have multiLine : ((Insert.new db).setQuery query).multiLine = false := single
    simp only [insertAll, same, execute, multiLine]
    simpa using executed
  · rw [← List.flatMap_def, List.flatMap_singleton']

end Insert
end Database
end Lotospp
