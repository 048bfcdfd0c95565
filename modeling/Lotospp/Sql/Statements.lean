import Lotospp.Sql.Tokens

/-!
# Statements

The statements that a program sends: the start of a transaction, the rows of a
table with a name in one column, a new row and new values of a row.  Keywords
are read without regard to case.
-/

namespace Sql

open Text

/-- A value. -/
inductive Value
  | text (value : Bytes)
  | number (value : Nat)
  deriving DecidableEq, Repr

/-- A statement. -/
inductive Statement
  /-- `BEGIN`. -/
  | begin
  /-- `SELECT columns FROM table WHERE column=LOWER(value)`. -/
  | select (columns : List Bytes) (table column value : Bytes)
  /-- `INSERT INTO table (columns) VALUES (values)`. -/
  | insert (table : Bytes) (columns : List Bytes) (values : List Value)
  /-- `UPDATE table SET column=value, ... WHERE column=value`. -/
  | update
      (table : Bytes)
      (sets : List (Bytes × Value))
      (column : Bytes)
      (value : Value)
  deriving DecidableEq, Repr

/-- The value of a token. -/
def Token.value : Token → Option Value
  | .text value => some (.text value)
  | .number value => some (.number value)
  | _ => none

/-- Names between commas, and what is behind them. -/
def readNames : List Token → List Bytes × List Token
  | .word name :: .mark 44 :: rest =>
      (name :: (readNames rest).1, (readNames rest).2)
  | .word name :: rest => ([name], rest)
  | rest => ([], rest)

/-- Values between commas, and what is behind them. -/
def readValues : List Token → List Value × List Token
  | .text value :: .mark 44 :: rest =>
      (.text value :: (readValues rest).1, (readValues rest).2)
  | .number value :: .mark 44 :: rest =>
      (.number value :: (readValues rest).1, (readValues rest).2)
  | .text value :: rest => ([.text value], rest)
  | .number value :: rest => ([.number value], rest)
  | rest => ([], rest)

/-- Settings between commas, and what is behind them. -/
def readSets : List Token → List (Bytes × Value) × List Token
  | .word name :: .mark 61 :: .text value :: .mark 44 :: rest =>
      ((name, .text value) :: (readSets rest).1, (readSets rest).2)
  | .word name :: .mark 61 :: .number value :: .mark 44 :: rest =>
      ((name, .number value) :: (readSets rest).1, (readSets rest).2)
  | .word name :: .mark 61 :: .text value :: rest =>
      ([(name, .text value)], rest)
  | .word name :: .mark 61 :: .number value :: rest =>
      ([(name, .number value)], rest)
  | rest => ([], rest)

/-- What is behind `SELECT`. -/
def readSelect (read : List Token) : Option Statement :=
  match readNames read with
  | (columns, [.word fromKey, .word table, .word whereKey, .word column,
      .mark 61, .word lowerKey, .mark 40, .text value, .mark 41]) =>
      if iequals fromKey (lit "FROM") ∧ iequals whereKey (lit "WHERE") ∧
          iequals lowerKey (lit "LOWER") then
        some (.select columns table column value)
      else none
  | _ => none

/-- What is behind `INSERT`. -/
def readInsert : List Token → Option Statement
  | .word intoKey :: .word table :: .mark 40 :: rest =>
      match readNames rest with
      | (columns, .mark 41 :: .word valuesKey :: .mark 40 :: rest) =>
          match readValues rest with
          | (values, [.mark 41]) =>
              if iequals intoKey (lit "INTO") ∧ iequals valuesKey (lit "VALUES") then
                some (.insert table columns values)
              else none
          | _ => none
      | _ => none
  | _ => none

/-- What is behind `UPDATE`. -/
def readUpdate : List Token → Option Statement
  | .word table :: .word setKey :: rest =>
      match readSets rest with
      | (sets, [.word whereKey, .word column, .mark 61, last]) =>
          if iequals setKey (lit "SET") ∧ iequals whereKey (lit "WHERE") then
            last.value.map fun value => .update table sets column value
          else none
      | _ => none
  | _ => none

/-- The statement of some tokens. -/
def readTokens : List Token → Option Statement
  | .word verb :: rest =>
      if iequals verb (lit "BEGIN") then
        if rest = [] then some .begin else none
      else if iequals verb (lit "SELECT") then readSelect rest
      else if iequals verb (lit "INSERT") then readInsert rest
      else if iequals verb (lit "UPDATE") then readUpdate rest
      else none
  | _ => none

/-- The statement that a text is. -/
def read (statement : Bytes) : Option Statement :=
  (tokens statement).bind readTokens

end Sql
