import Lotospp.Common.Telopt
import Lotospp.Text.Incremental

/-!
# The language of telnet commands

What a complete telnet command is and how many bytes it takes, as a decoder on
the bytes alone, and what each command does to a session.  A pass of
`User::parseTelopt` is then described by the command at the front of the
buffer.
-/

namespace Lotospp
namespace Common

open Text Effect

/-- A complete telnet command. -/
inductive TeloptCommand
  /-- `WILL`, `WONT`, `DO` or `DONT` with its option. -/
  | option (command option : UInt8)
  /-- The terminal size, which is corrupt without IAC SE behind it. -/
  | naws (cols rows : Nat) (corrupt : Bool)
  /-- The terminal type. -/
  | term (termType : Bytes)
  /-- A sub-option for the terminal type that does not tell it. -/
  | corruptTerm
  /-- Are you there? -/
  | ayt
  /-- The byte 255. -/
  | iac
  /-- Any other command of two bytes. -/
  | other
  deriving DecidableEq

/-- The position of the value of a byte of the terminal size, which stands
behind a 255. -/
def fieldAt (bytes : Bytes) (position : Nat) : Nat :=
  position + doubled (bytes.getD position 0)

/-- The position of the high byte of the width. -/
def colsHigh (bytes : Bytes) : Nat := fieldAt bytes 3
/-- The position of the low byte of the width. -/
def colsLow (bytes : Bytes) : Nat := fieldAt bytes (colsHigh bytes + 1)
/-- The position of the high byte of the height. -/
def rowsHigh (bytes : Bytes) : Nat := fieldAt bytes (colsLow bytes + 1)
/-- The position of the low byte of the height. -/
def rowsLow (bytes : Bytes) : Nat := fieldAt bytes (rowsHigh bytes + 1)

/-- The width in a terminal size option. -/
def nawsCols (bytes : Bytes) : Nat :=
  word (bytes.getD (colsHigh bytes) 0) (bytes.getD (colsLow bytes) 0)

/-- The height in a terminal size option. -/
def nawsRows (bytes : Bytes) : Nat :=
  word (bytes.getD (rowsHigh bytes) 0) (bytes.getD (rowsLow bytes) 0)

/-- The size is not followed by IAC SE. -/
def nawsCorrupt (bytes : Bytes) : Bool :=
  bytes.getD (rowsLow bytes + 1) 0 != telcmdIAC ||
    bytes.getD (rowsLow bytes + 2) 0 != telcmdSE

/-- Decode a terminal size option. -/
def decodeNaws (bytes : Bytes) : Option (TeloptCommand × Nat) :=
  if rowsLow bytes + 3 ≤ bytes.length then
    some (.naws (nawsCols bytes) (nawsRows bytes) (nawsCorrupt bytes),
      rowsLow bytes + 3)
  else none

/-- The position of the first IAC SE. -/
def findSE : Bytes → Option Nat
  | first :: second :: rest =>
      if first = telcmdIAC ∧ second = telcmdSE then some 0
      else (findSE (second :: rest)).map (· + 1)
  | _ => none

/-- The terminal type in the bytes of its option. -/
def typeOf (bytes : Bytes) (length : Nat) : Bytes :=
  if length = 0 then unresolved else (bytes.drop 4).take length

/-- Decode a terminal type option. -/
def decodeTerm (bytes : Bytes) : Option (TeloptCommand × Nat) :=
  if bytes.length < 6 then none
  else if bytes.getD 3 0 ≠ telsubIS then some (.corruptTerm, 4)
  else
    (findSE (bytes.drop 4)).map fun length =>
      (.term (typeOf bytes length), length + 6)

/-- The commands that are followed by an option. -/
def takesOption (command : UInt8) : Bool :=
  command = telcmdWILL || command = telcmdWONT || command = telcmdDO ||
    command = telcmdDONT

/-- Decode the command at the front of bytes that start with IAC. -/
def decodeCommand (bytes : Bytes) : Option (TeloptCommand × Nat) :=
  match bytes with
  | _ :: command :: rest =>
      if command = telcmdSB then
        if rest.head? = some teloptNAWS then decodeNaws bytes
        else if rest.head? = some teloptTERM then decodeTerm bytes
        else none
      else if takesOption command then
        rest.head?.map fun option => (.option command option, 3)
      else if command = telcmdAYT then some (.ayt, 2)
      else if command = telcmdIAC then some (.iac, 2)
      else some (.other, 2)
  | _ => none

/-- A piece of the input of a session. -/
inductive Token
  /-- An ordinary byte. -/
  | text (byte : UInt8)
  /-- A telnet command. -/
  | command (command : TeloptCommand)
  deriving DecidableEq

/-- The first token. -/
def nextToken (bytes : Bytes) : Option (Token × Nat) :=
  match bytes with
  | [] => none
  | byte :: _ =>
      if byte = telcmdIAC then
        (decodeCommand bytes).map fun found => (.command found.1, found.2)
      else some (.text byte, 1)

/-! ## What is decoded stays -/

theorem le_fieldAt (bytes : Bytes) (position : Nat) :
    position ≤ fieldAt bytes position := Nat.le_add_right _ _

theorem fieldAt_le (bytes : Bytes) (position : Nat) :
    fieldAt bytes position ≤ position + 1 := by
  unfold fieldAt doubled
  split <;> omega

theorem getD_append
    {bytes : Bytes}
    {position : Nat}
    (inside : position < bytes.length)
    (more : Bytes) :
    (bytes ++ more).getD position 0 = bytes.getD position 0 := by
  simp [List.getElem?_append_left inside]

theorem fieldAt_append
    {bytes : Bytes}
    {position : Nat}
    (inside : position < bytes.length)
    (more : Bytes) :
    fieldAt (bytes ++ more) position = fieldAt bytes position := by
  rw [fieldAt, getD_append inside, fieldAt]

/-- The order of the positions of a terminal size option. -/
theorem naws_positions (bytes : Bytes) :
    3 ≤ colsHigh bytes ∧ colsHigh bytes ≤ 4 ∧
      colsHigh bytes < colsLow bytes ∧ colsLow bytes ≤ colsHigh bytes + 2 ∧
      colsLow bytes < rowsHigh bytes ∧ rowsHigh bytes ≤ colsLow bytes + 2 ∧
      rowsHigh bytes < rowsLow bytes ∧ rowsLow bytes ≤ rowsHigh bytes + 2 := by
  have h1 := le_fieldAt bytes 3
  have h2 := fieldAt_le bytes 3
  have h3 := le_fieldAt bytes (colsHigh bytes + 1)
  have h4 := fieldAt_le bytes (colsHigh bytes + 1)
  have h5 := le_fieldAt bytes (colsLow bytes + 1)
  have h6 := fieldAt_le bytes (colsLow bytes + 1)
  have h7 := le_fieldAt bytes (rowsHigh bytes + 1)
  have h8 := fieldAt_le bytes (rowsHigh bytes + 1)
  simp only [colsHigh, colsLow, rowsHigh, rowsLow] at *
  omega

/-- The positions of a terminal size do not depend on what follows it. -/
theorem naws_positions_append
    {bytes : Bytes}
    (inside : rowsHigh bytes + 1 < bytes.length)
    (more : Bytes) :
    colsHigh (bytes ++ more) = colsHigh bytes ∧
      colsLow (bytes ++ more) = colsLow bytes ∧
      rowsHigh (bytes ++ more) = rowsHigh bytes ∧
      rowsLow (bytes ++ more) = rowsLow bytes := by
  have order := naws_positions bytes
  have first : colsHigh (bytes ++ more) = colsHigh bytes :=
    fieldAt_append (by omega) more
  have second : colsLow (bytes ++ more) = colsLow bytes := by
    rw [colsLow, first, fieldAt_append (by omega) more, colsLow]
  have third : rowsHigh (bytes ++ more) = rowsHigh bytes := by
    rw [rowsHigh, second, fieldAt_append (by omega) more, rowsHigh]
  have fourth : rowsLow (bytes ++ more) = rowsLow bytes := by
    rw [rowsLow, third, fieldAt_append (by omega) more, rowsLow]
  exact ⟨first, second, third, fourth⟩

theorem decodeNaws_append
    {bytes : Bytes}
    {found : TeloptCommand × Nat}
    (decoded : decodeNaws bytes = some found)
    (more : Bytes) :
    decodeNaws (bytes ++ more) = some found := by
  unfold decodeNaws at decoded
  split at decoded
  · rename_i complete
    have order := naws_positions bytes
    have inside : rowsHigh bytes + 1 < bytes.length := by omega
    obtain ⟨first, second, third, fourth⟩ :=
      naws_positions_append inside more
    rw [← decoded, decodeNaws, if_pos]
    · simp only [nawsCols, nawsRows, nawsCorrupt, first, second, third, fourth]
      rw [getD_append (by omega), getD_append (by omega),
        getD_append (by omega), getD_append (by omega),
        getD_append (by omega), getD_append (by omega)]
    · rw [fourth, List.length_append]
      omega
  · exact absurd decoded (by simp)

theorem findSE_lt
    {bytes : Bytes}
    {length : Nat}
    (found : findSE bytes = some length) :
    length + 2 ≤ bytes.length := by
  induction bytes using findSE.induct generalizing length with
  | case1 first second rest isEnd =>
      simp only [findSE, isEnd, and_self, if_true, Option.some.injEq] at found
      simp [← found]
  | case2 first second rest notEnd inductionHypothesis =>
      simp only [findSE, notEnd, if_false, Option.map_eq_some_iff] at found
      obtain ⟨shorter, foundRest, rfl⟩ := found
      have inside := inductionHypothesis foundRest
      simp only [List.length_cons] at inside ⊢
      omega
  | case3 bytes short => simp [findSE] at found

theorem findSE_append
    {bytes : Bytes}
    {length : Nat}
    (found : findSE bytes = some length)
    (more : Bytes) :
    findSE (bytes ++ more) = some length := by
  induction bytes using findSE.induct generalizing length with
  | case1 first second rest isEnd =>
      simp only [findSE, isEnd, and_self, if_true] at found
      simp [findSE, isEnd, found]
  | case2 first second rest notEnd inductionHypothesis =>
      simp only [findSE, notEnd, if_false, Option.map_eq_some_iff] at found
      obtain ⟨shorter, foundRest, rfl⟩ := found
      have longer := inductionHypothesis foundRest
      simp only [List.cons_append] at longer ⊢
      simp [findSE, notEnd, longer]
  | case3 bytes short => simp [findSE] at found

theorem decodeTerm_append
    {bytes : Bytes}
    {found : TeloptCommand × Nat}
    (decoded : decodeTerm bytes = some found)
    (more : Bytes) :
    decodeTerm (bytes ++ more) = some found := by
  unfold decodeTerm at decoded ⊢
  split at decoded
  · exact absurd decoded (by simp)
  · rename_i enough
    have longer : ¬ (bytes ++ more).length < 6 := by
      rw [List.length_append]
      omega
    rw [if_neg longer, getD_append (by omega)]
    split at decoded
    · rename_i notIs
      rw [if_pos notIs, decoded]
    · rename_i isIs
      rw [if_neg isIs]
      obtain ⟨length, foundEnd, rfl⟩ := Option.map_eq_some_iff.mp decoded
      have inside := findSE_lt foundEnd
      have body : (bytes ++ more).drop 4 = bytes.drop 4 ++ more :=
        List.drop_append_of_le_length (by omega)
      rw [body, findSE_append foundEnd, Option.map_some, typeOf, typeOf, body,
        List.take_append_of_le_length (by omega)]

theorem decodeCommand_append
    {bytes : Bytes}
    {found : TeloptCommand × Nat}
    (decoded : decodeCommand bytes = some found)
    (more : Bytes) :
    decodeCommand (bytes ++ more) = some found := by
  rcases bytes with _ | ⟨first, _ | ⟨command, rest⟩⟩
  · simp [decodeCommand] at decoded
  · simp [decodeCommand] at decoded
  · have sameHead : ∀ option, rest.head? = some option →
        (rest ++ more).head? = some option := by
      intro option head
      simp [List.head?_append, head]
    simp only [decodeCommand, List.cons_append] at decoded ⊢
    split at decoded
    · rename_i isSB
      rw [if_pos isSB]
      split at decoded
      · rename_i isNaws
        rw [if_pos (sameHead _ isNaws)]
        exact decodeNaws_append decoded more
      · rename_i notNaws
        split at decoded
        · rename_i isTerm
          have notNaws' : ¬ (rest ++ more).head? = some teloptNAWS := by
            rw [sameHead _ isTerm]
            decide
          rw [if_neg notNaws', if_pos (sameHead _ isTerm)]
          exact decodeTerm_append decoded more
        · exact absurd decoded (by simp)
    · rename_i notSB
      rw [if_neg notSB]
      split at decoded
      · rename_i isOption
        rw [if_pos isOption]
        obtain ⟨option, head, rfl⟩ := Option.map_eq_some_iff.mp decoded
        rw [sameHead _ head, Option.map_some]
      · rename_i notOption
        rw [if_neg notOption]
        exact decoded

theorem decodeCommand_size
    {bytes : Bytes}
    {command : TeloptCommand}
    {size : Nat}
    (decoded : decodeCommand bytes = some (command, size)) :
    2 ≤ size ∧ size ≤ bytes.length := by
  rcases bytes with _ | ⟨first, _ | ⟨second, rest⟩⟩
  · simp [decodeCommand] at decoded
  · simp [decodeCommand] at decoded
  · simp only [decodeCommand] at decoded
    split at decoded
    · split at decoded
      · unfold decodeNaws at decoded
        split at decoded
        · simp only [Option.some.injEq, Prod.mk.injEq] at decoded
          omega
        · exact absurd decoded (by simp)
      · split at decoded
        · unfold decodeTerm at decoded
          split at decoded
          · exact absurd decoded (by simp)
          · split at decoded
            · simp only [Option.some.injEq, Prod.mk.injEq] at decoded
              omega
            · obtain ⟨length, foundEnd, same⟩ :=
                Option.map_eq_some_iff.mp decoded
              have inside := findSE_lt foundEnd
              rw [List.length_drop] at inside
              simp only [Prod.mk.injEq] at same
              omega
        · exact absurd decoded (by simp)
    · have long : 2 ≤ (first :: second :: rest).length := by simp
      split at decoded
      · obtain ⟨option, head, same⟩ := Option.map_eq_some_iff.mp decoded
        have nonempty : rest ≠ [] := by
          rintro rfl
          simp at head
        have positive := List.length_pos_of_ne_nil nonempty
        simp only [Prod.mk.injEq] at same
        simp only [List.length_cons]
        omega
      · have two : size = 2 := by
          split at decoded <;> [skip; split at decoded] <;>
            simp_all
        omega

/-- The decoder of the input of a session. -/
def telnet : Decoder UInt8 Token where
  next := nextToken
  size := by
    intro bytes token count found
    rcases bytes with _ | ⟨byte, rest⟩
    · simp [nextToken] at found
    · simp only [nextToken] at found
      split at found
      · obtain ⟨⟨command, size⟩, decoded, same⟩ :=
          Option.map_eq_some_iff.mp found
        have bounds := decodeCommand_size decoded
        simp only [Prod.mk.injEq] at same
        omega
      · simp only [Option.some.injEq, Prod.mk.injEq] at found
        simp only [List.length_cons]
        omega
  append := by
    intro bytes token count found more
    rcases bytes with _ | ⟨byte, rest⟩
    · simp [nextToken] at found
    · simp only [nextToken, List.cons_append] at found ⊢
      split at found
      · rename_i isIAC
        obtain ⟨⟨command, size⟩, decoded, same⟩ :=
          Option.map_eq_some_iff.mp found
        have longer := decodeCommand_append decoded more
        rw [List.cons_append] at longer
        rw [if_pos isIAC, longer, Option.map_some, same]
      · rename_i notIAC
        rw [if_neg notIAC, found]

end Common
end Lotospp
