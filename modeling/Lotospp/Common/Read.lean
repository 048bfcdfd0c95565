import Lotospp.Commands.CmdLine
import Lotospp.Common.Telopt

/-!
# Reading a packet

`User::uRead` loops through the bytes of a packet.  Telnet commands are copied
into the telnet buffer with all that follows them, and what is left of the
buffer behind the commands becomes the input of the loop.
-/

namespace Lotospp
namespace Common

open Text Effect Commands

/-- `NetworkMessage::MAXSIZE`. -/
def maxSize : Nat := 15340

/-- `NetworkMessage::GetRaw` of a message with these bytes. -/
def getRaw (data : Bytes) : Bytes :=
  if maxSize ≤ data.length then [] else data

/-- `std::string::max_size()`. -/
def stringMaxSize : Nat := 2 ^ 63 - 1

/-- A carriage return: the line is complete. -/
def lineEnd (env : Env) (me : Nat) (rest : Bytes) : CoreM Unit := do
  let before ← user me
  let line ← checked (eraseFrom before.text before.tbpos)
  update me fun user => { user.setText line with tbpos := 0 }
  Prog.when (before.flagsTelnet.echo && before.flagsTelnet.sga)
    (uWrite me [cr, lf])
  let core ← Prog.get
  Prog.emit (.handed { user := me, core := core, line := line, rest := rest })
  if before.level = .login then do
    login env me line
    let user ← user me
    Prog.when (user.level = .login) (prompt env me)
  else parseLine env me

/-- Backspace or delete. -/
def rubOut (me : Nat) : CoreM Unit := do
  let user ← user me
  if user.tbpos > 0 then do
    let text ← checked (eraseFrom user.text (user.tbpos - 1))
    update me fun user => { user.setText text with tbpos := user.tbpos - 1 }
    uWrite me [8, 32, 8]
  else pure ()

/-- Any other character joins the line; `tbpos` is an `int`. -/
def typed (me : Nat) (byte : UInt8) : CoreM Unit := do
  let user ← user me
  let text ← checked (replace user.text user.tbpos 1 [byte])
  update me fun user => user.setText text
  if user.tbpos + 1 < 2 ^ 31 then do
    update me fun user => { user with tbpos := user.tbpos + 1 }
    if user.stage.hidesInput then uWrite me (lit "*") else uWrite me [byte]
  else Prog.raise .undefined

/-- Deal with an ordinary byte. -/
def ordinary (env : Env) (me : Nat) (byte : UInt8) (rest : Bytes) :
    CoreM Unit := do
  Prog.emit (.text me byte)
  let user ← user me
  if user.stage = .new then pure ()
  else if byte = cr then lineEnd env me rest
  else if byte = 0 ∨ byte = lf then pure ()
  else if byte = asciiBS ∨ byte = asciiDEL then rubOut me
  else typed me byte

/-- The variables of the loop of `User::uRead`. -/
structure ReadPosition where
  /-- `input`. -/
  input : Bytes
  /-- `len`. -/
  len : Nat
  /-- `i`. -/
  i : Nat

/-- The end of a turn: the byte at `i` is an ordinary one. -/
def readByte (env : Env) (me : Nat) (position : ReadPosition) :
    ReadM (ReadPosition ⊕ Unit) := do
  let byte ← checked (charAt position.input position.i)
  onCore (ordinary env me byte (position.input.drop (position.i + 1)))
  pure (.inl { position with i := position.i + 1 })

/-- Append the rest of the input to the telnet buffer. -/
def bufferRest (position : ReadPosition) : ReadM Unit := do
  let reader ← Prog.get
  let buffer := reader.buffer
  let remain := position.len - position.i
  let remain :=
    if remain + buffer.bpos > stringMaxSize then stringMaxSize else remain
  let rest ← checked (substr position.input position.i)
  let buff ← checked (replace buffer.buff buffer.bpos remain rest)
  Prog.modify fun reader =>
    { reader with buffer := ⟨buff, (buffer.bpos + remain) % 2 ^ 32⟩ }

/-- A turn of the loop of `User::uRead`. -/
def readPass (env : Env) (me : Nat) (position : ReadPosition) :
    ReadM (ReadPosition ⊕ Unit) := do
  if position.i < position.len then do
    let reader ← Prog.get
    let byte ← checked (charAt position.input position.i)
    if byte = telcmdIAC ∨ reader.buffer.bpos ≠ 0 then do
      bufferRest position
      if ← parseTelopt env me then do
        let reader ← Prog.get
        if reader.buffer.bpos = 0 then pure (.inr ())
        else do
          let input ← checked
            (substrCount reader.buffer.buff 0 reader.buffer.bpos)
          Prog.modify fun reader =>
            { reader with buffer := { reader.buffer with bpos := 0 } }
          readByte env me ⟨input, reader.buffer.bpos, 0⟩
      else pure (.inr ())
    else readByte env me position
  else pure (.inr ())

/-- `User::uRead`. -/
def uRead (env : Env) (me : Nat) (data : Bytes) : ReadM Unit := do
  let reader ← Prog.get
  Prog.emit (.packet me reader.buffer.pending data)
  Prog.loop (readPass env me) .hang
    (reader.buffer.bpos + data.length + 1) ⟨getRaw data, data.length, 0⟩

end Common
end Lotospp
