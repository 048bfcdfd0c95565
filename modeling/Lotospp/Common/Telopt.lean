import Lotospp.Common.Output

/-!
# Telnet options

`User::parseTelopt` takes complete telnet commands off the front of the buffer
`buff`, of which the first `bpos` bytes are in use.
-/

namespace Lotospp
namespace Common

open Text Effect

/-- The state of a session that reads: the shared state and the telnet buffer
of the session. -/
structure Reader where
  /-- The shared state. -/
  core : Core
  /-- `buff` and `bpos`. -/
  buffer : TeloptBuffer

/-- Session code that also touches the telnet buffer. -/
abbrev ReadM : Type → Type :=
  Prog Abort Reader Obs

/-- Session code that leaves the telnet buffer alone. -/
def onCore {α : Type} (prog : CoreM α) : ReadM α :=
  Prog.zoom Reader.core (fun core reader => { reader with core := core }) prog

/-- `buff[position]`. -/
def byteAt (buffer : TeloptBuffer) (position : Nat) : ReadM UInt8 :=
  checked (charAt buffer.buff position)

/-- The 16-bit number with these two bytes. -/
def word (high low : UInt8) : Nat :=
  high.toNat * 256 + low.toNat

/-- The width of a byte that is sent twice when it is 255. -/
def doubled (byte : UInt8) : Nat :=
  if byte = telcmdIAC then 1 else 0

/-- A size as it is printed. -/
def sizeText (cols rows : Nat) : Bytes :=
  decimal cols ++ lit "x" ++ decimal rows

/-- The terminal size is not followed by IAC SE. -/
def corruptSize (me : Nat) : CoreM Unit := do
  uPrintf me
    (lit "WARNING: Your client sent a corrupt terminal size option!\n")
  update me fun user => { user with termCols := 0, termRows := 0 }

/-- The end of `User::getTermsize`, once the option is complete. -/
def setTermsize (me : Nat) (dCols dRows : Nat) : CoreM Unit := do
  let user ← user me
  let default := user.termCols = 0 ∨ user.termRows = 0
  let cols := if user.termCols = 0 then dCols else user.termCols
  let rows := if user.termRows = 0 then dRows else user.termRows
  update me fun user => { user with termCols := cols, termRows := rows }
  if user.level = .login then do
    uPrintf me
      ((if default then
          lit "Your terminal has been set to a default size of "
        else lit "Terminal size: ") ++ sizeText cols rows ++ lit "\n")
    update me fun user =>
      { user with flagsTelnet := { user.flagsTelnet with termsize := true } }
  else
    uPrintf me
      (lit "INFO: Terminal size now: " ++ sizeText cols rows ++ lit "\n")

/-- `User::getTermsize`: the size of the option, or zero when it is
incomplete. -/
def getTermsize (me : Nat) : ReadM Int := do
  let reader ← Prog.get
  let buffer := reader.buffer
  if buffer.bpos < 9 then pure 0
  else do
    let dCols := (reader.core.users me).termCols
    let dRows := (reader.core.users me).termRows
    onCore (update me fun user => { user with termCols := 0, termRows := 0 })
    let byte ← byteAt buffer 3
    let pos1 := 3 + doubled byte
    let byte ← byteAt buffer (pos1 + 1)
    let pos2 := pos1 + 1 + doubled byte
    if pos2 > buffer.bpos then pure 0
    else do
      let high ← byteAt buffer pos1
      let low ← byteAt buffer pos2
      onCore (update me fun user => { user with termCols := word high low })
      let byte ← byteAt buffer (pos2 + 1)
      let pos1 := pos2 + 1 + doubled byte
      let byte ← byteAt buffer (pos1 + 1)
      let pos2 := pos1 + 1 + doubled byte
      let high ← byteAt buffer pos1
      let low ← byteAt buffer pos2
      onCore (update me fun user => { user with termRows := word high low })
      if pos2 > buffer.bpos - 3 then pure 0
      else do
        let first ← byteAt buffer (pos2 + 1)
        let second ← byteAt buffer (pos2 + 2)
        onCore (Prog.when (first ≠ telcmdIAC ∨ second ≠ telcmdSE)
          (corruptSize me))
        onCore (setTermsize me dCols dRows)
        pure (pos2 + 3 : Nat)

/-- The loop of `User::getTermtype`: the position of IAC SE, or `bpos`. -/
def scanType (buffer : TeloptBuffer) :
    (turns : Nat) → (i : Nat) → Except Fault Nat
  | 0, i => .ok i
  | turns + 1, i => do
      let byte ← charAt buffer.buff i
      if byte = telcmdIAC ∧ i + 1 < buffer.bpos then do
        let next ← charAt buffer.buff (i + 1)
        if next = telcmdSE then .ok i else scanType buffer turns (i + 1)
      else scanType buffer turns (i + 1)

/-- The text for a terminal type that is not known. -/
def unresolved : Bytes :=
  lit "<unresolved>"

/-- The end of `User::getTermtype`, once the type is known. -/
def setTermtype (env : Env) (me : Nat) (termType : Bytes) : CoreM Unit := do
  let ansi := env.ansiTerms ≠ [] ∧
    (env.ansiTerms.splitOn 44).any fun term => iequals termType term
  update me fun user =>
    { user with
      termType := termType
      flagsTelnet :=
        { user.flagsTelnet with termtype := true, ansiTerm := ansi } }
  uPrintf me (lit "Terminal type: " ++ cStr termType ++ lit "\n")
  Prog.when (¬ ansi) (uPrintf me
    (lit "WARNING: Your terminal is not recognised as ANSI code compatible.\n"))

/-- A sub-option for the terminal type that does not tell it. -/
def corruptTermtype (env : Env) (me : Nat) : CoreM Unit := do
  uPrintf me
    (lit "WARNING: Your client sent a corrupt terminal type option!\n")
  setTermtype env me unresolved

/-- A `size_t` converted to `int`. -/
def toInt (size : Nat) : Int :=
  (size : Int).bmod (2 ^ 32)

/-- `User::getTermtype`: the size of the option, or zero when it is
incomplete. -/
def getTermtype (env : Env) (me : Nat) : ReadM Int := do
  let reader ← Prog.get
  let buffer := reader.buffer
  if buffer.bpos < 6 then pure 0
  else do
    let sub ← byteAt buffer 3
    if sub ≠ telsubIS then do
      onCore (corruptTermtype env me)
      pure 4
    else do
      let i ← checked (scanType buffer (buffer.bpos - 4) 4)
      if i = buffer.bpos then pure 0
      else if i = 4 then do
        onCore (setTermtype env me unresolved)
        pure (toInt (i + 2))
      else do
        let buff ← checked (eraseFrom buffer.buff i)
        Prog.modify fun reader =>
          { reader with buffer := { reader.buffer with buff := buff } }
        let termType ← checked (substr buff 4)
        onCore (setTermtype env me termType)
        pure (toInt (i + 2))

/-- `TELCMD_WILL`. -/
def teloptWill (me : Nat) (option : UInt8) : CoreM Unit :=
  if option = teloptNAWS then pure ()
  else if option = teloptTERM then
    uPrintf me
      [telcmdIAC, telcmdSB, teloptTERM, telsubSEND, telcmdIAC, telcmdSE]
  else uPrintf me (lit "WARNING: Your client sent unexpected TELNET_WILL\n")

/-- `TELCMD_WONT`. -/
def teloptWont (me : Nat) (option : UInt8) : CoreM Unit :=
  if option = teloptNAWS then do
    let user ← user me
    uPrintf me
      (lit "Unable to get your terminal size, defaulting to " ++
        sizeText user.termCols user.termRows ++ lit ".\n")
    update me fun user =>
      { user with flagsTelnet := { user.flagsTelnet with termsize := true } }
  else if option = teloptTERM then do
    uPrintf me (lit "Unable to get your terminal type.\n")
    update me fun user =>
      { user with
        flagsTelnet := { user.flagsTelnet with termtype := true }
        termType := unresolved }
  else uPrintf me (lit "WARNING: Your client sent unexpected TELNET_WILL\n")

/-- The flag for `TELOPT_SGA`. -/
def setSGA (me : Nat) : CoreM Unit :=
  update me fun user =>
    { user with flagsTelnet := { user.flagsTelnet with sga := true } }

/-- The flag for `TELOPT_ECHO`. -/
def setECHO (me : Nat) : CoreM Unit :=
  update me fun user =>
    { user with flagsTelnet := { user.flagsTelnet with echo := true } }

/-- `TELCMD_DO`. -/
def teloptDo (me : Nat) (option : UInt8) : CoreM Unit :=
  if option = teloptSGA then setSGA me
  else if option = teloptECHO then setECHO me
  else
    uPrintf me
      (lit "WARNING: Your client sent unexpected option " ++
        decimal (signed option) ++ lit " for TELNET_DO\n")

/-- `TELCMD_DONT`. -/
def teloptDont (me : Nat) (option : UInt8) : CoreM Unit :=
  if option = teloptSGA then do
    uPrintf me
      (lit "Your client does not support character mode. This will cause I/O\n         problems with your session.\n")
    setSGA me
  else if option = teloptECHO then do
    uPrintf me
      (lit "WARNING: Your client refused to switch off input echoing.\n")
    setECHO me
  else
    uPrintf me
      (lit "WARNING: Your client sent unexpected option " ++
        decimal (signed option) ++ lit " for TELNET_DONT\n")

/-- A command of three bytes, once it is complete. -/
def teloptOption
    (buffer : TeloptBuffer)
    (act : UInt8 → CoreM Unit) : ReadM (Option Int) := do
  if buffer.bpos < 3 then pure none
  else do
    let option ← byteAt buffer 2
    onCore (act option)
    pure (some 3)

/-- A sub-option gives its size, which is zero when it is incomplete. -/
def complete (shift : Int) : Option Int :=
  if shift = 0 then none else some shift

/-- The switch of `User::parseTelopt`: the size of the command, or `none`
when it is incomplete. -/
def teloptCommand (env : Env) (me : Nat) (command : UInt8) :
    ReadM (Option Int) := do
  let reader ← Prog.get
  let buffer := reader.buffer
  if command = telcmdSB then do
    let option ← byteAt buffer 2
    if option = teloptNAWS then do
      let shift ← getTermsize me
      pure (complete shift)
    else if option = teloptTERM then do
      let shift ← getTermtype env me
      pure (complete shift)
    else do
      onCore (uPrintf me
        (lit "WARNING: Your client sent unexpected sub option " ++
          decimal (signed option) ++ lit "\n"))
      pure (some 0)
  else if command = telcmdWILL then teloptOption buffer (teloptWill me)
  else if command = telcmdWONT then teloptOption buffer (teloptWont me)
  else if command = telcmdDO then teloptOption buffer (teloptDo me)
  else if command = telcmdDONT then teloptOption buffer (teloptDont me)
  else if command = telcmdAYT then do
    onCore (uPrintf me (lit "[Lotos++ : yes]\n"))
    pure (some 2)
  else if command = telcmdIAC then do
    onCore (uPrintf me [env.pointerByte])
    pure (some 2)
  else pure (some 2)

/-- `bpos-=shift; buff.erase(0, shift)`. -/
def TeloptBuffer.consume (buffer : TeloptBuffer) (shift : Int) :
    TeloptBuffer where
  buff := if shift < 0 then [] else buffer.buff.drop shift.toNat
  bpos := ((buffer.bpos - shift) % 2 ^ 32).toNat

/-- The end of a turn: `parseTelopt` returns when the command is incomplete,
else the command leaves the buffer. -/
def finishPass (me : Nat) (pending : Bytes) :
    Option Int → ReadM (Unit ⊕ Bool)
  | none => pure (.inr false)
  | some shift => do
      let reader ← Prog.get
      let after := reader.buffer.consume shift
      Prog.modify fun reader => { reader with buffer := after }
      Prog.emit (.consumed me pending shift after)
      pure (.inl ())

/-- A turn of the loop of `User::parseTelopt`.  It answers `false` when it
returns because a command is incomplete, and `true` when the loop is left. -/
def teloptPass (env : Env) (me : Nat) : Unit → ReadM (Unit ⊕ Bool) := fun _ => do
  let reader ← Prog.get
  let buffer := reader.buffer
  if buffer.bpos = 0 then pure (.inr true)
  else do
    let first ← byteAt buffer 0
    if first ≠ telcmdIAC then pure (.inr true)
    else do
      Prog.emit (.telopt me buffer.pending)
      if buffer.bpos < 2 then pure (.inr false)
      else do
        let command ← byteAt buffer 1
        let shift ← teloptCommand env me command
        finishPass me buffer.pending shift

/-- All options are known, and this has not been noticed yet. -/
def TelnetFlags.due (flags : TelnetFlags) : Bool :=
  !flags.gotTeloptInfo && flags.echo && flags.sga && flags.termtype &&
    flags.termsize

/-- The end of `User::parseTelopt`: once all options are known, the login
starts. -/
def gotTelopt (env : Env) (me : Nat) : CoreM Unit := do
  let user ← user me
  Prog.when user.flagsTelnet.due do
    update me fun user =>
      { user with
        flagsTelnet := { user.flagsTelnet with gotTeloptInfo := true }
        stage := .loginId }
    prompt env me

/-- `User::parseTelopt`.  A pass that consumes nothing repeats for ever. -/
def parseTelopt (env : Env) (me : Nat) : ReadM Bool := do
  let reader ← Prog.get
  if ← Prog.loop (teloptPass env me) .hang (reader.buffer.bpos + 1) () then do
    onCore (gotTelopt env me)
    pure true
  else pure false

end Common
end Lotospp
