import Lotospp.Common.Follows
import Lotospp.Common.TeloptDecode

/-!
# A pass of the telnet parser

What a pass of `User::parseTelopt` does is told by the command at the front of
the pending bytes: the change of the user, the observations and the buffer it
leaves.
-/

namespace Lotospp
namespace Common

open Text Effect

/-- The program only changes this user, and leaves it what it is known by. -/
structure Changes (prog : CoreM Unit) (me : Nat) (change : User → User) :
    Prop where
  /-- The user keeps its identity and its client. -/
  keeps : User.Keeps change
  /-- The program has that outcome. -/
  runs : ∀ core, Runs prog core (.ok (), core.setUser me change)

namespace Changes

variable {me : Nat} {first second : User → User}

/-- A program that leaves the state alone. -/
theorem of_same
    {prog : CoreM Unit}
    (runs : ∀ core, Runs prog core (.ok (), core)) :
    Changes prog me id where
  keeps := fun _ => rfl
  runs core := by
    rw [Core.setUser_id]
    exact runs core

theorem pure_intro : Changes (pure ()) me id :=
  of_same (Runs.pure_intro ())

theorem update_intro {change : User → User} (keeps : User.Keeps change) :
    Changes (update me change) me change :=
  ⟨keeps, fun _ => Runs.update keeps⟩

theorem uPrintf_intro (text : Bytes) : Changes (uPrintf me text) me id :=
  of_same fun core => Runs.uPrintf core me text

theorem bind
    {prog next : CoreM Unit}
    (changes : Changes prog me first)
    (changesNext : Changes next me second) :
    Changes (prog >>= fun _ => next) me (second ∘ first) where
  keeps := changes.keeps.comp changesNext.keeps
  runs core := by
    apply Runs.bind (changes.runs core)
    rw [← Core.setUser_setUser]
    exact changesNext.runs _

theorem ite
    {condition : Prop} [Decidable condition]
    {prog next : CoreM Unit}
    (changes : Changes prog me first)
    (changesNext : Changes next me second) :
    Changes (if condition then prog else next) me
      (if condition then first else second) := by
  split
  · exact changes
  · exact changesNext

theorem when
    {condition : Prop} [Decidable condition]
    {prog : CoreM Unit}
    (changes : Changes prog me first) :
    Changes (Prog.when condition prog) me
      (if condition then first else id) :=
  ite changes pure_intro

/-- A program that first looks at the user. -/
theorem user_bind
    {next : User → CoreM Unit}
    {change : User → User → User}
    (changes : ∀ user, Changes (next user) me (change user)) :
    Changes (user me >>= next) me (fun user => change user user) where
  keeps user := (changes user).keeps user
  runs core := by
    have ran := (changes (core.users me)).runs core
    exact Runs.user_bind (by simpa only [Core.setUser] using ran)

/-- The change is only looked at on the user it is made to. -/
theorem congr
    {prog : CoreM Unit}
    (changes : Changes prog me first)
    (same : ∀ user, first user = second user) :
    Changes prog me second := by
  rwa [← funext same]

/-- What the program shows. -/
theorem follows
    {prog : CoreM Unit}
    {change : User → User}
    (changes : Changes prog me change)
    (core : Core) :
    Follows core (prog.run core).obs (core.setUser me change) := by
  obtain ⟨obs, ran, follows⟩ := changes.runs core
  rw [ran]
  exact follows

end Changes

/-! ## What a command does -/

/-- What the code does for a complete terminal size option. -/
def nawsAct (me : Nat) (cols rows : Nat) (corrupt : Bool) : CoreM Unit := do
  let before ← user me
  update me fun user => { user with termCols := cols, termRows := rows }
  Prog.when corrupt (corruptSize me)
  setTermsize me before.termCols before.termRows

namespace TeloptCommand

/-- What the code does for a complete command. -/
def act (env : Env) (me : Nat) : TeloptCommand → CoreM Unit
  | .option command code =>
      if command = telcmdWILL then teloptWill me code
      else if command = telcmdWONT then teloptWont me code
      else if command = telcmdDO then teloptDo me code
      else teloptDont me code
  | .naws cols rows corrupt => nawsAct me cols rows corrupt
  | .term termType => setTermtype env me termType
  | .corruptTerm => corruptTermtype env me
  | .ayt => uPrintf me (lit "[Lotos++ : yes]\n")
  | .iac => uPrintf me [env.pointerByte]
  | .other => pure ()

/-- The terminal type is one of the ANSI terminals. -/
def isAnsi (env : Env) (termType : Bytes) : Bool :=
  env.ansiTerms ≠ [] ∧
    (env.ansiTerms.splitOn 44).any fun term => iequals termType term

/-- Set the terminal type. -/
def settleType (env : Env) (termType : Bytes) (user : User) : User :=
  { user with
    termType := termType
    flagsTelnet :=
      { user.flagsTelnet with
        termtype := true, ansiTerm := isAnsi env termType } }

/-- Set the terminal size; a zero keeps the size as it was. -/
def settleSize (cols rows : Nat) (user : User) : User :=
  { user with
    termCols := if cols = 0 then user.termCols else cols
    termRows := if rows = 0 then user.termRows else rows
    flagsTelnet :=
      { user.flagsTelnet with
        termsize :=
          if user.level = .login then true else user.flagsTelnet.termsize } }

/-- How an option changes a user. -/
def settleOption (command code : UInt8) (user : User) : User :=
  if command = telcmdWILL then user
  else if command = telcmdWONT then
    if code = teloptNAWS then
      { user with flagsTelnet := { user.flagsTelnet with termsize := true } }
    else if code = teloptTERM then
      { user with
        flagsTelnet := { user.flagsTelnet with termtype := true }
        termType := unresolved }
    else user
  else if code = teloptSGA then
    { user with flagsTelnet := { user.flagsTelnet with sga := true } }
  else if code = teloptECHO then
    { user with flagsTelnet := { user.flagsTelnet with echo := true } }
  else user

/-- How a command changes a user. -/
def settle (env : Env) : TeloptCommand → User → User
  | .option command code => settleOption command code
  | .naws cols rows corrupt =>
      if corrupt then settleSize 0 0 else settleSize cols rows
  | .term termType => settleType env termType
  | .corruptTerm => settleType env unresolved
  | .ayt => id
  | .iac => id
  | .other => id

end TeloptCommand

open TeloptCommand

theorem setTermtype_changes (env : Env) (me : Nat) (termType : Bytes) :
    Changes (setTermtype env me termType) me (settleType env termType) := by
  unfold setTermtype
  apply Changes.congr
  · exact Changes.bind (Changes.update_intro fun _ => by rfl)
      (Changes.bind (Changes.uPrintf_intro _)
        (Changes.when (Changes.uPrintf_intro _)))
  · intro user
    simp [settleType, isAnsi]

theorem corruptTermtype_changes (env : Env) (me : Nat) :
    Changes (corruptTermtype env me) me (settleType env unresolved) :=
  Changes.bind (Changes.uPrintf_intro _)
    (setTermtype_changes env me unresolved)

theorem corruptSize_changes (me : Nat) :
    Changes (corruptSize me) me fun user =>
      { user with termCols := 0, termRows := 0 } :=
  Changes.bind (Changes.uPrintf_intro _) (Changes.update_intro fun _ => by rfl)

theorem setTermsize_changes (me : Nat) (dCols dRows : Nat) :
    Changes (setTermsize me dCols dRows) me fun user =>
      { user with
        termCols := if user.termCols = 0 then dCols else user.termCols
        termRows := if user.termRows = 0 then dRows else user.termRows
        flagsTelnet :=
          { user.flagsTelnet with
            termsize :=
              if user.level = .login then true
              else user.flagsTelnet.termsize } } := by
  unfold setTermsize
  apply Changes.congr
  · apply Changes.user_bind
    intro user
    exact Changes.bind (Changes.update_intro fun _ => by rfl)
      (Changes.ite
        (Changes.bind (Changes.uPrintf_intro _)
          (Changes.update_intro fun _ => by rfl))
        (Changes.uPrintf_intro _))
  · intro user
    by_cases atLogin : user.level = .login <;> simp [atLogin]

theorem nawsAct_changes (me : Nat) (cols rows : Nat) (corrupt : Bool) :
    Changes (nawsAct me cols rows corrupt) me
      (if corrupt then settleSize 0 0 else settleSize cols rows) := by
  unfold nawsAct
  apply Changes.congr
  · apply Changes.user_bind
    intro user
    exact Changes.bind (Changes.update_intro fun _ => by rfl)
      (Changes.bind
        (Changes.when (corruptSize_changes me))
        (setTermsize_changes me _ _))
  · intro user
    cases corrupt <;> simp [settleSize]

/-- A command changes the user as told by `settle`. -/
theorem act_changes (env : Env) (me : Nat) (command : TeloptCommand) :
    Changes (command.act env me) me (command.settle env) := by
  cases command with
  | option command code =>
      unfold act teloptWill teloptWont teloptDo teloptDont setSGA setECHO
      apply Changes.congr
      · exact Changes.ite
          (Changes.ite Changes.pure_intro
            (Changes.ite (Changes.uPrintf_intro _) (Changes.uPrintf_intro _)))
          (Changes.ite
            (Changes.ite
              (Changes.user_bind fun user =>
                Changes.bind (Changes.uPrintf_intro _)
                  (Changes.update_intro fun _ => by rfl))
              (Changes.ite
                (Changes.bind (Changes.uPrintf_intro _)
                  (Changes.update_intro fun _ => by rfl))
                (Changes.uPrintf_intro _)))
            (Changes.ite
              (Changes.ite (Changes.update_intro fun _ => by rfl)
                (Changes.ite (Changes.update_intro fun _ => by rfl)
                  (Changes.uPrintf_intro _)))
              (Changes.ite
                (Changes.bind (Changes.uPrintf_intro _)
                  (Changes.update_intro fun _ => by rfl))
                (Changes.ite
                  (Changes.bind (Changes.uPrintf_intro _)
                    (Changes.update_intro fun _ => by rfl))
                  (Changes.uPrintf_intro _)))))
      · intro user
        simp only [settle, settleOption]
        split_ifs <;> rfl
  | naws cols rows corrupt => exact nawsAct_changes me cols rows corrupt
  | term termType => exact setTermtype_changes env me termType
  | corruptTerm => exact corruptTermtype_changes env me
  | ayt => exact Changes.uPrintf_intro _
  | iac => exact Changes.uPrintf_intro _
  | other => exact Changes.pure_intro

/-! ## The decoders of sub-options -/

theorem run_onCore_bind
    {α : Type}
    {prog : CoreM Unit}
    {me : Nat}
    {change : User → User}
    (changes : Changes prog me change)
    (next : Unit → ReadM α)
    (reader : Reader) :
    (onCore prog >>= next).run reader =
      ((next ()).run
        { reader with core := reader.core.setUser me change }).prepend
          (prog.run reader.core).obs := by
  obtain ⟨obs, ran, -⟩ := changes.runs reader.core
  have lifted : (onCore prog).run reader =
      ⟨.ok (), { reader with core := reader.core.setUser me change }, obs⟩ := by
    rw [onCore, Prog.run_zoom, ran]
  rw [Prog.run_bind_ok lifted, ran]

theorem run_onCore_bind_bind
    {α β γ : Type}
    (prog : CoreM α)
    (next : α → CoreM β)
    (last : β → ReadM γ)
    (reader : Reader) :
    (onCore (prog >>= next) >>= last).run reader =
      (onCore prog >>= fun value => onCore (next value) >>= last).run
        reader := by
  simp only [onCore, Prog.run_bind, Prog.run_zoom]
  rcases prog.run reader.core with ⟨_ | value, reached, obs⟩
  · rfl
  · simp only
    rcases (next value).run reached with ⟨_ | result, final, more⟩
    · rfl
    · simp [Run.prepend]

@[simp] theorem run_onCore_update_bind
    {α : Type}
    (me : Nat) (change : User → User) (next : Unit → ReadM α)
    (reader : Reader) :
    (onCore (update me change) >>= next).run reader =
      (next ()).run
        { reader with core := reader.core.setUser me change } := rfl

theorem run_byteAt_bind
    {α : Type}
    {buffer : TeloptBuffer}
    {position : Nat}
    (inside : position ≤ buffer.buff.length)
    (next : UInt8 → ReadM α)
    (reader : Reader) :
    (byteAt buffer position >>= next).run reader =
      (next (buffer.buff.getD position 0)).run reader := by
  rw [byteAt, charAt_of_le inside, checked_ok, Prog.run_pure_bind]

theorem fieldAt_le_length
    {bytes : Bytes}
    {position : Nat}
    (inside : position ≤ bytes.length) :
    fieldAt bytes position ≤ bytes.length := by
  by_cases before : position < bytes.length
  · have := fieldAt_le bytes position
    omega
  · have atEnd : bytes.getD position 0 = 0 := by
      simp [List.getElem?_eq_none (not_lt.mp before)]
    rw [fieldAt, atEnd]
    exact inside

/-- `User::getTermsize` on nine bytes or more, once it has assigned what stands
in the place of the sizes. -/
theorem run_getTermsize_sizes
    (me : Nat)
    (core : Core)
    (buffer : TeloptBuffer)
    (inside : rowsLow buffer.buff ≤ buffer.buff.length)
    (long : 9 ≤ buffer.bpos) :
    (getTermsize me).run ⟨core, buffer⟩ =
      (if rowsLow buffer.buff > buffer.bpos - 3 then pure 0
      else do
        let first ← byteAt buffer (rowsLow buffer.buff + 1)
        let second ← byteAt buffer (rowsLow buffer.buff + 2)
        onCore (Prog.when (first ≠ telcmdIAC ∨ second ≠ telcmdSE)
          (corruptSize me))
        onCore (setTermsize me (core.users me).termCols
          (core.users me).termRows)
        pure (rowsLow buffer.buff + 3 : Nat) : ReadM Int).run
        ⟨core.setUser me fun user =>
          { user with
            termCols := nawsCols buffer.buff
            termRows := nawsRows buffer.buff }, buffer⟩ := by
  have order := naws_positions buffer.buff
  have short : ¬ buffer.bpos < 9 := by omega
  have width : ¬ colsLow buffer.buff > buffer.bpos := by omega
  have first : 3 + doubled (buffer.buff.getD 3 0) = colsHigh buffer.buff := rfl
  have second : colsHigh buffer.buff + 1 +
      doubled (buffer.buff.getD (colsHigh buffer.buff + 1) 0) =
        colsLow buffer.buff := rfl
  have third : colsLow buffer.buff + 1 +
      doubled (buffer.buff.getD (colsLow buffer.buff + 1) 0) =
        rowsHigh buffer.buff := rfl
  have fourth : rowsHigh buffer.buff + 1 +
      doubled (buffer.buff.getD (rowsHigh buffer.buff + 1) 0) =
        rowsLow buffer.buff := rfl
  rw [getTermsize, Prog.run_get_bind]
  simp only [short, if_false, run_onCore_update_bind]
  rw [run_byteAt_bind (by omega), first, run_byteAt_bind (by omega), second]
  simp only [width, if_false]
  rw [run_byteAt_bind (by omega), run_byteAt_bind (by omega),
    run_onCore_update_bind, run_byteAt_bind (by omega), third,
    run_byteAt_bind (by omega), fourth, run_byteAt_bind (by omega),
    run_byteAt_bind inside, run_onCore_update_bind]
  simp only [Core.setUser_setUser]
  rfl

/-- `User::getTermsize` on a complete option. -/
theorem run_getTermsize_act
    (me : Nat)
    (core : Core)
    (buffer : TeloptBuffer)
    (inside : rowsLow buffer.buff + 2 ≤ buffer.buff.length)
    (complete : rowsLow buffer.buff + 3 ≤ buffer.bpos) :
    (getTermsize me).run ⟨core, buffer⟩ =
      (onCore (nawsAct me (nawsCols buffer.buff) (nawsRows buffer.buff)
          (nawsCorrupt buffer.buff)) >>= fun _ =>
        pure ((rowsLow buffer.buff + 3 : Nat) : Int)).run ⟨core, buffer⟩ := by
  have order := naws_positions buffer.buff
  rw [run_getTermsize_sizes me core buffer (by omega) (by omega),
    if_neg (by omega), run_byteAt_bind (by omega), run_byteAt_bind (by omega)]
  have corrupt : nawsCorrupt buffer.buff = true ↔
      buffer.buff.getD (rowsLow buffer.buff + 1) 0 ≠ telcmdIAC ∨
        buffer.buff.getD (rowsLow buffer.buff + 2) 0 ≠ telcmdSE := by
    simp [nawsCorrupt]
  rw [← Prog.when_congr corrupt]
  exact (run_onCore_bind_bind
    (Prog.when (nawsCorrupt buffer.buff) (corruptSize me))
    (fun _ => setTermsize me (core.users me).termCols
      (core.users me).termRows)
    (fun _ => pure ((rowsLow buffer.buff + 3 : Nat) : Int))
    ⟨core.setUser me fun user =>
      { user with
        termCols := nawsCols buffer.buff
        termRows := nawsRows buffer.buff }, buffer⟩).symm

/-- `User::getTermsize` on an incomplete option of nine bytes or more. -/
theorem run_getTermsize_cut
    (me : Nat)
    (core : Core)
    (buffer : TeloptBuffer)
    (inside : rowsLow buffer.buff ≤ buffer.buff.length)
    (long : 9 ≤ buffer.bpos)
    (incomplete : buffer.bpos < rowsLow buffer.buff + 3) :
    (getTermsize me).run ⟨core, buffer⟩ =
      ⟨.ok 0,
        ⟨core.setUser me fun user =>
          { user with
            termCols := nawsCols buffer.buff
            termRows := nawsRows buffer.buff }, buffer⟩, []⟩ := by
  rw [run_getTermsize_sizes me core buffer inside long, if_pos (by omega)]
  rfl

/-- `User::getTermsize` on nine bytes or more. -/
theorem run_getTermsize
    (env : Env)
    (me : Nat)
    (core : Core)
    (buffer : TeloptBuffer)
    (fits : buffer.bpos ≤ buffer.buff.length)
    (long : 9 ≤ buffer.bpos) :
    (rowsLow buffer.buff + 3 ≤ buffer.bpos →
      (getTermsize me).run ⟨core, buffer⟩ =
        ⟨.ok (rowsLow buffer.buff + 3 : Nat),
          ⟨core.setUser me
            ((naws (nawsCols buffer.buff) (nawsRows buffer.buff)
              (nawsCorrupt buffer.buff)).settle env), buffer⟩,
          (((naws (nawsCols buffer.buff) (nawsRows buffer.buff)
            (nawsCorrupt buffer.buff)).act env me).run core).obs⟩) ∧
      (buffer.bpos < rowsLow buffer.buff + 3 →
        (getTermsize me).run ⟨core, buffer⟩ =
          ⟨.ok 0,
            ⟨core.setUser me fun user =>
              { user with
                termCols := nawsCols buffer.buff
                termRows := nawsRows buffer.buff }, buffer⟩, []⟩) := by
  have order := naws_positions buffer.buff
  have lowInside : rowsLow buffer.buff ≤ buffer.buff.length :=
    fieldAt_le_length (by omega)
  refine ⟨fun complete => ?_,
    run_getTermsize_cut me core buffer lowInside long⟩
  rw [run_getTermsize_act me core buffer (by omega) complete,
    run_onCore_bind
      (nawsAct_changes me (nawsCols buffer.buff) (nawsRows buffer.buff)
        (nawsCorrupt buffer.buff))]
  simp [settle, act]

theorem findSE_cons (byte : UInt8) (rest : Bytes) :
    findSE (byte :: rest) =
      if byte = telcmdIAC ∧ rest.head? = some telcmdSE then some 0
      else (findSE rest).map (· + 1) := by
  cases rest <;> simp [findSE]

/-- The loop of `User::getTermtype` finds the first IAC SE of the bytes in
use. -/
theorem scanType_eq
    {buffer : TeloptBuffer}
    (fits : buffer.bpos ≤ buffer.buff.length)
    (i : Nat)
    (inside : i ≤ buffer.bpos) :
    scanType buffer (buffer.bpos - i) i =
      .ok (match findSE (buffer.pending.drop i) with
        | some length => i + length
        | none => buffer.bpos) := by
  have pending_length : buffer.pending.length = buffer.bpos := by
    simp [TeloptBuffer.pending, fits]
  generalize turns_eq : buffer.bpos - i = turns
  induction turns generalizing i with
  | zero =>
      have atEnd : buffer.pending.drop i = [] :=
        List.drop_eq_nil_of_le (by omega)
      rw [atEnd]
      simp only [scanType, findSE]
      congr
      omega
  | succ turns inductionHypothesis =>
      have before : i < buffer.pending.length := by omega
      have byte : charAt buffer.buff i = .ok buffer.pending[i] := by
        rw [charAt_of_lt (by omega)]
        simp [TeloptBuffer.pending]
      have rest := inductionHypothesis (i + 1) (by omega) (by omega)
      rw [List.drop_eq_getElem_cons before, findSE_cons]
      have shifted :
          (match (findSE (buffer.pending.drop (i + 1))).map (· + 1) with
            | some length => i + length
            | none => buffer.bpos) =
          match findSE (buffer.pending.drop (i + 1)) with
            | some length => i + 1 + length
            | none => buffer.bpos := by
        cases findSE (buffer.pending.drop (i + 1)) with
        | none => rfl
        | some length =>
            simp only [Option.map_some]
            rw [Nat.add_assoc, Nat.add_comm 1]
      simp only [scanType, byte, bind, Except.bind]
      by_cases more : i + 1 < buffer.pending.length
      · have nextByte :
            charAt buffer.buff (i + 1) = .ok buffer.pending[i + 1] := by
          rw [charAt_of_lt (by omega)]
          simp [TeloptBuffer.pending]
        have head : (buffer.pending.drop (i + 1)).head? =
            some buffer.pending[i + 1] := by
          rw [List.drop_eq_getElem_cons more]
          rfl
        rw [pending_length] at more
        rw [head]
        by_cases isIAC : buffer.pending[i] = telcmdIAC
        · by_cases isSE : buffer.pending[i + 1] = telcmdSE
          · simp [isIAC, isSE, more, nextByte]
          · simp only [isIAC, more, and_self, if_true, nextByte, isSE,
              if_false, rest, Option.some.injEq, and_false, shifted]
        · simp only [isIAC, false_and, if_false, rest, shifted]
      · have atEnd : buffer.pending.drop (i + 1) = [] :=
          List.drop_eq_nil_of_le (by omega)
        have last : ¬ i + 1 < buffer.bpos := by omega
        simp only [last, and_false, if_false, rest, atEnd, List.head?_nil,
          reduceCtorEq, findSE, Option.map_none]

theorem toInt_of_lt
    {size : Nat}
    (small : size < 2 ^ 31) :
    toInt size = size := by
  refine (Int.bmod_eq_iff (Nat.two_pow_pos 32)).mpr ⟨by omega, ?_, by simp⟩
  have half : ((2 ^ 32 : Nat) + 1 : Int) / 2 = 2 ^ 31 := by decide
  omega

/-- The size of a command is not taken for zero. -/
theorem toInt_ne_zero
    {size : Nat}
    (positive : 0 < size)
    (wide : size < 2 ^ 32) : toInt size ≠ 0 := by
  intro isZero
  obtain ⟨turns, same⟩ := Int.dvd_of_bmod_eq_zero isZero
  omega

theorem pending_getD
    {buffer : TeloptBuffer}
    {position : Nat}
    (inside : position < buffer.bpos) :
    buffer.pending.getD position 0 = buffer.buff.getD position 0 := by
  simp [TeloptBuffer.pending, inside]

/-- What `User::getTermtype` leaves of the buffer when it has found a type. -/
def TeloptBuffer.truncated (buffer : TeloptBuffer) (length : Nat) :
    TeloptBuffer :=
  if length = 0 then buffer
  else { buffer with buff := buffer.buff.take (length + 4) }

/-- `User::getTermtype` on six bytes or more. -/
theorem run_getTermtype
    (env : Env)
    (me : Nat)
    (core : Core)
    (buffer : TeloptBuffer)
    (fits : buffer.bpos ≤ buffer.buff.length)
    (long : 6 ≤ buffer.bpos) :
    match decodeTerm buffer.pending with
    | none => (getTermtype env me).run ⟨core, buffer⟩ =
        ⟨.ok 0, ⟨core, buffer⟩, []⟩
    | some (command, size) =>
        (getTermtype env me).run ⟨core, buffer⟩ =
          ⟨.ok (toInt size),
            ⟨core.setUser me (command.settle env),
              if command = .corruptTerm then buffer
              else buffer.truncated (size - 6)⟩,
            ((command.act env me).run core).obs⟩ := by
  have pending_length : buffer.pending.length = buffer.bpos := by
    simp [TeloptBuffer.pending, fits]
  have short : ¬ buffer.bpos < 6 := by omega
  have shortPending : ¬ buffer.pending.length < 6 := by omega
  have scanned := scanType_eq fits 4 (by omega)
  simp only [decodeTerm, shortPending, if_false, pending_getD
    (show 3 < buffer.bpos by omega)]
  rw [getTermtype, Prog.run_get_bind]
  simp only [short, if_false]
  rw [run_byteAt_bind (by omega)]
  by_cases isIs : buffer.buff.getD 3 0 = telsubIS
  · have notCorrupt : ¬ buffer.buff.getD 3 0 ≠ telsubIS :=
      not_not.mpr isIs
    simp only [notCorrupt, if_false, scanned, checked_ok, Prog.run_pure_bind]
    cases found : findSE (buffer.pending.drop 4) with
    | none => simp
    | some length =>
        have inside := findSE_lt found
        rw [List.length_drop] at inside
        have notEnd : ¬ 4 + length = buffer.bpos := by omega
        simp only [notEnd, if_false, Option.map_some]
        by_cases empty : length = 0
        · simp only [empty, Nat.add_zero, if_true]
          rw [run_onCore_bind (setTermtype_changes env me unresolved)]
          simp [typeOf, settle, act, TeloptBuffer.truncated]
        · have notFour : ¬ 4 + length = 4 := by omega
          have cut : eraseFrom buffer.buff (4 + length) =
              .ok (buffer.buff.take (4 + length)) :=
            eraseFrom_of_le (by omega)
          have type : substr (buffer.buff.take (4 + length)) 4 =
              .ok (typeOf buffer.pending length) := by
            rw [substr_of_le (by rw [List.length_take]; omega), typeOf,
              if_neg empty, TeloptBuffer.pending, List.drop_take,
              List.drop_take, List.take_take]
            congr 2
            omega
          simp only [notFour, if_false, cut, checked_ok, Prog.run_pure_bind,
            Prog.run_modify_bind, type]
          rw [run_onCore_bind
              (setTermtype_changes env me (typeOf buffer.pending length)),
            show 4 + length + 2 = length + 6 by omega]
          simp [settle, act, TeloptBuffer.truncated, empty, Nat.add_comm]
  · have corrupt : buffer.buff.getD 3 0 ≠ telsubIS := isIs
    simp only [corrupt, ne_eq, not_false_eq_true, if_true]
    rw [run_onCore_bind (corruptTermtype_changes env me),
      toInt_of_lt (show 4 < 2 ^ 31 by decide)]
    simp [settle, act]

/-! ## Passes -/

/-- The buffer after a command: a terminal type that is not empty cuts off
what follows it. -/
def TeloptBuffer.after
    (buffer : TeloptBuffer)
    (command : TeloptCommand)
    (size : Nat) : TeloptBuffer where
  buff :=
    match command with
    | .term _ => if size = 6 then buffer.buff.drop size else []
    | _ => buffer.buff.drop size
  bpos := buffer.bpos - size

/-- The start of a sub-option that the parser does not know: IAC SB and
another option, or nothing behind them. -/
def Stuck (pending : Bytes) : Prop :=
  pending.head? = some telcmdIAC ∧ pending[1]? = some telcmdSB ∧
    pending[2]? ≠ some teloptNAWS ∧ pending[2]? ≠ some teloptTERM

instance (pending : Bytes) : Decidable (Stuck pending) :=
  inferInstanceAs (Decidable (_ ∧ _ ∧ _ ∧ _))

/-- The start of a terminal size option that is incomplete although it has
nine bytes. -/
def PartialSize (pending : Bytes) : Prop :=
  pending.head? = some telcmdIAC ∧ pending[1]? = some telcmdSB ∧
    pending[2]? = some teloptNAWS ∧ 9 ≤ pending.length ∧
    pending.length < rowsLow pending + 3

instance (pending : Bytes) : Decidable (PartialSize pending) :=
  inferInstanceAs (Decidable (_ ∧ _ ∧ _ ∧ _ ∧ _))

/-- What an incomplete command does to the user: a partial terminal size is
already assigned. -/
def TeloptBuffer.incomplete (buffer : TeloptBuffer) (user : User) : User :=
  if PartialSize buffer.pending then
    { user with
      termCols := nawsCols buffer.buff
      termRows := nawsRows buffer.buff }
  else user

section Pass

variable (env : Env) (me : Nat) (core : Core) {buffer : TeloptBuffer}
variable (fits : buffer.bpos ≤ buffer.buff.length)

include fits

theorem length_pending : buffer.pending.length = buffer.bpos := by
  simp [TeloptBuffer.pending, fits]

/-- The pass ends the loop when no command stands at the front. -/
theorem run_teloptPass_text
    (noCommand : buffer.pending.head? ≠ some telcmdIAC) :
    (teloptPass env me ()).run ⟨core, buffer⟩ =
      ⟨.ok (.inr true), ⟨core, buffer⟩, []⟩ := by
  rw [teloptPass, Prog.run_get_bind]
  by_cases empty : buffer.bpos = 0
  · simp [empty]
  · have head : buffer.pending.head? = some (buffer.buff.getD 0 0) := by
      rw [← pending_getD (by omega), List.head?_eq_getElem?,
        List.getD_eq_getElem?_getD]
      have inside : 0 < buffer.pending.length := by
        rw [length_pending fits]
        omega
      simp [inside]
    have notIAC : buffer.buff.getD 0 0 ≠ telcmdIAC := by
      intro isIAC
      exact noCommand (by rw [head, isIAC])
    simp only [empty, if_false]
    rw [run_byteAt_bind (by omega)]
    simp only [notIAC, ne_eq, not_false_eq_true, if_true, Prog.run_pure]

/-- With a command at the front the pass asks the switch. -/
theorem run_teloptPass_switch
    {command : UInt8}
    {rest : Bytes}
    (front : buffer.pending = telcmdIAC :: command :: rest) :
    (teloptPass env me ()).run ⟨core, buffer⟩ =
      ((teloptCommand env me command >>= finishPass me buffer.pending).run
        ⟨core, buffer⟩).prepend [.telopt me buffer.pending] := by
  have long : 2 ≤ buffer.bpos := by
    rw [← length_pending fits, front]
    simp
  have first : buffer.buff.getD 0 0 = telcmdIAC := by
    rw [← pending_getD (by omega), front]
    rfl
  have second : buffer.buff.getD 1 0 = command := by
    rw [← pending_getD (by omega), front]
    rfl
  have nonempty : ¬ buffer.bpos = 0 := by omega
  have notShort : ¬ buffer.bpos < 2 := by omega
  rw [teloptPass, Prog.run_get_bind]
  simp only [nonempty, if_false]
  rw [run_byteAt_bind (by omega), first]
  simp only [ne_eq, not_true_eq_false, if_false, Prog.run_emit_bind, notShort]
  rw [run_byteAt_bind (by omega), second]

omit fits in
theorem consume_of_le
    (wide : buffer.bpos < 2 ^ 32)
    {size : Nat}
    (inside : size ≤ buffer.bpos) :
    buffer.consume size =
      { buff := buffer.buff.drop size, bpos := buffer.bpos - size } := by
  have notNegative : ¬ ((size : Int) < 0) := by omega
  simp only [TeloptBuffer.consume, notNegative, if_false, Int.toNat_natCast]
  congr 1
  omega

omit fits in
/-- A size from 2^31 on comes out negative: it clears the text, and `bpos` is
right again because it wraps. -/
theorem consume_toInt
    (wide : buffer.bpos < 2 ^ 32)
    {size : Nat}
    (inside : size ≤ buffer.bpos) :
    buffer.consume (toInt size) =
      { buff := if size < 2 ^ 31 then buffer.buff.drop size else []
        bpos := buffer.bpos - size } := by
  split
  case isTrue small =>
    rw [toInt_of_lt small]
    exact consume_of_le wide inside
  case isFalse large =>
    have wrapped : toInt size = size - 2 ^ 32 := by
      refine (Int.bmod_eq_iff (Nat.two_pow_pos 32)).mpr ⟨?_, ?_, by simp⟩
      · have half : ((2 ^ 32 : Nat) : Int) / 2 = 2 ^ 31 := by decide
        omega
      · have half : ((2 ^ 32 : Nat) + 1 : Int) / 2 = 2 ^ 31 := by decide
        omega
    have negative : toInt size < 0 := by omega
    have position : ((buffer.bpos - toInt size) % 2 ^ 32).toNat =
        buffer.bpos - size := by
      rw [wrapped]
      omega
    simp only [TeloptBuffer.consume, negative, if_true, position]

/-- The option of a command, when it is there. -/
theorem getD_two_of_front
    {byte : UInt8}
    {rest : Bytes}
    (front : buffer.pending = telcmdIAC :: byte :: rest)
    {code : UInt8}
    (head : rest.head? = some code) :
    3 ≤ buffer.bpos ∧ buffer.buff.getD 2 0 = code := by
  obtain ⟨tail, rfl⟩ : ∃ tail, rest = code :: tail := by
    cases rest with
    | nil => simp at head
    | cons first tail => exact ⟨tail, by simpa using head⟩
  have long : 3 ≤ buffer.bpos := by
    rw [← length_pending fits, front]
    simp
  refine ⟨long, ?_⟩
  rw [← pending_getD (by omega), front]
  rfl

/-- A command of three bytes. -/
theorem run_teloptOption
    {byte : UInt8}
    {rest : Bytes}
    (front : buffer.pending = telcmdIAC :: byte :: rest)
    {act : UInt8 → CoreM Unit}
    {change : UInt8 → User → User}
    (changes : ∀ code, Changes (act code) me (change code)) :
    match rest.head? with
    | none => (teloptOption buffer act).run ⟨core, buffer⟩ =
        ⟨.ok none, ⟨core, buffer⟩, []⟩
    | some code =>
        (teloptOption buffer act).run ⟨core, buffer⟩ =
          ⟨.ok (some 3), ⟨core.setUser me (change code), buffer⟩,
            ((act code).run core).obs⟩ := by
  cases head : rest.head? with
  | none =>
      have short : buffer.bpos < 3 := by
        rw [← length_pending fits, front, List.head?_eq_none_iff.mp head]
        simp
      simp [teloptOption, short]
  | some code =>
      obtain ⟨long, option⟩ := getD_two_of_front fits front head
      have notShort : ¬ buffer.bpos < 3 := by omega
      simp only [teloptOption, notShort, if_false]
      rw [run_byteAt_bind (by omega), option, run_onCore_bind (changes code)]
      simp

/-- Whether a terminal size is complete does not depend on the bytes behind
those in use. -/
theorem rowsLow_pending (long : 9 ≤ buffer.bpos) :
    rowsLow buffer.pending + 3 ≤ buffer.bpos ↔
      rowsLow buffer.buff + 3 ≤ buffer.bpos := by
  have length := length_pending fits
  have split : buffer.pending ++ buffer.buff.drop buffer.bpos = buffer.buff :=
    List.take_append_drop _ _
  have order := naws_positions buffer.pending
  have first : colsHigh buffer.buff = colsHigh buffer.pending := by
    rw [← split]
    exact fieldAt_append (by omega) _
  have second : colsLow buffer.buff = colsLow buffer.pending := by
    rw [colsLow, first, ← split, fieldAt_append (by omega), colsLow]
  have third : rowsHigh buffer.buff = rowsHigh buffer.pending := by
    rw [rowsHigh, second, ← split, fieldAt_append (by omega), rowsHigh]
  by_cases inside : rowsHigh buffer.pending + 1 < buffer.pending.length
  · have fourth := (naws_positions_append inside
      (buffer.buff.drop buffer.bpos)).2.2.2
    rw [split] at fourth
    rw [fourth]
  · have orderBuff := naws_positions buffer.buff
    omega

/-- A complete terminal size is read from the bytes in use. -/
theorem naws_pending
    (complete : rowsLow buffer.pending + 3 ≤ buffer.bpos) :
    rowsLow buffer.buff = rowsLow buffer.pending ∧
      nawsCols buffer.buff = nawsCols buffer.pending ∧
      nawsRows buffer.buff = nawsRows buffer.pending ∧
      nawsCorrupt buffer.buff = nawsCorrupt buffer.pending := by
  have length := length_pending fits
  have decoded : decodeNaws buffer.pending =
      some (.naws (nawsCols buffer.pending) (nawsRows buffer.pending)
        (nawsCorrupt buffer.pending), rowsLow buffer.pending + 3) := by
    rw [decodeNaws, if_pos (by omega)]
  have longer := decodeNaws_append decoded (buffer.buff.drop buffer.bpos)
  have split : buffer.pending ++ buffer.buff.drop buffer.bpos = buffer.buff :=
    List.take_append_drop _ _
  rw [split] at longer
  unfold decodeNaws at longer
  split at longer
  · simp only [Option.some.injEq, Prod.mk.injEq,
      TeloptCommand.naws.injEq] at longer
    exact ⟨by omega, longer.1.1, longer.1.2.1, longer.1.2.2⟩
  · exact absurd longer (by simp)

omit fits in
theorem decodeNaws_size_le
    {bytes : Bytes}
    {command : TeloptCommand}
    {size : Nat}
    (decoded : decodeNaws bytes = some (command, size)) : size ≤ 13 := by
  have first := fieldAt_le bytes 3
  have second := fieldAt_le bytes (colsHigh bytes + 1)
  have third := fieldAt_le bytes (colsLow bytes + 1)
  have fourth := fieldAt_le bytes (rowsHigh bytes + 1)
  unfold decodeNaws at decoded
  split at decoded
  · simp only [Option.some.injEq, Prod.mk.injEq] at decoded
    simp only [colsHigh, colsLow, rowsHigh, rowsLow] at *
    omega
  · exact absurd decoded (by simp)

omit fits in
/-- `complete` of the size of a sub-option. -/
theorem complete_of_pos {size : Nat} (positive : 0 < size) :
    complete size = some (size : Int) :=
  if_neg (by omega)

omit fits in
theorem complete_toInt
    {size : Nat}
    (positive : 0 < size)
    (wide : size < 2 ^ 32) :
    complete (toInt size) = some (toInt size) :=
  if_neg (toInt_ne_zero positive wide)

/-- The switch on a terminal size option. -/
theorem run_teloptCommand_naws
    (wide : buffer.bpos < 2 ^ 32)
    {rest : Bytes}
    (front : buffer.pending = telcmdIAC :: telcmdSB :: rest)
    (isNaws : rest.head? = some teloptNAWS) :
    match decodeNaws buffer.pending with
    | none => (teloptCommand env me telcmdSB).run ⟨core, buffer⟩ =
        ⟨.ok none, ⟨core.setUser me buffer.incomplete, buffer⟩, []⟩
    | some (command, size) =>
        buffer.consume size = buffer.after command size ∧
          (teloptCommand env me telcmdSB).run ⟨core, buffer⟩ =
            ⟨.ok (some (size : Int)),
              ⟨core.setUser me (command.settle env), buffer⟩,
              ((command.act env me).run core).obs⟩ := by
  obtain ⟨three, option⟩ := getD_two_of_front fits front isNaws
  have length := length_pending fits
  have notPartial : rowsLow buffer.pending + 3 ≤ buffer.bpos →
      ¬ PartialSize buffer.pending := by
    rintro complete ⟨-, -, -, -, short⟩
    omega
  have asks : (teloptCommand env me telcmdSB).run ⟨core, buffer⟩ =
      (getTermsize me >>= fun shift => pure (complete shift)).run
        ⟨core, buffer⟩ := by
    simp only [teloptCommand, Prog.run_get_bind, if_true]
    rw [run_byteAt_bind (by omega), option]
    simp
  rw [asks]
  by_cases complete : rowsLow buffer.pending + 3 ≤ buffer.bpos
  · have order := naws_positions buffer.pending
    obtain ⟨sameEnd, sameCols, sameRows, sameCorrupt⟩ :=
      naws_pending fits complete
    have decoded : decodeNaws buffer.pending =
        some (.naws (nawsCols buffer.pending) (nawsRows buffer.pending)
          (nawsCorrupt buffer.pending), rowsLow buffer.pending + 3) := by
      rw [decodeNaws, if_pos (by omega)]
    have ran := (run_getTermsize env me core buffer fits (by omega)).1
      (by omega)
    rw [sameCols, sameRows, sameCorrupt, sameEnd] at ran
    rw [decoded]
    refine ⟨consume_of_le wide complete, ?_⟩
    rw [Prog.run_bind_ok ran, complete_of_pos (by omega)]
    simp
  · have decoded : decodeNaws buffer.pending = none := by
      rw [decodeNaws, if_neg (by omega)]
    rw [decoded]
    by_cases long : 9 ≤ buffer.bpos
    · have isPartial : PartialSize buffer.pending := by
        refine ⟨by simp [front], by simp [front], ?_, by omega, by omega⟩
        simpa [front, List.head?_eq_getElem?] using isNaws
      have incomplete := (rowsLow_pending fits long).not.mp complete
      have ran := (run_getTermsize env me core buffer fits long).2 (by omega)
      simp only []
      rw [Prog.run_bind_ok ran]
      have change : buffer.incomplete = fun user =>
          { user with
            termCols := nawsCols buffer.buff
            termRows := nawsRows buffer.buff } := by
        funext user
        rw [TeloptBuffer.incomplete, if_pos isPartial]
      rw [change]
      rfl
    · have notPartial : ¬ PartialSize buffer.pending := by
        rintro ⟨-, -, -, nine, -⟩
        omega
      have ran : (getTermsize me).run ⟨core, buffer⟩ =
          ⟨.ok 0, ⟨core, buffer⟩, []⟩ := by
        have short : buffer.bpos < 9 := by omega
        simp [getTermsize, short]
      have change : buffer.incomplete = id := by
        funext user
        rw [TeloptBuffer.incomplete, if_neg notPartial, id]
      simp only []
      rw [Prog.run_bind_ok ran, change, Core.setUser_id]
      rfl

omit fits in
theorem decodeTerm_cases
    {bytes : Bytes}
    {command : TeloptCommand}
    {size : Nat}
    (decoded : decodeTerm bytes = some (command, size)) :
    (command = .corruptTerm ∧ size = 4 ∧ 6 ≤ bytes.length) ∨
      ∃ length, command = .term (typeOf bytes length) ∧ size = length + 6 ∧
        length + 6 ≤ bytes.length := by
  unfold decodeTerm at decoded
  split at decoded
  · exact absurd decoded (by simp)
  · split at decoded
    · simp only [Option.some.injEq, Prod.mk.injEq] at decoded
      exact .inl ⟨decoded.1.symm, decoded.2.symm, by omega⟩
    · obtain ⟨length, found, same⟩ := Option.map_eq_some_iff.mp decoded
      have inside := findSE_lt found
      rw [List.length_drop] at inside
      simp only [Prod.mk.injEq] at same
      exact .inr ⟨length, same.1.symm, same.2.symm, by omega⟩

/-- The switch on a terminal type option. -/
theorem run_teloptCommand_term
    (wide : buffer.bpos < 2 ^ 32)
    {rest : Bytes}
    (front : buffer.pending = telcmdIAC :: telcmdSB :: rest)
    (isTerm : rest.head? = some teloptTERM) :
    match decodeTerm buffer.pending with
    | none => (teloptCommand env me telcmdSB).run ⟨core, buffer⟩ =
        ⟨.ok none, ⟨core, buffer⟩, []⟩
    | some (command, size) =>
        ∃ left, left.consume (toInt size) = buffer.after command size ∧
          (teloptCommand env me telcmdSB).run ⟨core, buffer⟩ =
            ⟨.ok (some (toInt size)),
              ⟨core.setUser me (command.settle env), left⟩,
              ((command.act env me).run core).obs⟩ := by
  obtain ⟨three, option⟩ := getD_two_of_front fits front isTerm
  have length := length_pending fits
  have asks : (teloptCommand env me telcmdSB).run ⟨core, buffer⟩ =
      (getTermtype env me >>= fun shift => pure (complete shift)).run
        ⟨core, buffer⟩ := by
    have notNaws : teloptTERM ≠ teloptNAWS := by decide
    simp only [teloptCommand, Prog.run_get_bind, if_true]
    rw [run_byteAt_bind (by omega), option]
    simp [notNaws]
  rw [asks]
  by_cases long : 6 ≤ buffer.bpos
  · have ran := run_getTermtype env me core buffer fits long
    cases decoded : decodeTerm buffer.pending with
    | none =>
        rw [decoded] at ran
        simp only [] at ran ⊢
        rw [Prog.run_bind_ok ran]
        rfl
    | some found =>
        obtain ⟨command, size⟩ := found
        rw [decoded] at ran
        simp only [] at ran
        have bounds : 0 < size ∧ size < 2 ^ 32 := by
          rcases decodeTerm_cases decoded with
            ⟨-, rfl, -⟩ | ⟨found, -, rfl, enough⟩ <;> omega
        refine ⟨if command = .corruptTerm then buffer
          else buffer.truncated (size - 6), ?_, ?_⟩
        rotate_left
        · rw [Prog.run_bind_ok ran, complete_toInt bounds.1 bounds.2,
            Prog.run_pure, Run.prepend_mk, List.append_nil]
        · rcases decodeTerm_cases decoded with
            ⟨rfl, rfl, enough⟩ | ⟨found, rfl, rfl, enough⟩
          · rw [if_pos rfl, consume_toInt wide (by omega)]
            rfl
          · simp only [reduceCtorEq, if_false, Nat.add_sub_cancel,
              TeloptBuffer.truncated, TeloptBuffer.after]
            by_cases empty : found = 0
            · simp only [empty, if_true]
              rw [consume_toInt wide (by omega)]
              rfl
            · have notSix : ¬ found + 6 = 6 := by omega
              simp only [empty, notSix, if_false]
              have cut : ({ buffer with
                  buff := buffer.buff.take (found + 4) } :
                    TeloptBuffer).consume (toInt (found + 6)) = _ :=
                consume_toInt (by exact wide) (by simp only; omega)
              rw [cut]
              simp
  · have ran : (getTermtype env me).run ⟨core, buffer⟩ =
        ⟨.ok 0, ⟨core, buffer⟩, []⟩ := by
      have short : buffer.bpos < 6 := by omega
      simp [getTermtype, short]
    have decoded : decodeTerm buffer.pending = none := by
      rw [decodeTerm, if_pos (by omega)]
    rw [decoded]
    simp only []
    rw [Prog.run_bind_ok ran]
    rfl

/-- The options of the commands `WILL`, `WONT`, `DO` and `DONT`. -/
theorem run_teloptCommand_option
    {byte : UInt8}
    {rest : Bytes}
    (front : buffer.pending = telcmdIAC :: byte :: rest)
    (isOption : takesOption byte = true) :
    match rest.head? with
    | none => (teloptCommand env me byte).run ⟨core, buffer⟩ =
        ⟨.ok none, ⟨core, buffer⟩, []⟩
    | some code =>
        (teloptCommand env me byte).run ⟨core, buffer⟩ =
          ⟨.ok (some 3),
            ⟨core.setUser me
              ((TeloptCommand.option byte code).settle env), buffer⟩,
            (((TeloptCommand.option byte code).act env me).run core).obs⟩ := by
  have asks : (teloptCommand env me byte).run ⟨core, buffer⟩ =
      (teloptOption buffer fun code =>
        (TeloptCommand.option byte code).act env me).run ⟨core, buffer⟩ := by
    simp only [takesOption, Bool.or_eq_true, decide_eq_true_eq] at isOption
    rcases isOption with ((rfl | rfl) | rfl) | rfl <;>
      simp [teloptCommand, act, telcmdSB, telcmdWILL, telcmdWONT, telcmdDO,
        telcmdDONT]
  rw [asks]
  exact run_teloptOption me core fits front fun code =>
    act_changes env me (.option byte code)

/-- The switch on a complete command. -/
theorem run_teloptCommand
    (wide : buffer.bpos < 2 ^ 32)
    {byte : UInt8}
    {rest : Bytes}
    (front : buffer.pending = telcmdIAC :: byte :: rest)
    {command : TeloptCommand}
    {size : Nat}
    (decoded : decodeCommand buffer.pending = some (command, size)) :
    ∃ left, left.consume (toInt size) = buffer.after command size ∧
      (teloptCommand env me byte).run ⟨core, buffer⟩ =
        ⟨.ok (some (toInt size)),
          ⟨core.setUser me (command.settle env), left⟩,
          ((command.act env me).run core).obs⟩ := by
  have bounds := decodeCommand_size decoded
  rw [length_pending fits] at bounds
  have consumed := consume_of_le wide bounds.2
  have two : toInt 2 = 2 := toInt_of_lt (by decide)
  have three : toInt 3 = 3 := toInt_of_lt (by decide)
  have decodedFront := decoded
  rw [front] at decodedFront
  simp only [decodeCommand] at decodedFront
  rw [← front] at decodedFront
  by_cases isSB : byte = telcmdSB
  · subst isSB
    simp only [if_true] at decodedFront
    by_cases isNaws : rest.head? = some teloptNAWS
    · have ran := run_teloptCommand_naws env me core fits wide front isNaws
      rw [if_pos isNaws] at decodedFront
      rw [decodedFront] at ran
      rw [toInt_of_lt ((decodeNaws_size_le decodedFront).trans_lt (by decide))]
      exact ⟨buffer, ran⟩
    · rw [if_neg isNaws] at decodedFront
      by_cases isTerm : rest.head? = some teloptTERM
      · have ran := run_teloptCommand_term env me core fits wide front isTerm
        rw [if_pos isTerm] at decodedFront
        rwa [decodedFront] at ran
      · rw [if_neg isTerm] at decodedFront
        exact absurd decodedFront (by simp)
  · simp only [isSB, if_false] at decodedFront
    by_cases isOption : takesOption byte
    · have ran := run_teloptCommand_option env me core fits front isOption
      simp only [isOption, if_true] at decodedFront
      obtain ⟨code, head, same⟩ := Option.map_eq_some_iff.mp decodedFront
      simp only [Prod.mk.injEq] at same
      obtain ⟨rfl, rfl⟩ := same
      rw [head] at ran
      rw [three]
      exact ⟨buffer, consumed, ran⟩
    · have others : byte ≠ telcmdWILL ∧ byte ≠ telcmdWONT ∧
          byte ≠ telcmdDO ∧ byte ≠ telcmdDONT := by
        simpa [takesOption, not_or, and_assoc] using isOption
      simp only [isOption, Bool.false_eq_true, if_false] at decodedFront
      simp only [teloptCommand, Prog.run_get_bind, isSB, others, if_false]
      by_cases isAYT : byte = telcmdAYT
      · simp only [isAYT, if_true, Option.some.injEq,
          Prod.mk.injEq] at decodedFront ⊢
        obtain ⟨rfl, rfl⟩ := decodedFront
        have ran := run_onCore_bind (act_changes env me .ayt)
          (fun _ => pure (some (2 : Int))) ⟨core, buffer⟩
        rw [two]
        exact ⟨buffer, consumed, by simpa [act] using ran⟩
      · by_cases isIAC : byte = telcmdIAC
        · simp only [isAYT, if_false] at decodedFront ⊢
          simp only [isIAC, if_true, Option.some.injEq,
            Prod.mk.injEq] at decodedFront ⊢
          obtain ⟨rfl, rfl⟩ := decodedFront
          have ran := run_onCore_bind (act_changes env me .iac)
            (fun _ => pure (some (2 : Int))) ⟨core, buffer⟩
          rw [two]
          exact ⟨buffer, consumed, by simpa [act] using ran⟩
        · simp only [isAYT, isIAC, if_false, Option.some.injEq,
            Prod.mk.injEq] at decodedFront ⊢
          obtain ⟨rfl, rfl⟩ := decodedFront
          rw [two]
          refine ⟨buffer, consumed, ?_⟩
          simp [settle, act, Core.setUser_id]

/-- The switch on an incomplete command. -/
theorem run_teloptCommand_incomplete
    (wide : buffer.bpos < 2 ^ 32)
    {byte : UInt8}
    {rest : Bytes}
    (front : buffer.pending = telcmdIAC :: byte :: rest)
    (undecoded : decodeCommand buffer.pending = none)
    (known : ¬ Stuck buffer.pending) :
    (teloptCommand env me byte).run ⟨core, buffer⟩ =
      ⟨.ok none, ⟨core.setUser me buffer.incomplete, buffer⟩, []⟩ := by
  have undecodedFront := undecoded
  rw [front] at undecodedFront
  simp only [decodeCommand] at undecodedFront
  rw [← front] at undecodedFront
  have third : buffer.pending[2]? = rest.head? := by
    rw [front, List.head?_eq_getElem?]
    rfl
  have unchanged : rest.head? ≠ some teloptNAWS ∨ byte ≠ telcmdSB →
      core.setUser me buffer.incomplete = core := by
    intro other
    have notPartial : ¬ PartialSize buffer.pending := by
      rintro ⟨-, isSB, isNaws, -, -⟩
      rw [third] at isNaws
      rw [front] at isSB
      rcases other with notNaws | notSB
      · exact notNaws isNaws
      · exact notSB (by simpa using isSB)
    have change : buffer.incomplete = id := by
      funext user
      rw [TeloptBuffer.incomplete, if_neg notPartial, id]
    rw [change, Core.setUser_id]
  by_cases isSB : byte = telcmdSB
  · subst isSB
    simp only [if_true] at undecodedFront
    by_cases isNaws : rest.head? = some teloptNAWS
    · have ran := run_teloptCommand_naws env me core fits wide front isNaws
      rw [if_pos isNaws] at undecodedFront
      rwa [undecodedFront] at ran
    · rw [if_neg isNaws] at undecodedFront
      by_cases isTerm : rest.head? = some teloptTERM
      · have ran := run_teloptCommand_term env me core fits wide front isTerm
        rw [if_pos isTerm] at undecodedFront
        rw [undecodedFront] at ran
        rw [ran, unchanged (.inl isNaws)]
      · refine absurd ⟨by simp [front], by simp [front], ?_, ?_⟩ known
        · rwa [third]
        · rwa [third]
  · simp only [isSB, if_false] at undecodedFront
    by_cases isOption : takesOption byte
    · have ran := run_teloptCommand_option env me core fits front isOption
      simp only [isOption, if_true, Option.map_eq_none_iff] at undecodedFront
      rw [undecodedFront] at ran
      rw [ran, unchanged (.inr isSB)]
    · simp only [isOption, Bool.false_eq_true, if_false] at undecodedFront
      split at undecodedFront <;> [skip; split at undecodedFront] <;>
        exact absurd undecodedFront (by simp)

/-- What the code does for a sub-option that is not known. -/
def unknownOption (me : Nat) (option : UInt8) : CoreM Unit :=
  uPrintf me
    (lit "WARNING: Your client sent unexpected sub option " ++
      decimal (signed option) ++ lit "\n")

omit fits in
theorem unknownOption_changes (me : Nat) (option : UInt8) :
    Changes (unknownOption me option) me id :=
  Changes.uPrintf_intro _

/-- The switch on a sub-option that is not known. -/
theorem run_teloptCommand_unknown
    (long : 2 ≤ buffer.bpos)
    (notNaws : buffer.buff.getD 2 0 ≠ teloptNAWS)
    (notTerm : buffer.buff.getD 2 0 ≠ teloptTERM) :
    (teloptCommand env me telcmdSB).run ⟨core, buffer⟩ =
      ⟨.ok (some 0), ⟨core, buffer⟩,
        ((unknownOption me (buffer.buff.getD 2 0)).run core).obs⟩ := by
  simp only [teloptCommand, Prog.run_get_bind, if_true]
  rw [run_byteAt_bind (by omega)]
  simp only [notNaws, notTerm, if_false]
  have ran := run_onCore_bind (unknownOption_changes me (buffer.buff.getD 2 0))
    (fun _ => pure (some (0 : Int))) ⟨core, buffer⟩
  rw [Core.setUser_id] at ran
  simpa [unknownOption] using ran

/-- The switch on IAC SB alone, when the byte behind it happens to be a known
option. -/
theorem run_teloptCommand_stale
    (two : buffer.bpos = 2)
    (stale : buffer.buff.getD 2 0 = teloptNAWS ∨
      buffer.buff.getD 2 0 = teloptTERM) :
    (teloptCommand env me telcmdSB).run ⟨core, buffer⟩ =
      ⟨.ok none, ⟨core, buffer⟩, []⟩ := by
  simp only [teloptCommand, Prog.run_get_bind, if_true]
  rw [run_byteAt_bind (by omega)]
  by_cases isNaws : buffer.buff.getD 2 0 = teloptNAWS
  · simp only [isNaws, if_true]
    have ran : (getTermsize me).run ⟨core, buffer⟩ =
        ⟨.ok 0, ⟨core, buffer⟩, []⟩ := by
      have short : buffer.bpos < 9 := by omega
      simp [getTermsize, short]
    rw [Prog.run_bind_ok ran]
    rfl
  · have isTerm := stale.resolve_left isNaws
    simp only [isNaws, if_false]
    simp only [isTerm, if_true]
    have ran : (getTermtype env me).run ⟨core, buffer⟩ =
        ⟨.ok 0, ⟨core, buffer⟩, []⟩ := by
      have short : buffer.bpos < 6 := by omega
      simp [getTermtype, short]
    rw [Prog.run_bind_ok ran]
    rfl

omit fits in
/-- A decoded command has a second byte. -/
theorem front_of_decodeCommand
    {bytes : Bytes}
    (head : bytes.head? = some telcmdIAC)
    (long : 2 ≤ bytes.length) :
    ∃ byte rest, bytes = telcmdIAC :: byte :: rest := by
  rcases bytes with _ | ⟨first, _ | ⟨second, rest⟩⟩
  · simp at long
  · simp at long
  · simp only [List.head?_cons, Option.some.injEq] at head
    exact ⟨second, rest, by rw [head]⟩

omit fits in
theorem run_finishPass
    (me : Nat) (pending : Bytes) (shift : Int)
    (core : Core) (buffer : TeloptBuffer) :
    (finishPass me pending (some shift)).run ⟨core, buffer⟩ =
      ⟨.ok (.inl ()), ⟨core, buffer.consume shift⟩,
        [.consumed me pending shift (buffer.consume shift)]⟩ := rfl

/-- A pass over a complete command. -/
theorem run_teloptPass_decoded
    (wide : buffer.bpos < 2 ^ 32)
    (head : buffer.pending.head? = some telcmdIAC)
    {command : TeloptCommand}
    {size : Nat}
    (decoded : decodeCommand buffer.pending = some (command, size)) :
    (teloptPass env me ()).run ⟨core, buffer⟩ =
      ⟨.ok (.inl ()),
        ⟨core.setUser me (command.settle env), buffer.after command size⟩,
        .telopt me buffer.pending ::
          (((command.act env me).run core).obs ++
            [.consumed me buffer.pending (toInt size)
              (buffer.after command size)])⟩ := by
  have bounds := decodeCommand_size decoded
  obtain ⟨byte, rest, front⟩ := front_of_decodeCommand head (by omega)
  obtain ⟨left, consumed, ran⟩ :=
    run_teloptCommand env me core fits wide front decoded
  rw [run_teloptPass_switch env me core fits front, Prog.run_bind_ok ran,
    run_finishPass, consumed]
  rfl

/-- The size of a command of less than 2^31 bytes is told as it is. -/
theorem run_teloptPass_command
    (small : buffer.bpos < 2 ^ 31)
    (head : buffer.pending.head? = some telcmdIAC)
    {command : TeloptCommand}
    {size : Nat}
    (decoded : decodeCommand buffer.pending = some (command, size)) :
    ∃ obs, Follows core obs (core.setUser me (command.settle env)) ∧
      (teloptPass env me ()).run ⟨core, buffer⟩ =
        ⟨.ok (.inl ()),
          ⟨core.setUser me (command.settle env), buffer.after command size⟩,
          .telopt me buffer.pending ::
            (obs ++
              [.consumed me buffer.pending size (buffer.after command size)])⟩ := by
  have bounds := decodeCommand_size decoded
  have pendingLength := length_pending fits
  have same : toInt size = size := toInt_of_lt (by omega)
  have wide : buffer.bpos < 2 ^ 32 := small.trans (by decide)
  refine ⟨_, (act_changes env me command).follows core, ?_⟩
  simpa only [same] using
    run_teloptPass_decoded env me core fits wide head decoded

/-- A pass over an incomplete command. -/
theorem run_teloptPass_incomplete
    (wide : buffer.bpos < 2 ^ 32)
    (head : buffer.pending.head? = some telcmdIAC)
    (undecoded : decodeCommand buffer.pending = none)
    (known : ¬ Stuck buffer.pending) :
    (teloptPass env me ()).run ⟨core, buffer⟩ =
      ⟨.ok (.inr false), ⟨core.setUser me buffer.incomplete, buffer⟩,
        [.telopt me buffer.pending]⟩ := by
  by_cases long : 2 ≤ buffer.pending.length
  · obtain ⟨byte, rest, front⟩ := front_of_decodeCommand head long
    rw [run_teloptPass_switch env me core fits front, Prog.run_bind_ok
      (run_teloptCommand_incomplete env me core fits wide front undecoded
        known)]
    rfl
  · have length := length_pending fits
    have one : buffer.bpos = 1 := by
      have nonempty : buffer.pending ≠ [] := by
        intro empty
        simp [empty] at head
      have positive := List.length_pos_of_ne_nil nonempty
      omega
    have first : buffer.buff.getD 0 0 = telcmdIAC := by
      rw [← pending_getD (by omega), List.getD_eq_getElem?_getD,
        ← List.head?_eq_getElem?, head]
      rfl
    have notPartial : ¬ PartialSize buffer.pending := by
      rintro ⟨-, -, -, nine, -⟩
      omega
    have change : buffer.incomplete = id := by
      funext user
      rw [TeloptBuffer.incomplete, if_neg notPartial, id]
    rw [change, Core.setUser_id, teloptPass, Prog.run_get_bind]
    have nonzero : ¬ buffer.bpos = 0 := by omega
    have short : buffer.bpos < 2 := by omega
    simp only [nonzero, if_false]
    rw [run_byteAt_bind (by omega), first]
    simp [short]

/-- What the parser sees of IAC SB: the byte that tells the option may lie
behind those in use. -/
def UnknownOption (buffer : TeloptBuffer) : Prop :=
  2 ≤ buffer.bpos ∧ buffer.buff.getD 0 0 = telcmdIAC ∧
    buffer.buff.getD 1 0 = telcmdSB ∧
    buffer.buff.getD 2 0 ≠ teloptNAWS ∧ buffer.buff.getD 2 0 ≠ teloptTERM

instance (buffer : TeloptBuffer) : Decidable (UnknownOption buffer) :=
  inferInstanceAs (Decidable (_ ∧ _ ∧ _ ∧ _ ∧ _))

/-- IAC SB at the front. -/
theorem front_of_bytes
    (long : 2 ≤ buffer.bpos)
    (isIAC : buffer.buff.getD 0 0 = telcmdIAC)
    (isSB : buffer.buff.getD 1 0 = telcmdSB) :
    ∃ rest, buffer.pending = telcmdIAC :: telcmdSB :: rest := by
  have length := length_pending fits
  have first := @pending_getD buffer 0 (by omega)
  have second := @pending_getD buffer 1 (by omega)
  rcases pending_eq : buffer.pending with _ | ⟨byte, _ | ⟨next, rest⟩⟩
  · simp [pending_eq] at length
    omega
  · simp [pending_eq] at length
    omega
  · rw [pending_eq, isIAC] at first
    rw [pending_eq, isSB] at second
    simp only [List.getD_cons_zero, List.getD_cons_succ] at first second
    exact ⟨rest, by rw [first, second]⟩

/-- A pass over a sub-option that is not known changes nothing. -/
theorem run_teloptPass_unknown
    (wide : buffer.bpos < 2 ^ 32)
    (unknown : UnknownOption buffer) :
    (teloptPass env me ()).run ⟨core, buffer⟩ =
      ⟨.ok (.inl ()), ⟨core, buffer⟩,
        .telopt me buffer.pending ::
          (((unknownOption me (buffer.buff.getD 2 0)).run core).obs ++
            [.consumed me buffer.pending 0 buffer])⟩ := by
  obtain ⟨long, isIAC, isSB, notNaws, notTerm⟩ := unknown
  obtain ⟨rest, front⟩ := front_of_bytes fits long isIAC isSB
  have ran := run_teloptCommand_unknown env me core fits long notNaws notTerm
  have nothing : buffer.consume 0 = buffer := by
    have zero : buffer.consume (0 : Nat) = _ :=
      consume_of_le wide (Nat.zero_le _)
    simpa using zero
  rw [run_teloptPass_switch env me core fits front, Prog.run_bind_ok ran]
  simp [finishPass, nothing]

/-- A pass over a sub-option that is told by a byte behind those in use
returns. -/
theorem run_teloptPass_stale
    (stuck : Stuck buffer.pending)
    (known : ¬ UnknownOption buffer) :
    (teloptPass env me ()).run ⟨core, buffer⟩ =
      ⟨.ok (.inr false), ⟨core, buffer⟩, [.telopt me buffer.pending]⟩ := by
  have length := length_pending fits
  obtain ⟨first, second, notNaws, notTerm⟩ := stuck
  have long : 2 ≤ buffer.bpos := by
    rw [← length]
    by_contra short
    rw [List.getElem?_eq_none (by omega)] at second
    exact absurd second (by simp)
  obtain ⟨rest, front⟩ : ∃ rest,
      buffer.pending = telcmdIAC :: telcmdSB :: rest := by
    obtain ⟨byte, rest, front⟩ := front_of_decodeCommand first (by omega)
    rw [front] at second ⊢
    exact ⟨rest, by simpa using second⟩
  have isIAC : buffer.buff.getD 0 0 = telcmdIAC := by
    rw [← pending_getD (by omega), front]
    rfl
  have isSB : buffer.buff.getD 1 0 = telcmdSB := by
    rw [← pending_getD (by omega), front]
    rfl
  have stale : buffer.buff.getD 2 0 = teloptNAWS ∨
      buffer.buff.getD 2 0 = teloptTERM := by
    by_contra neither
    rw [not_or] at neither
    exact known ⟨long, isIAC, isSB, neither.1, neither.2⟩
  have two : buffer.bpos = 2 := by
    by_contra longer
    have third : buffer.pending[2]? = some (buffer.buff.getD 2 0) := by
      have inside : 2 < buffer.pending.length := by omega
      rw [List.getElem?_eq_getElem inside, ← pending_getD (by omega)]
      simp [inside]
    rw [third] at notNaws notTerm
    rcases stale with isNaws | isTerm
    · exact notNaws (by rw [isNaws])
    · exact notTerm (by rw [isTerm])
  rw [run_teloptPass_switch env me core fits front,
    Prog.run_bind_ok (run_teloptCommand_stale env me core fits two stale)]
  rfl

/-- A pass over a sub-option that is not known returns or changes nothing. -/
theorem run_teloptPass_stuck
    (wide : buffer.bpos < 2 ^ 32)
    (stuck : Stuck buffer.pending) :
    (teloptPass env me ()).run ⟨core, buffer⟩ =
        ⟨.ok (.inr false), ⟨core, buffer⟩, [.telopt me buffer.pending]⟩ ∨
      ∃ obs, Follows core obs core ∧
        (teloptPass env me ()).run ⟨core, buffer⟩ =
          ⟨.ok (.inl ()), ⟨core, buffer⟩,
            .telopt me buffer.pending ::
              (obs ++ [.consumed me buffer.pending 0 buffer])⟩ := by
  by_cases unknown : UnknownOption buffer
  · refine .inr ⟨_, ?_, run_teloptPass_unknown env me core fits wide unknown⟩
    have follows :=
      (unknownOption_changes me (buffer.buff.getD 2 0)).follows core
    rwa [Core.setUser_id] at follows
  · exact .inl (run_teloptPass_stale env me core fits stuck unknown)

end Pass

/-- A pass over nothing: the byte at the end of the empty buffer is a NUL. -/
theorem run_teloptPass_empty
    (env : Env)
    (me : Nat)
    (core : Core)
    {bpos : Nat}
    (positive : 0 < bpos) :
    (teloptPass env me ()).run ⟨core, ⟨[], bpos⟩⟩ =
      ⟨.ok (.inr true), ⟨core, ⟨[], bpos⟩⟩, []⟩ := by
  have nonzero : ¬ bpos = 0 := by omega
  rw [teloptPass, Prog.run_get_bind]
  simp only [nonzero, if_false]
  rw [run_byteAt_bind (Nat.zero_le _)]
  simp [telcmdIAC]

end Common
end Lotospp
