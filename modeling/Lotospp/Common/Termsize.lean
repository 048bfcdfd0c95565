import Mathlib.Data.List.GetD
import Lotospp.Common.LineEffect
import Lotospp.Common.PendingBytes

/-!
# The terminal size

A complete terminal size option gives both sizes, whatever stands behind it.
An option that is cut off behind its eighth byte has already been assigned
when `User::getTermsize` finds that it is not complete.
-/

namespace Lotospp
namespace Common

open Text Effect

/-! ## What is read -/

/-- The positions of the buffer that `User::getTermsize` reads. -/
def termsizeReads (buff : Bytes) : List Nat :=
  [3, colsHigh buff + 1, colsHigh buff, colsLow buff,
    colsLow buff + 1, rowsHigh buff + 1, rowsHigh buff, rowsLow buff,
    rowsLow buff + 1, rowsLow buff + 2]

/-- Two runs return and show the same, and only differ in the buffer. -/
structure Alike
    {α : Type}
    (first second : Run Abort Reader Obs α) : Prop where
  /-- The values. -/
  val : first.val = second.val
  /-- The observations. -/
  obs : first.obs = second.obs
  /-- The states. -/
  core : first.state.core = second.state.core

namespace Alike

variable {α β : Type} {buffer other : TeloptBuffer}

theorem returns
    (value : α)
    (core : Core)
    (buffer other : TeloptBuffer) :
    Alike ((pure value : ReadM α).run ⟨core, buffer⟩)
      ((pure value : ReadM α).run ⟨core, other⟩) :=
  ⟨rfl, rfl, rfl⟩

/-- Both read the same byte. -/
theorem byteAt
    {next next' : UInt8 → ReadM α}
    {reader reader' : Reader}
    {position : Nat}
    (same : charAt other.buff position = charAt buffer.buff position)
    (core : reader.core = reader'.core)
    (rest : position ≤ buffer.buff.length →
      Alike ((next (buffer.buff.getD position 0)).run reader)
        ((next' (buffer.buff.getD position 0)).run reader')) :
    Alike ((Common.byteAt buffer position >>= next).run reader)
      ((Common.byteAt other position >>= next').run reader') := by
  rw [Common.byteAt, Common.byteAt, same]
  by_cases inside : position ≤ buffer.buff.length
  · rw [charAt_of_le inside, checked_ok, Prog.run_pure_bind,
      Prog.run_pure_bind]
    exact rest inside
  · rw [charAt_of_gt (not_le.mp inside), checked_error, Prog.run_raise_bind,
      Prog.run_raise_bind]
    exact ⟨rfl, rfl, core⟩

/-- Both do what leaves the buffer alone. -/
theorem onCore
    {next next' : β → ReadM α}
    (prog : CoreM β)
    (core : Core)
    (rest : ∀ value core, Alike ((next value).run ⟨core, buffer⟩)
      ((next' value).run ⟨core, other⟩)) :
    Alike ((Common.onCore prog >>= next).run ⟨core, buffer⟩)
      ((Common.onCore prog >>= next').run ⟨core, other⟩) := by
  rw [Prog.run_bind, Prog.run_bind, Common.onCore, Prog.run_zoom,
    Prog.run_zoom]
  obtain ⟨abort | value, reached, obs⟩ := prog.run core
  · exact ⟨rfl, rfl, rfl⟩
  · obtain ⟨val, shown, cores⟩ := rest value reached
    exact ⟨val, congrArg (obs ++ ·) shown, cores⟩

end Alike

/-- `User::getTermsize` reads nothing else: buffers that agree there cannot be
told apart. -/
theorem getTermsize_alike
    (me : Nat)
    (core : Core)
    {buffer other : TeloptBuffer}
    (bpos : other.bpos = buffer.bpos)
    (agree : ∀ position ∈ termsizeReads buffer.buff,
      charAt other.buff position = charAt buffer.buff position) :
    Alike ((getTermsize me).run ⟨core, buffer⟩)
      ((getTermsize me).run ⟨core, other⟩) := by
  rw [getTermsize, Prog.run_get_bind, Prog.run_get_bind]
  simp only [bpos]
  by_cases short : buffer.bpos < 9
  · rw [if_pos short, if_pos short]
    exact .returns 0 core buffer other
  rw [if_neg short, if_neg short]
  have first : 3 + doubled (buffer.buff.getD 3 0) = colsHigh buffer.buff := rfl
  have second : colsHigh buffer.buff + 1 +
      doubled (buffer.buff.getD (colsHigh buffer.buff + 1) 0) =
        colsLow buffer.buff := rfl
  have third : colsLow buffer.buff + 1 +
      doubled (buffer.buff.getD (colsLow buffer.buff + 1) 0) =
        rowsHigh buffer.buff := rfl
  have fourth : rowsHigh buffer.buff + 1 +
      doubled (buffer.buff.getD (rowsHigh buffer.buff + 1) 0) =
        rowsLow buffer.buff := rfl
  simp only [termsizeReads, List.forall_mem_cons] at agree
  obtain ⟨doubledColsHigh, doubledColsLow, atColsHigh, atColsLow,
    doubledRowsHigh, doubledRowsLow, atRowsHigh, atRowsLow, isIAC, isSE, -⟩ := agree
  refine .onCore _ core fun _ core => ?_
  refine .byteAt doubledColsHigh rfl fun _ => ?_
  rw [first]
  refine .byteAt doubledColsLow rfl fun _ => ?_
  rw [second]
  by_cases wide : colsLow buffer.buff > buffer.bpos
  · rw [if_pos wide, if_pos wide]
    exact .returns 0 core buffer other
  rw [if_neg wide, if_neg wide]
  refine .byteAt atColsHigh rfl fun _ => .byteAt atColsLow rfl fun _ => ?_
  refine .onCore _ core fun _ core => ?_
  refine .byteAt doubledRowsHigh rfl fun _ => ?_
  rw [third]
  refine .byteAt doubledRowsLow rfl fun _ => ?_
  rw [fourth]
  refine .byteAt atRowsHigh rfl fun _ => .byteAt atRowsLow rfl fun _ => ?_
  refine .onCore _ core fun _ core => ?_
  by_cases cut : rowsLow buffer.buff > buffer.bpos - 3
  · rw [if_pos cut, if_pos cut]
    exact .returns 0 core buffer other
  rw [if_neg cut, if_neg cut]
  refine .byteAt isIAC rfl fun _ => .byteAt isSE rfl fun _ => ?_
  refine .onCore _ core fun _ core => .onCore _ core fun _ core => ?_
  exact .returns _ core buffer other

/-! ## Complete options -/

/-- A byte of a sub-option: a 255 is sent twice. -/
def sent (byte : UInt8) : Bytes :=
  if byte = telcmdIAC then [byte, byte] else [byte]

/-- The terminal size option of RFC 1073. -/
def nawsMessage (cols rows : UInt16) : Bytes :=
  [telcmdIAC, telcmdSB, teloptNAWS] ++
    sent (cols >>> 8).toUInt8 ++ sent cols.toUInt8 ++
    sent (rows >>> 8).toUInt8 ++ sent rows.toUInt8 ++
    [telcmdIAC, telcmdSE]

/-- The code widens a signed `char` to 16 bits, shifts it and adds the other
byte as an unsigned one; the sum is truncated to 16 bits. -/
theorem word_eq_signed (high low : UInt8) :
    (word high low : Int) =
      (signed high % 2 ^ 16 * 2 ^ 8 + low.toNat) % 2 ^ 16 := by
  have highBound := high.toNat_lt
  have lowBound := low.toNat_lt
  unfold word signed
  split <;> omega

/-- The two bytes of a size. -/
theorem word_bytes (size : UInt16) :
    word (size >>> 8).toUInt8 size.toUInt8 = size.toNat := by
  have bound := size.toNat_lt
  have shifted : (size >>> 8).toNat = size.toNat / 2 ^ 8 := by
    rw [UInt16.toNat_shiftRight, Nat.shiftRight_eq_div_pow]
    rfl
  rw [word, UInt16.toNat_toUInt8, UInt16.toNat_toUInt8, shifted]
  omega

section Sent

variable {front rest : Bytes} {byte : UInt8}

/-- The value of a byte stands behind the 255 that announces it. -/
theorem fieldAt_sent :
    fieldAt (front ++ (sent byte ++ rest)) front.length + 1 =
      (front ++ sent byte).length := by
  unfold fieldAt doubled sent
  by_cases isIAC : byte = telcmdIAC <;> simp [isIAC]

theorem getD_fieldAt_sent :
    (front ++ (sent byte ++ rest)).getD
        (fieldAt (front ++ (sent byte ++ rest)) front.length) 0 = byte := by
  unfold fieldAt doubled sent
  by_cases isIAC : byte = telcmdIAC <;> simp [isIAC]

end Sent

/-- Where the four bytes of the sizes are found, and behind them the rest. -/
theorem naws_sent
    (first second third fourth : UInt8)
    (rest : Bytes)
    {front buff : Bytes}
    (front_eq : front = [telcmdIAC, telcmdSB, teloptNAWS])
    (buff_eq : buff = front ++ sent first ++ sent second ++ sent third ++
      sent fourth ++ rest) :
    buff.getD (colsHigh buff) 0 = first ∧ buff.getD (colsLow buff) 0 = second ∧
      buff.getD (rowsHigh buff) 0 = third ∧
      buff.getD (rowsLow buff) 0 = fourth ∧
      rowsLow buff + 1 = (front ++ sent first ++ sent second ++ sent third ++
        sent fourth).length := by
  have one : buff = front ++ (sent first ++ (sent second ++ sent third ++
      sent fourth ++ rest)) := by
    simp [buff_eq]
  have two : buff = (front ++ sent first) ++ (sent second ++ (sent third ++
      sent fourth ++ rest)) := by
    simp [buff_eq]
  have three : buff = (front ++ sent first ++ sent second) ++ (sent third ++
      (sent fourth ++ rest)) := by
    simp [buff_eq]
  have four : buff = (front ++ sent first ++ sent second ++ sent third) ++
      (sent fourth ++ rest) := by
    simp [buff_eq]
  have colsHigh_eq : colsHigh buff = fieldAt buff front.length := by
    rw [front_eq]
    rfl
  have colsLow_eq : colsLow buff =
      fieldAt buff (front ++ sent first).length := by
    rw [colsLow, colsHigh_eq, one, fieldAt_sent]
  have rowsHigh_eq : rowsHigh buff =
      fieldAt buff (front ++ sent first ++ sent second).length := by
    rw [rowsHigh, colsLow_eq, two, fieldAt_sent]
  have rowsLow_eq : rowsLow buff =
      fieldAt buff (front ++ sent first ++ sent second ++ sent third).length := by
    rw [rowsLow, rowsHigh_eq, three, fieldAt_sent]
  refine ⟨?_, ?_, ?_, ?_, ?_⟩
  · rw [colsHigh_eq, one, getD_fieldAt_sent]
  · rw [colsLow_eq, two, getD_fieldAt_sent]
  · rw [rowsHigh_eq, three, getD_fieldAt_sent]
  · rw [rowsLow_eq, four, getD_fieldAt_sent]
  · rw [rowsLow_eq, four, fieldAt_sent]

/-- What is found in a message, whatever follows it. -/
theorem naws_message (cols rows : UInt16) (rest : Bytes) :
    rowsLow (nawsMessage cols rows ++ rest) + 3 =
        (nawsMessage cols rows).length ∧
      nawsCols (nawsMessage cols rows ++ rest) = cols.toNat ∧
      nawsRows (nawsMessage cols rows ++ rest) = rows.toNat ∧
      nawsCorrupt (nawsMessage cols rows ++ rest) = false := by
  have message : nawsMessage cols rows = ([telcmdIAC, telcmdSB, teloptNAWS] ++
      sent (cols >>> 8).toUInt8 ++ sent cols.toUInt8 ++
      sent (rows >>> 8).toUInt8 ++ sent rows.toUInt8) ++
        [telcmdIAC, telcmdSE] := rfl
  have trailer : nawsMessage cols rows ++ rest =
      ([telcmdIAC, telcmdSB, teloptNAWS] ++ sent (cols >>> 8).toUInt8 ++
        sent cols.toUInt8 ++ sent (rows >>> 8).toUInt8 ++
        sent rows.toUInt8) ++ ([telcmdIAC, telcmdSE] ++ rest) := by
    rw [message, List.append_assoc]
  obtain ⟨first, second, third, fourth, low⟩ :=
    naws_sent _ _ _ _ _ rfl trailer
  have length := congrArg List.length message
  rw [List.length_append, ← low] at length
  refine ⟨?_, ?_, ?_, ?_⟩
  · simpa using length.symm
  · rw [nawsCols, first, second, word_bytes]
  · rw [nawsRows, third, fourth, word_bytes]
  · have isIAC : (nawsMessage cols rows ++ rest).getD
        (rowsLow (nawsMessage cols rows ++ rest) + 1) 0 = telcmdIAC := by
      rw [low, trailer, List.getD_append_right _ _ _ _ (Nat.le_refl _),
        Nat.sub_self]
      rfl
    have isSE : (nawsMessage cols rows ++ rest).getD
        (rowsLow (nawsMessage cols rows ++ rest) + 2) 0 = telcmdSE := by
      have next : rowsLow (nawsMessage cols rows ++ rest) + 2 =
          rowsLow (nawsMessage cols rows ++ rest) + 1 + 1 := rfl
      rw [next, low, trailer, List.getD_append_right _ _ _ _
        (Nat.le_add_right _ 1),
        Nat.add_sub_cancel_left]
      rfl
    rw [nawsCorrupt, isIAC, isSE]
    rfl

/-- `User::getTermsize` on a message, with bytes behind it. -/
theorem run_getTermsize_message
    (me : Nat)
    (core : Core)
    (cols rows : UInt16)
    {buff more : Bytes}
    (buff_eq : buff = nawsMessage cols rows ++ more)
    {bpos : Nat}
    (whole : (nawsMessage cols rows).length ≤ bpos)
    (fits : bpos ≤ buff.length) :
    (getTermsize me).run ⟨core, ⟨buff, bpos⟩⟩ =
      ⟨.ok ((nawsMessage cols rows).length : Int),
        ⟨core.setUser me
          (TeloptCommand.settleSize cols.toNat rows.toNat), ⟨buff, bpos⟩⟩,
        ((nawsAct me cols.toNat rows.toNat false).run core).obs⟩ := by
  obtain ⟨size, width, height, sound⟩ := naws_message cols rows more
  rw [← buff_eq] at size width height sound
  have order := naws_positions buff
  have complete : rowsLow buff + 3 ≤ bpos := by omega
  have act := run_getTermsize_act me core ⟨buff, bpos⟩
    (by simp only; omega) complete
  simp only [width, height, sound, size] at act
  rw [act, run_onCore_bind (nawsAct_changes me cols.toNat rows.toNat false)]
  simp

/-- `User::getTermsize` on a complete message, whatever the state of the
session and the bytes behind it, those in use and those that are not.  All it
reads is the message. -/
theorem getTermsize_message
    (me : Nat)
    (core : Core)
    (cols rows : UInt16)
    (rest stale : Bytes) :
    let message := nawsMessage cols rows
    let buff := message ++ rest ++ stale
    let ran := (getTermsize me).run ⟨core, ⟨buff, (message ++ rest).length⟩⟩
    let alone := (getTermsize me).run ⟨core, ⟨message, message.length⟩⟩
    ran.val = .ok (message.length : Int) ∧
      (ran.state.core.users me).termCols =
        (if cols = 0 then (core.users me).termCols else cols.toNat) ∧
      (ran.state.core.users me).termRows =
        (if rows = 0 then (core.users me).termRows else rows.toNat) ∧
      ran.state.buffer = ⟨buff, (message ++ rest).length⟩ ∧
      ran.state.core = alone.state.core ∧ ran.obs = alone.obs ∧
      ∀ position ∈ termsizeReads buff, position < message.length := by
  intro message buff ran alone
  have isZero : ∀ size : UInt16, size.toNat = 0 ↔ size = 0 := by
    intro size
    rw [← UInt16.toNat_inj]
    rfl
  have whole : message.length ≤ (message ++ rest).length := by
    simp
  have fits : (message ++ rest).length ≤ buff.length := by
    simp [buff]
  have ran_eq := run_getTermsize_message me core cols rows
    (List.append_assoc message rest stale) whole fits
  have alone_eq := run_getTermsize_message me core cols rows
    (List.append_nil message).symm (Nat.le_refl _) (Nat.le_refl _)
  change ran = _ at ran_eq
  change alone = _ at alone_eq
  rw [ran_eq, alone_eq]
  refine ⟨rfl, ?_, ?_, rfl, rfl, rfl, ?_⟩
  · simp [TeloptCommand.settleSize, isZero]
  · simp [TeloptCommand.settleSize, isZero]
  · intro position isRead
    obtain ⟨size, -⟩ := naws_message cols rows (rest ++ stale)
    rw [← List.append_assoc] at size
    have order := naws_positions buff
    have complete : rowsLow buff + 3 = message.length := size
    simp only [termsizeReads, List.mem_cons, List.not_mem_nil,
      or_false] at isRead
    omega

/-! ## Options that are refused -/

section Refused

variable (me : Nat) (core : Core) (buffer : TeloptBuffer)

/-- `User::getTermsize` answers that the option is incomplete, or takes all of
it and has found it corrupt. -/
def RefusesSize : Prop :=
  ((getTermsize me).run ⟨core, buffer⟩).val = .ok 0 ∨
    (((getTermsize me).run ⟨core, buffer⟩).val =
        .ok ((rowsLow buffer.buff + 3 : Nat) : Int) ∧
      nawsCorrupt buffer.buff = true)

/-- A refused option leaves the terminal size as it was. -/
def KeepsSize : Prop :=
  RefusesSize me core buffer →
    (((getTermsize me).run ⟨core, buffer⟩).state.core.users me).termCols =
        (core.users me).termCols ∧
      (((getTermsize me).run ⟨core, buffer⟩).state.core.users me).termRows =
        (core.users me).termRows

/-- The option is cut off behind its eighth byte, and other sizes than those
of the session stand where they are read. -/
def AssignsCut : Prop :=
  9 ≤ buffer.bpos ∧ buffer.bpos < rowsLow buffer.buff + 3 ∧
    rowsLow buffer.buff ≤ buffer.buff.length ∧
    ((core.users me).termCols ≠ nawsCols buffer.buff ∨
      (core.users me).termRows ≠ nawsRows buffer.buff)

instance : Decidable (AssignsCut me core buffer) :=
  inferInstanceAs (Decidable (_ ∧ _ ∧ _ ∧ _))

end Refused

/-- A read that returns was in the buffer, up to the NUL at its end. -/
theorem byteAt_returned
    {α : Type}
    {buffer : TeloptBuffer}
    {position : Nat}
    {next : UInt8 → ReadM α}
    {reader : Reader}
    {value : α}
    (returned : ((byteAt buffer position >>= next).run reader).val =
      .ok value) :
    position ≤ buffer.buff.length ∧
      ((next (buffer.buff.getD position 0)).run reader).val = .ok value := by
  by_cases inside : position ≤ buffer.buff.length
  · rw [run_byteAt_bind inside] at returned
    exact ⟨inside, returned⟩
  · rw [byteAt, charAt_of_gt (not_le.mp inside), checked_error,
      Prog.run_raise_bind] at returned
    exact absurd returned (by simp)

/-- `User::getTermsize` only returns from nine bytes or more when it has found
both sizes, and behind a complete option its end. -/
theorem getTermsize_returned
    {me : Nat}
    {core : Core}
    {buffer : TeloptBuffer}
    {value : Int}
    (long : 9 ≤ buffer.bpos)
    (returned : ((getTermsize me).run ⟨core, buffer⟩).val = .ok value) :
    rowsLow buffer.buff ≤ buffer.buff.length ∧
      (rowsLow buffer.buff + 3 ≤ buffer.bpos →
        rowsLow buffer.buff + 2 ≤ buffer.buff.length) := by
  have order := naws_positions buffer.buff
  have short : ¬ buffer.bpos < 9 := by omega
  have width : ¬ colsLow buffer.buff > buffer.bpos := by omega
  have first : 3 + doubled (buffer.buff.getD 3 0) = colsHigh buffer.buff := rfl
  have second : colsHigh buffer.buff + 1 +
      doubled (buffer.buff.getD (colsHigh buffer.buff + 1) 0) =
        colsLow buffer.buff := rfl
  have inside : rowsLow buffer.buff ≤ buffer.buff.length := by
    have reads := returned
    rw [getTermsize, Prog.run_get_bind] at reads
    simp only [short, if_false, run_onCore_update_bind] at reads
    obtain ⟨-, reads⟩ := byteAt_returned reads
    obtain ⟨-, reads⟩ := byteAt_returned reads
    rw [first, second, if_neg width] at reads
    obtain ⟨-, reads⟩ := byteAt_returned reads
    obtain ⟨-, reads⟩ := byteAt_returned reads
    rw [run_onCore_update_bind] at reads
    obtain ⟨-, reads⟩ := byteAt_returned reads
    obtain ⟨-, reads⟩ := byteAt_returned reads
    obtain ⟨-, reads⟩ := byteAt_returned reads
    exact (byteAt_returned reads).1
  refine ⟨inside, fun complete => ?_⟩
  rw [run_getTermsize_sizes me core buffer inside long,
    if_neg (by omega)] at returned
  exact (byteAt_returned (byteAt_returned returned).2).1

/-- The terminal size survives the refusal of an option exactly when nothing
else is read from an option that is cut off behind its eighth byte. -/
theorem keepsSize_iff
    (me : Nat)
    (core : Core)
    (buffer : TeloptBuffer) :
    KeepsSize me core buffer ↔ ¬ AssignsCut me core buffer := by
  constructor
  · rintro keeps ⟨long, incomplete, inside, other⟩
    have cut := run_getTermsize_cut me core buffer inside long incomplete
    obtain ⟨cols, rows⟩ := keeps (.inl (by rw [cut]))
    rw [cut] at cols rows
    simp only [Core.users_setUser_self] at cols rows
    rcases other with other | other
    · exact other cols.symm
    · exact other rows.symm
  · intro spared refuses
    by_cases long : 9 ≤ buffer.bpos
    · obtain ⟨value, returned⟩ : ∃ value,
          ((getTermsize me).run ⟨core, buffer⟩).val = .ok value := by
        rcases refuses with zero | ⟨whole, -⟩
        · exact ⟨0, zero⟩
        · exact ⟨_, whole⟩
      obtain ⟨inside, behind⟩ := getTermsize_returned long returned
      by_cases complete : rowsLow buffer.buff + 3 ≤ buffer.bpos
      · have act := run_getTermsize_act me core buffer (behind complete) complete
        rw [run_onCore_bind (nawsAct_changes me (nawsCols buffer.buff)
          (nawsRows buffer.buff) (nawsCorrupt buffer.buff))] at act
        have corrupt : nawsCorrupt buffer.buff = true := by
          rcases refuses with zero | ⟨-, corrupt⟩
          · rw [act] at zero
            simp only [Prog.run_pure, Run.prepend_mk, Except.ok.injEq] at zero
            omega
          · exact corrupt
        rw [act]
        simp [corrupt, TeloptCommand.settleSize]
      · have cut := run_getTermsize_cut me core buffer inside long (by omega)
        rw [cut]
        simp only [Core.users_setUser_self]
        by_contra other
        refine spared ⟨long, by omega, inside, ?_⟩
        rw [not_and_or] at other
        exact other.imp (fun differs same => differs same.symm)
          fun differs same => differs same.symm
    · have short : buffer.bpos < 9 := by omega
      have ran : (getTermsize me).run ⟨core, buffer⟩ =
          ⟨.ok 0, ⟨core, buffer⟩, []⟩ := by
        simp [getTermsize, short]
      rw [ran]
      exact ⟨rfl, rfl⟩

/-! ## Series of deliveries -/

/-- The sizes of the options that have been found completely and correctly. -/
def sizesIn (obs : List Obs) : List (Nat × Nat) :=
  obs.filterMap fun observation =>
    match observation with
    | .telopt _ pending =>
        match decodeCommand pending with
        | some (.naws cols rows false, _) => some (cols, rows)
        | _ => none
    | _ => none

/-- The width and the height of the terminal of a user. -/
def Core.termSize (core : Core) (me : Nat) : Nat × Nat :=
  ((core.users me).termCols, (core.users me).termRows)

/-- What a received size makes of the size of the terminal: a zero keeps the
width or the height as it was. -/
def resize (size received : Nat × Nat) : Nat × Nat :=
  (if received.1 = 0 then size.1 else received.1,
    if received.2 = 0 then size.2 else received.2)

/-- The terminal of the user has the size that the received ones, one after
the other, have made of the size it had at the start. -/
def SizeReceived (me : Nat) (start core : Core) (past : List Obs) : Prop :=
  core.termSize me = (sizesIn past).foldl resize (start.termSize me)

/-- A packet is not too long to be read and counted, and no terminal size is
found cut off behind its eighth byte. -/
def Obs.Uncut : Obs → Prop
  | .packet _ pending data =>
      data.length < maxSize ∧ pending.length + data.length < 2 ^ 31
  | .telopt _ pending => ¬ PartialSize pending
  | _ => True

instance : (observation : Obs) → Decidable observation.Uncut
  | .packet _ pending data =>
      inferInstanceAs (Decidable (data.length < maxSize ∧
        pending.length + data.length < 2 ^ 31))
  | .telopt _ pending => inferInstanceAs (Decidable (¬ PartialSize pending))
  | .wrote _ _ => .isTrue trivial
  | .nullConnection _ => .isTrue trivial
  | .dangling _ => .isTrue trivial
  | .text _ _ => .isTrue trivial
  | .consumed _ _ _ _ => .isTrue trivial
  | .handed _ => .isTrue trivial
  | .kicked _ => .isTrue trivial
  | .draw _ => .isTrue trivial

/-- Every observation is uncut. -/
def UncutPast (past : List Obs) : Prop :=
  ∀ observation ∈ past, observation.Uncut

instance (past : List Obs) : Decidable (UncutPast past) :=
  inferInstanceAs (Decidable (∀ observation ∈ past, observation.Uncut))

theorem uncutPast_append (past more : List Obs) :
    UncutPast (past ++ more) ↔ UncutPast past ∧ UncutPast more :=
  List.forall_mem_append

@[simp] theorem sizesIn_append (obs more : List Obs) :
    sizesIn (obs ++ more) = sizesIn obs ++ sizesIn more :=
  List.filterMap_append

/-- What is shown beside the commands tells no size. -/
theorem sizesIn_of_incidental
    {obs : List Obs}
    (incidental : Incidental obs) : sizesIn obs = [] := by
  rw [sizesIn, List.filterMap_eq_nil_iff]
  intro observation shown
  rcases incidental observation shown with plain | ⟨_, _, _, _, rfl⟩
  · cases observation <;> first | rfl | exact plain.elim
  · rfl

theorem sizesIn_of_plain
    {obs : List Obs}
    (plain : ∀ observation ∈ obs, observation.Plain) : sizesIn obs = [] :=
  sizesIn_of_incidental (incidental_of_plain plain)

/-- A look at the pending bytes tells no size when nothing is complete. -/
theorem sizesIn_telopt_of_none
    {me : Nat}
    {todo : Bytes}
    (incomplete : decodeCommand todo = none) :
    sizesIn [.telopt me todo] = [] := by
  simp [sizesIn, incomplete]

theorem sizesIn_of_idle
    {me : Nat}
    {todo : Bytes}
    {obs : List Obs}
    (incomplete : decodeCommand todo = none)
    (idle : Idle me todo obs) : sizesIn obs = [] := by
  rw [sizesIn, List.filterMap_eq_nil_iff]
  intro observation shown
  rcases idle observation shown with plain | rfl | ⟨_, -, -, rfl⟩
  · cases observation <;> first | rfl | exact plain.elim
  · simp [incomplete]
  · rfl

/-- Only a complete and correct terminal size changes the size. -/
theorem size_settle
    (env : Env)
    {command : TeloptCommand}
    (other : ∀ cols rows, command ≠ .naws cols rows false)
    (user : User) :
    (command.settle env user).termCols = user.termCols ∧
      (command.settle env user).termRows = user.termRows := by
  cases command with
  | option command code =>
      simp only [TeloptCommand.settle, TeloptCommand.settleOption]
      split_ifs <;> exact ⟨rfl, rfl⟩
  | naws cols rows corrupt =>
      cases corrupt with
      | false => exact absurd rfl (other cols rows)
      | true => exact ⟨rfl, rfl⟩
  | term termType => exact ⟨rfl, rfl⟩
  | corruptTerm => exact ⟨rfl, rfl⟩
  | ayt => exact ⟨rfl, rfl⟩
  | iac => exact ⟨rfl, rfl⟩
  | other => exact ⟨rfl, rfl⟩

namespace SizeReceived

variable {me : Nat} {start core reached : Core} {past more : List Obs}

/-- The size stays as it is, and none is told. -/
theorem stays
    (received : SizeReceived me start core past)
    (cols : (reached.users me).termCols = (core.users me).termCols)
    (rows : (reached.users me).termRows = (core.users me).termRows)
    (silent : sizesIn more = []) :
    SizeReceived me start reached (past ++ more) := by
  have same : reached.termSize me = core.termSize me := Prod.ext cols rows
  rw [SizeReceived, sizesIn_append, silent, List.append_nil, same]
  exact received

/-- A complete command sets the size it tells. -/
theorem settle
    {env : Env}
    {todo : Bytes}
    {command : TeloptCommand}
    {size : Nat}
    (decoded : decodeCommand todo = some (command, size))
    (received : SizeReceived me start core past)
    (silent : sizesIn more = []) :
    SizeReceived me start (core.setUser me (command.settle env))
      (past ++ .telopt me todo :: more) := by
  have told : sizesIn (past ++ .telopt me todo :: more) =
      sizesIn past ++ sizesIn [.telopt me todo] := by
    rw [← List.singleton_append, sizesIn_append, sizesIn_append, silent,
      List.append_nil]
  rw [SizeReceived, told, List.foldl_append, ← received]
  by_cases isSize : ∃ cols rows, command = .naws cols rows false
  · obtain ⟨cols, rows, rfl⟩ := isSize
    have one : sizesIn [.telopt me todo] = [(cols, rows)] := by
      simp [sizesIn, decoded]
    rw [one, Core.termSize, Core.users_setUser_self]
    rfl
  · have other : ∀ cols rows, command ≠ .naws cols rows false :=
      fun cols rows same => isSize ⟨cols, rows, same⟩
    have nothing : sizesIn [.telopt me todo] = [] := by
      rw [sizesIn, List.filterMap_eq_nil_iff]
      intro observation shown
      obtain rfl := List.mem_singleton.mp shown
      simp only [decoded]
      split
      · rename_i same
        cases same
        exact absurd rfl (other _ _)
      · rfl
    obtain ⟨cols, rows⟩ := size_settle env other (core.users me)
    rw [nothing, List.foldl_nil, Core.termSize, Core.users_setUser_self]
    exact Prod.ext cols rows

end SizeReceived

/-- As long as no option is cut off late, the size has been received. -/
def Sized (me : Nat) (start core : Core) (past : List Obs) : Prop :=
  UncutPast past → SizeReceived me start core past

section Deliveries

variable {env : Env} {me : Nat} {start core reached : Core}
variable {past more : List Obs}

theorem Sized.stays
    (sized : Sized me start core past)
    (cols : (reached.users me).termCols = (core.users me).termCols)
    (rows : (reached.users me).termRows = (core.users me).termRows)
    (silent : sizesIn more = []) : Sized me start reached (past ++ more) :=
  fun uncut =>
    (sized ((uncutPast_append ..).mp uncut).1).stays cols rows silent

theorem Sized.settle
    {todo : Bytes}
    {command : TeloptCommand}
    {size : Nat}
    (decoded : decodeCommand todo = some (command, size))
    (sized : Sized me start core past)
    (silent : sizesIn more = []) :
    Sized me start (core.setUser me (command.settle env))
      (past ++ .telopt me todo :: more) :=
  fun uncut =>
    (sized ((uncutPast_append ..).mp uncut).1).settle decoded silent

/-- The size is received option by option. -/
theorem sized_rule (env : Env) (me : Nat) (start : Core) :
    ReadRule env me (fun _ => Sized me start) (fun _ => Sized me start)
      (Sized me start) (fun _ => Sized me start)
      (fun _ _ => Sized me start) where
  text := by
    intro byte rest core past _ sized
    obtain ⟨before, after, ran, follows, followsLine⟩ :=
      run_ordinary env me byte rest core
    obtain ⟨cols, rows, -⟩ := byteOutcome_stays env me byte core
    have silent : sizesIn (.text me byte :: (before ++
        (handedOf me byte rest core).toList.map .handed ++ after)) = [] := by
      change sizesIn (_ ++ _ ++ _) = []
      rw [sizesIn_append, sizesIn_append, sizesIn_of_plain follows.plain,
        sizesIn_of_plain followsLine.plain]
      simp [sizesIn]
    have kept := sized.stays cols rows silent
    rw [ran]
    cases (byteOutcome env me byte core).1 with
    | error abort => exact kept
    | ok value => exact kept
  enter := fun sized => sized
  leave := fun _ _ sized => sized
  command := by
    intro todo core past command size _ decoded _ sized obs after follows _ _
    refine sized.settle decoded ?_
    rw [sizesIn_append, sizesIn_of_plain follows.plain]
    rfl
  notice := by
    intro todo core past _ _ sized obs follows
    exact sized.stays (by simp [User.noticed]) (by simp [User.noticed])
      (sizesIn_of_plain follows.plain)
  incomplete := by
    intro core past buffer _ undecoded _ sized uncut
    have whole : ¬ PartialSize buffer.pending :=
      uncut (.telopt me buffer.pending) (by simp)
    have change : buffer.incomplete = id := by
      funext user
      rw [TeloptBuffer.incomplete, if_neg whole, id]
    rw [change, Core.setUser_id]
    exact sized.stays rfl rfl (sizesIn_telopt_of_none undecoded) uncut
  done := fun sized => sized
  stuck := by
    intro todo core past isStuck sized
    have alone : sizesIn [.telopt me todo] = [] :=
      sizesIn_telopt_of_none isStuck.undecoded
    refine ⟨sized.stays rfl rfl alone, fun obs idle => ?_⟩
    refine sized.stays rfl rfl ?_
    rw [← List.singleton_append, sizesIn_append, alone,
      sizesIn_of_idle isStuck.undecoded idle]
    rfl
  cut := by
    intro todo core past command size _ decoded _ sized obs incidental
    exact sized.settle decoded (sizesIn_of_incidental incidental)
  noticeLost := by
    intro core past _ sized obs incidental
    exact sized.stays (by simp [User.noticed]) (by simp [User.noticed])
      (sizesIn_of_incidental incidental)
  endLost := fun sized =>
    ⟨sized.stays rfl rfl rfl, sized.stays rfl rfl rfl⟩

/-- Between two packets, as long as no option is cut off late, the pending
bytes fit their buffer. -/
def Delivered
    (me : Nat)
    (start : Core)
    (reader : Reader)
    (past : List Obs) : Prop :=
  UncutPast past →
    SizeReceived me start reader.core past ∧ ReadRule.Fits reader.buffer

/-- A packet keeps the size one that has been received. -/
theorem uRead_delivered
    (env : Env)
    (me : Nat)
    (start : Core)
    (data : Bytes) :
    Prog.Preserves (Delivered me start)
      (fun _ reader => Sized me start reader.core) (uRead env me data) := by
  intro reader past delivered
  have given : UncutPast past → ∀ pending, Sized me start reader.core
      (past ++ [.packet me pending data]) :=
    fun uncut _ _ => (delivered uncut).1.stays rfl rfl rfl
  refine ((sized_rule env me start).uRead_while UncutPast ?_ ?_ ?_ ?_ ?_
    ?_).mono ?_ ?_
  · exact fun uncut => ((uncutPast_append ..).mp uncut).1
  · exact fun uncut =>
      ((uncutPast_append ..).mp uncut).2 _ (List.mem_singleton_self _)
  · exact fun uncut => (delivered uncut).2
  · exact fun uncut => given uncut _
  · exact fun uncut _ => given uncut _
  · exact fun uncut _ => given uncut _
  · rintro _ reader past ends uncut
    obtain ⟨sized, fits⟩ := ends uncut
    exact ⟨sized uncut, fits⟩
  · exact fun _ _ _ ended uncut => ended uncut uncut

/-- In every run over any packets, in which no option is cut off late, the
size is at the end one that has been received. -/
theorem feed_sizeReceived
    (env : Env)
    (me : Nat)
    (core : Core)
    (packets : List Bytes)
    (uncut : UncutPast ((feed env me packets).run ⟨core, {}⟩).obs) :
    SizeReceived me core
      ((feed env me packets).run ⟨core, {}⟩).state.core
      ((feed env me packets).run ⟨core, {}⟩).obs := by
  have begins : Delivered me core ⟨core, {}⟩ [] := fun _ =>
    ⟨rfl, Nat.le_refl _, Nat.two_pow_pos 31⟩
  have ends : Prog.Spec (Delivered me core) (feed env me packets)
      (fun _ => Delivered me core) (fun _ reader => Sized me core reader.core) :=
    Prog.Spec.forEach fun data _ => uRead_delivered env me core data
  have outcome := ends ⟨core, {}⟩ [] begins
  generalize (feed env me packets).run ⟨core, {}⟩ = ran at outcome uncut ⊢
  obtain ⟨abort | value, reader, obs⟩ := ran
  · exact outcome uncut
  · exact (outcome uncut).1

end Deliveries

/-- When a refused option leaves the terminal size as it was, for one call on
any buffer; and in every run over any packets in which no option is cut off
late, the size is what the received ones have made of the one at the start. -/
theorem termsize_kept
    (me : Nat)
    (core : Core) :
    (∀ buffer : TeloptBuffer,
      KeepsSize me core buffer ↔ ¬ AssignsCut me core buffer) ∧
    ∀ (env : Env) (packets : List Bytes),
      UncutPast ((feed env me packets).run ⟨core, {}⟩).obs →
        SizeReceived me core
          ((feed env me packets).run ⟨core, {}⟩).state.core
          ((feed env me packets).run ⟨core, {}⟩).obs :=
  ⟨keepsSize_iff me core, fun env => feed_sizeReceived env me core⟩

/-- A size that is cut within its fourth byte, and then delivered. -/
theorem termsize_kept_cutSize :
    let run := (feed (Env.testing []) 0
      [[255, 250, 31, 0, 100, 0], [40, 255, 240]]).run ⟨{}, {}⟩
    SizeReceived 0 {} run.state.core run.obs :=
  (termsize_kept 0 {}).2 (Env.testing []) _ (by decide +kernel)

/-- A size of which the last byte is missing is assigned. -/
theorem lateCut_assigned :
    ¬ (∀ (me : Nat) (core : Core) (buffer : TeloptBuffer),
        KeepsSize me core buffer) ∧
      ¬ ∀ (env : Env) (me : Nat) (core : Core) (packets : List Bytes),
        SizeReceived me core
          ((feed env me packets).run ⟨core, {}⟩).state.core
          ((feed env me packets).run ⟨core, {}⟩).obs := by
  refine ⟨fun always => ?_, fun always => ?_⟩
  · have keeps := always 0 {} ⟨[255, 250, 31, 0, 255, 255, 0, 40, 255], 9⟩
    obtain ⟨cols, -⟩ := keeps (.inl (by decide +kernel))
    exact absurd cols (by decide +kernel)
  · have received := always (Env.testing []) 0 {}
      [[255, 250, 31, 0, 255, 255, 0, 40, 255]]
    exact absurd (congrArg Prod.fst received) (by decide +kernel)

end Common
end Lotospp
