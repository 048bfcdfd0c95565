import Lotospp.Common.PendingBytes
import Lotospp.Common.TeloptEnd

/-!
# The extent of a packet

`User::uRead` counts the bytes of a packet by the length of the message and
takes them from `NetworkMessage::GetRaw`; telnet commands replace both.  The
two agree, and nothing but the packet is read, unless `GetRaw` answers nothing
for a message of the greatest length or a terminal type cuts off what follows.
-/

namespace Lotospp
namespace Common

open Text Effect

/-- The turn hands the rest of the input to the telnet parser. -/
def Parses (position : ReadPosition) (reader : Reader) : Prop :=
  position.i < position.len ∧
    (position.input.getD position.i 0 = telcmdIAC ∨ reader.buffer.bpos ≠ 0)

/-- The telnet parser on the rest of the input. -/
def parseRest (env : Env) (me : Nat) (position : ReadPosition) : ReadM Bool := do
  bufferRest position
  parseTelopt env me

/-- A turn of the loop of `User::uRead` reads within its input: at `i`, and
behind telnet commands at the start of what they have left, if they have left
anything; and the telnet parser returns. -/
structure WithinTurn
    (env : Env)
    (me : Nat)
    (position : ReadPosition)
    (reader : Reader) : Prop where
  /-- The byte at `i`. -/
  byte : position.i < position.len → position.i < position.input.length
  /-- The telnet parser returns. -/
  returns : Parses position reader →
    ∃ complete, ((parseRest env me position).run reader).val = .ok complete
  /-- The first byte behind the commands. -/
  behind : Parses position reader →
    ((parseRest env me position).run reader).val = .ok true →
    ((parseRest env me position).run reader).state.buffer.bpos ≠ 0 →
    0 < ((parseRest env me position).run reader).state.buffer.pending.length

/-- Behind complete commands there is a terminal type that cuts off what
follows it. -/
inductive CutsOff : Bytes → Prop
  /-- It stands at the front. -/
  | here {todo : Bytes} {command : TeloptCommand} {size : Nat} :
      todo.head? = some telcmdIAC →
      decodeCommand todo = some (command, size) →
      Truncates todo command size →
      CutsOff todo
  /-- It stands behind the first command. -/
  | behind {todo : Bytes} {command : TeloptCommand} {size : Nat} :
      todo.head? = some telcmdIAC →
      decodeCommand todo = some (command, size) →
      CutsOff (todo.drop size) →
      CutsOff todo

/-- The commands that a turn hands to the telnet parser do not lead to a
sub-option that is not known, and none of them cuts off what follows it. -/
def SparedTurn (position : ReadPosition) (reader : Reader) : Prop :=
  Parses position reader →
    ¬ FindsUnknown ((bufferRest position).run reader).state.buffer ∧
      ¬ CutsOff ((bufferRest position).run reader).state.buffer.pending

/-- The loop of `User::uRead` for a packet, with so many turns to spare. -/
def packetLoop (env : Env) (me : Nat) (data : Bytes) (reader : Reader)
    (spare : Nat) : ReadM Unit :=
  Prog.loop (readPass env me) .hang
    (reader.buffer.bpos + data.length + 1 + spare) ⟨getRaw data, data.length, 0⟩

/-- `User::uRead` reads a packet and nothing else. -/
structure ReadsPacket
    (env : Env)
    (me : Nat)
    (data : Bytes)
    (reader : Reader) : Prop where
  /-- Every turn reads within its input. -/
  within : Prog.Turns (readPass env me) (WithinTurn env me)
    (reader.buffer.bpos + data.length + 1) ⟨getRaw data, data.length, 0⟩ reader
  /-- The loop comes to its end. -/
  ends : ∀ spare, (packetLoop env me data reader spare).run reader =
    (packetLoop env me data reader 0).run reader
  /-- Nothing but the bytes of the packet is interpreted, in their order. -/
  start : interpreted ((uRead env me data).run reader).obs <+:
    reader.buffer.pending ++ data
  /-- When the call returns, the rest is pending. -/
  whole : ((uRead env me data).run reader).val = .ok () →
    interpreted ((uRead env me data).run reader).obs ++
        ((uRead env me data).run reader).state.buffer.pending =
      reader.buffer.pending ++ data
  /-- The pending bytes are then in the telnet buffer. -/
  kept : ((uRead env me data).run reader).val = .ok () →
    ((uRead env me data).run reader).state.buffer.bpos ≤
      ((uRead env me data).run reader).state.buffer.buff.length

/-- The packet is short enough, its commands do not lead to a sub-option that
is not known and no terminal type cuts off what follows it. -/
structure Readable
    (env : Env)
    (me : Nat)
    (data : Bytes)
    (reader : Reader) : Prop where
  /-- The pending bytes are in the telnet buffer. -/
  inside : reader.buffer.bpos ≤ reader.buffer.buff.length
  /-- `NetworkMessage::GetRaw` answers with it. -/
  short : data.length < maxSize
  /-- It can be counted with the pending bytes. -/
  small : reader.buffer.bpos + data.length < 2 ^ 31
  /-- Every turn is handed commands that it can deal with. -/
  spared : Prog.Turns (readPass env me) SparedTurn
    (reader.buffer.bpos + data.length + 1) ⟨getRaw data, data.length, 0⟩ reader

/-! ## The turns -/

theorem tamePast_of_plain
    {obs : List Obs}
    (plain : ∀ observation ∈ obs, observation.Plain) : TamePast obs := by
  intro observation shown
  have isPlain := plain observation shown
  cases observation <;> trivial

/-- An ordinary byte is tame. -/
theorem tamePast_ordinary
    (env : Env)
    (me : Nat)
    (byte : UInt8)
    (rest : Bytes)
    (core : Core) : TamePast ((ordinary env me byte rest).run core).obs := by
  obtain ⟨before, after, ran, follows, followsLine⟩ :=
    run_ordinary env me byte rest core
  rw [ran]
  refine List.forall_mem_cons.mpr ⟨trivial, ?_⟩
  refine (tamePast_append ..).mpr ⟨(tamePast_append ..).mpr ⟨?_, ?_⟩, ?_⟩
  · exact tamePast_of_plain follows.plain
  · intro observation shown
    obtain ⟨line, -, rfl⟩ := List.mem_map.mp shown
    trivial
  · exact tamePast_of_plain followsLine.plain

theorem not_cutsOff_of_head
    {todo : Bytes}
    (noIAC : todo.head? ≠ some telcmdIAC) : ¬ CutsOff todo := by
  rintro (⟨isIAC, -, -⟩ | ⟨isIAC, -, -⟩)
  · exact noIAC isIAC
  · exact noIAC isIAC

theorem not_cutsOff_of_undecoded
    {todo : Bytes}
    (undecoded : decodeCommand todo = none) : ¬ CutsOff todo := by
  rintro (⟨-, decoded, -⟩ | ⟨-, decoded, -⟩)
  · rw [undecoded] at decoded
    exact absurd decoded (by simp)
  · rw [undecoded] at decoded
    exact absurd decoded (by simp)

/-- A command that cuts nothing off may be taken away. -/
theorem cutsOff_drop
    {todo : Bytes}
    {command : TeloptCommand}
    {size : Nat}
    (head : todo.head? = some telcmdIAC)
    (decoded : decodeCommand todo = some (command, size))
    (whole : ¬ Truncates todo command size) :
    CutsOff (todo.drop size) ↔ CutsOff todo := by
  refine ⟨.behind head decoded, ?_⟩
  rintro (⟨-, same, cuts⟩ | ⟨-, same, later⟩)
  · rw [decoded] at same
    obtain ⟨rfl, rfl⟩ := by simpa using same
    exact absurd cuts whole
  · rw [decoded] at same
    obtain ⟨rfl, rfl⟩ := by simpa using same
    exact later

/-- The telnet parser is tame unless a terminal type cuts off what follows. -/
theorem tame_rule (env : Env) (me : Nat) (start : Bytes) :
    TeloptRule env me
      (fun todo _ past => TamePast past ∧ (CutsOff todo ↔ CutsOff start))
      (fun _ past => ¬ TamePast past ∧ CutsOff start)
      (fun _ _ past => TamePast past ∧ ¬ CutsOff start)
      (fun _ _ _ past => TamePast past ∧ ¬ CutsOff start) where
  command := by
    rintro todo core past command size head decoded whole ⟨tame, same⟩ obs
      after follows - -
    refine ⟨(tamePast_append ..).mpr ⟨tame, List.forall_mem_cons.mpr ⟨?_, ?_⟩⟩,
      (cutsOff_drop head decoded whole).trans same⟩
    · intro found isFound
      rw [decoded] at isFound
      obtain rfl : (command, size) = found := by simpa using isFound
      exact whole
    · refine (tamePast_append ..).mpr ⟨tamePast_of_plain follows.plain, ?_⟩
      exact List.forall_mem_singleton.mpr trivial
  incomplete := by
    rintro core past buffer - undecoded - ⟨tame, same⟩
    refine ⟨(tamePast_append ..).mpr ⟨tame, List.forall_mem_singleton.mpr ?_⟩,
      mt same.mpr (not_cutsOff_of_undecoded undecoded)⟩
    intro found isFound
    rw [undecoded] at isFound
    exact absurd isFound (by simp)
  stuck := by
    rintro todo core past stuck ⟨tame, same⟩
    have whole := mt same.mpr (not_cutsOff_of_undecoded stuck.undecoded)
    have found : TamePast [.telopt me todo] := by
      refine List.forall_mem_singleton.mpr fun found isFound => ?_
      rw [stuck.undecoded] at isFound
      exact absurd isFound (by simp)
    refine ⟨⟨(tamePast_append ..).mpr ⟨tame, found⟩, whole⟩, fun obs idle =>
      ⟨(tamePast_append ..).mpr ⟨tame, List.forall_mem_cons.mpr
        ⟨found _ (List.mem_singleton_self _), fun observation shown => ?_⟩⟩,
        whole⟩⟩
    rcases idle observation shown with plain | rfl | ⟨buffer, -, -, rfl⟩
    · exact tamePast_of_plain (List.forall_mem_singleton.mpr plain) _
        (List.mem_singleton_self _)
    · exact found _ (List.mem_singleton_self _)
    · trivial
  cut := by
    rintro todo core past command size head decoded cuts ⟨-, same⟩ obs -
    refine ⟨fun tame => ?_, same.mp (.here head decoded cuts)⟩
    exact tame (.telopt me todo) (by simp) (command, size) decoded cuts

/-! ## The telnet parser -/

section Parser

variable (env : Env) (me : Nat) (core : Core) {buffer : TeloptBuffer}

/-- What the parser leaves can be read, unless a terminal type has cut off
what followed it. -/
theorem parseTelopt_extent (fits : ReadRule.Fits buffer) :
    ((parseTelopt env me).run ⟨core, buffer⟩).Ends []
      (ReadRule.LoopEnds
        (fun _ _ past => TamePast past ∧ ¬ CutsOff buffer.pending)
        (fun _ _ => CutsOff buffer.pending)
        (fun _ _ past => TamePast past ∧ ¬ CutsOff buffer.pending) buffer.bpos)
      fun _ _ past => TamePast past ∧ ¬ CutsOff buffer.pending := by
  rw [parseTelopt, Prog.run_get_bind]
  apply Prog.ends_bind
  have start : TamePast [] := by simp [TamePast]
  refine (ReadRule.teloptLoop (tame_rule env me buffer.pending) buffer.bpos
    fits (le_refl _) (Nat.lt_succ_self _) ⟨start, Iff.rfl⟩).mono ?_
    fun _ _ _ ended => ended
  rintro complete ⟨core, left⟩ past ends
  cases complete with
  | false => simpa [ReadRule.LoopEnds] using ends
  | true =>
      obtain ⟨obs, ran, follows⟩ := gotTelopt_runs env me core
      have plain := tamePast_of_plain follows.plain
      have lifted : ∃ reached, (onCore (gotTelopt env me)).run ⟨core, left⟩ =
          ⟨.ok (), ⟨reached, left⟩, obs⟩ := by
        rw [onCore, Prog.run_zoom, ran]
        exact ⟨_, rfl⟩
      obtain ⟨reached, lifted⟩ := lifted
      simp only [if_true]
      rw [Prog.run_bind_ok lifted]
      simp only [Prog.run_pure, Run.prepend_mk, Run.ends_ok, List.append_nil,
        ReadRule.LoopEnds, if_true] at ends ⊢
      rcases ends with ⟨⟨tame, same⟩, fitsLeft, bounded, front⟩ |
        ⟨⟨-, cuts⟩, empty⟩
      · exact .inl ⟨⟨(tamePast_append ..).mpr ⟨tame, plain⟩,
          mt same.mpr (not_cutsOff_of_head front)⟩, fitsLeft, bounded, front⟩
      · exact .inr ⟨cuts, empty⟩

/-- The parser returns unless it finds a sub-option that is not known. -/
theorem parseTelopt_returns (fits : ReadRule.Fits buffer) :
    (∃ complete,
        ((parseTelopt env me).run ⟨core, buffer⟩).val = .ok complete) ↔
      ¬ FindsUnknown buffer := by
  have held : Held buffer := ⟨.inl fits.inside, fits.wide⟩
  constructor
  · rintro ⟨complete, returned⟩ finds
    obtain ⟨before, reached, repeats⟩ :=
      repeats_of_findsUnknown env me core held finds
    have hangs := not_ends_of_repeats reached repeats (buffer.bpos + 1)
    rw [parseTelopt, Prog.run_get_bind, Prog.run_bind] at returned
    generalize (Prog.loop (teloptPass env me) .hang
      (buffer.bpos + 1) ()).run ⟨core, buffer⟩ = ran at hangs returned
    obtain ⟨val, left, obs⟩ := ran
    obtain rfl : val = .error .hang := hangs
    exact absurd returned (by simp)
  · exact fun known => (parsesToEnd_of_known env me core held known).returns

end Parser

/-! ## The turns of the loop -/

/-- The input is the text that the loop counts, and the telnet buffer holds
its pending bytes, with room for the rest of the input. -/
structure Honest (position : ReadPosition) (reader : Reader) : Prop where
  /-- The count is the length of the input. -/
  whole : position.len = position.input.length
  /-- The pending bytes are in the buffer. -/
  fits : ReadRule.Fits reader.buffer
  /-- All of them can be counted with an `int`. -/
  small : reader.buffer.bpos + (position.input.drop position.i).length < 2 ^ 31

/-- The bytes that are still to be read. -/
def remaining (position : ReadPosition) (reader : Reader) : Nat :=
  reader.buffer.bpos + (position.input.drop position.i).length

/-- A turn is tame and leads on to one with less than so many bytes to
read. -/
structure LeadsOn
    (limit : Nat)
    (turn : Run Abort Reader Obs (ReadPosition ⊕ Unit)) : Prop where
  /-- What is observed is tame. -/
  tame : TamePast turn.obs
  /-- The next turn has less to read. -/
  next : ∀ next, turn.val = .ok (.inl next) →
    Honest next turn.state ∧ remaining next turn.state < limit

section Turns

variable (env : Env) (me : Nat) {position : ReadPosition}

/-- The loop goes on behind an ordinary byte. -/
theorem readByte_leadsOn
    {reader : Reader}
    (honest : Honest position reader)
    (inside : position.i < position.input.length) :
    LeadsOn (remaining position reader)
      ((readByte env me position).run reader) := by
  obtain ⟨core, buffer⟩ := reader
  rw [readByte, charAt_of_lt inside, checked_ok, Prog.run_pure_bind,
    Prog.run_bind, onCore, Prog.run_zoom]
  have tame := tamePast_ordinary env me position.input[position.i]
    (position.input.drop (position.i + 1)) core
  generalize (ordinary env me position.input[position.i]
    (position.input.drop (position.i + 1))).run core = ran at tame ⊢
  obtain ⟨abort | value, reached, obs⟩ := ran
  · exact ⟨tame, fun next same => absurd same (by simp)⟩
  · refine ⟨by simpa using tame, fun next same => ?_⟩
    obtain rfl : { position with i := position.i + 1 } = next := by
      simpa using same
    have small := honest.small
    simp only [List.length_drop] at small
    refine ⟨⟨honest.whole, honest.fits, ?_⟩, ?_⟩
    · simp only [Run.prepend_state, Prog.run_pure, List.length_drop]
      omega
    · simp only [remaining, Run.prepend_state, Prog.run_pure, List.length_drop]
      omega

/-- Behind the commands there is something to read exactly when no terminal
type has cut it off. -/
theorem behind_iff
    {buffer : TeloptBuffer}
    (core : Core)
    (fits : ReadRule.Fits buffer) :
    (((parseTelopt env me).run ⟨core, buffer⟩).val = .ok true →
      ((parseTelopt env me).run ⟨core, buffer⟩).state.buffer.bpos ≠ 0 →
      0 < ((parseTelopt env me).run
        ⟨core, buffer⟩).state.buffer.pending.length) ↔
      ¬ CutsOff buffer.pending := by
  have ends := parseTelopt_extent env me core fits
  generalize (parseTelopt env me).run ⟨core, buffer⟩ = ran at ends ⊢
  obtain ⟨abort | complete, left, obs⟩ := ran
  · exact ⟨fun _ => ends.2, fun _ returned => absurd returned (by simp)⟩
  cases complete with
  | false =>
      simp only [Run.ends_ok, ReadRule.LoopEnds, Bool.false_eq_true,
        if_false] at ends
      exact ⟨fun _ => ends.1.2, fun _ returned => absurd returned (by simp)⟩
  | true =>
      simp only [Run.ends_ok, ReadRule.LoopEnds, if_true] at ends
      rcases ends with ⟨⟨-, whole⟩, fits, -, -⟩ | ⟨cuts, empty, positive, -⟩
      · rw [length_pending fits.inside]
        exact ⟨fun _ => whole, fun _ _ used => Nat.pos_of_ne_zero used⟩
      · refine ⟨fun something => ?_, fun whole => absurd cuts whole⟩
        have nothing := something rfl positive.ne'
        simp [TeloptBuffer.pending, empty] at nothing

/-- When nothing is cut off, the loop goes on behind the commands. -/
theorem afterTelopt_leadsOn
    {buffer : TeloptBuffer}
    (core : Core)
    (fits : ReadRule.Fits buffer)
    (whole : ¬ CutsOff buffer.pending) :
    LeadsOn buffer.bpos
      ((ReadRule.afterTelopt env me).run ⟨core, buffer⟩) := by
  have ends := parseTelopt_extent env me core fits
  rw [ReadRule.afterTelopt, Prog.run_bind]
  generalize (parseTelopt env me).run ⟨core, buffer⟩ = ran at ends ⊢
  obtain ⟨abort | complete, ⟨reached, left⟩, obs⟩ := ran
  · exact ⟨ends.1, fun next same => absurd same (by simp)⟩
  cases complete with
  | false =>
      simp only [Run.ends_ok, ReadRule.LoopEnds, Bool.false_eq_true,
        if_false] at ends
      refine ⟨?_, fun next same => absurd same (by simp)⟩
      simpa using ends.1.1
  | true =>
      simp only [Run.ends_ok, ReadRule.LoopEnds, if_true, List.nil_append,
        Prog.run_get_bind] at ends ⊢
      rcases ends with ⟨⟨tame, -⟩, fitsLeft, bounded, -⟩ | ⟨cuts, -⟩
      · by_cases unused : left.bpos = 0
        · rw [if_pos unused]
          exact ⟨by simpa using tame, fun next same => absurd same (by simp)⟩
        rw [if_neg unused, substrCount_of_le _ (Nat.zero_le _), checked_ok,
          Prog.run_pure_bind, Prog.run_modify_bind, List.drop_zero]
        have length := length_pending fitsLeft.inside
        simp only [TeloptBuffer.pending] at length
        have honest : Honest ⟨left.buff.take left.bpos, left.bpos, 0⟩
            ⟨reached, { left with bpos := 0 }⟩ := by
          refine ⟨length.symm, ⟨Nat.zero_le _, by simp⟩, ?_⟩
          simpa [length] using fitsLeft.small
        obtain ⟨tameByte, leadsOn⟩ :=
          readByte_leadsOn env me honest (by simp only; omega)
        refine ⟨(tamePast_append ..).mpr ⟨tame, tameByte⟩, fun next same => ?_⟩
        have on := leadsOn next same
        refine ⟨on.1, on.2.trans_le ?_⟩
        simpa [remaining, length] using bounded
      · exact absurd cuts whole

/-- A turn that parses: the rest of the input joins the pending bytes. -/
theorem readPass_parses
    {reader : Reader}
    (honest : Honest position reader)
    (parses : Parses position reader) :
    ∃ joined, ReadRule.Fits joined ∧ joined.bpos = remaining position reader ∧
      joined.pending =
        reader.buffer.pending ++ position.input.drop position.i ∧
      (bufferRest position).run reader = ⟨.ok (), ⟨reader.core, joined⟩, []⟩ ∧
      (parseRest env me position).run reader =
        (parseTelopt env me).run ⟨reader.core, joined⟩ ∧
      (readPass env me position).run reader =
        (ReadRule.afterTelopt env me).run ⟨reader.core, joined⟩ := by
  obtain ⟨core, buffer⟩ := reader
  obtain ⟨inside, buffers⟩ := parses
  have whole := honest.whole
  have inInput : position.i < position.input.length := by omega
  obtain ⟨joined, ran, pending, fits, used⟩ :=
    ReadRule.bufferRest honest.fits whole (le_of_lt inInput) honest.small core
  refine ⟨joined, fits, used, pending, ran, ?_, ?_⟩
  · rw [parseRest, Prog.run_bind_ok ran, Run.prepend_nil]
  · have turn : (readPass env me position).run ⟨core, buffer⟩ =
        (bufferRest position >>= fun _ => ReadRule.afterTelopt env me).run
          ⟨core, buffer⟩ := by
      rw [List.getD_eq_getElem?_getD, List.getElem?_eq_getElem inInput,
        Option.getD_some] at buffers
      rw [readPass, if_pos inside, Prog.run_get_bind, charAt_of_lt inInput,
        checked_ok, Prog.run_pure_bind, if_pos buffers]
      rfl
    rw [turn, Prog.run_bind_ok ran, Run.prepend_nil]

/-- A turn that does not parse reads the byte at `i`. -/
theorem readPass_reads
    {reader : Reader}
    (honest : Honest position reader)
    (inside : position.i < position.len)
    (reads : ¬ Parses position reader) :
    (readPass env me position).run reader =
      (readByte env me position).run reader := by
  have inInput : position.i < position.input.length := by
    rw [← honest.whole]
    exact inside
  have buffers : ¬ (position.input[position.i] = telcmdIAC ∨
      reader.buffer.bpos ≠ 0) := by
    intro buffers
    refine reads ⟨inside, ?_⟩
    rwa [List.getD_eq_getElem?_getD, List.getElem?_eq_getElem inInput]
  rw [readPass, if_pos inside, Prog.run_get_bind, charAt_of_lt inInput,
    checked_ok, Prog.run_pure_bind, if_neg buffers]

/-- A turn reads within its input exactly when it is handed commands that it
can deal with. -/
theorem withinTurn_iff
    {reader : Reader}
    (honest : Honest position reader) :
    WithinTurn env me position reader ↔ SparedTurn position reader := by
  have byte : position.i < position.len →
      position.i < position.input.length := by
    rw [honest.whole]
    exact id
  by_cases parses : Parses position reader
  · obtain ⟨joined, fits, -, -, buffered, parsed, -⟩ :=
      readPass_parses env me honest parses
    have returns := parseTelopt_returns env me reader.core fits
    have behind := behind_iff env me reader.core fits
    constructor
    · intro within _
      have returned := within.returns parses
      have rest := within.behind parses
      rw [parsed] at returned rest
      rw [buffered]
      exact ⟨returns.mp returned, behind.mp rest⟩
    · intro spared
      have spared := spared parses
      rw [buffered] at spared
      refine ⟨byte, fun _ => ?_, fun _ => ?_⟩
      · rw [parsed]
        exact returns.mpr spared.1
      · rw [parsed]
        exact behind.mpr spared.2
  · exact ⟨fun _ isParse => absurd isParse parses, fun _ =>
      ⟨byte, fun isParse => absurd isParse parses,
        fun isParse => absurd isParse parses⟩⟩

/-- After such a turn the loop goes on with less to read. -/
theorem readPass_leadsOn
    {reader : Reader}
    (honest : Honest position reader)
    (spared : SparedTurn position reader) :
    LeadsOn (remaining position reader)
      ((readPass env me position).run reader) := by
  by_cases parses : Parses position reader
  · obtain ⟨joined, fits, used, -, buffered, -, turn⟩ :=
      readPass_parses env me honest parses
    have whole := (spared parses).2
    rw [buffered] at whole
    rw [turn, ← used]
    exact afterTelopt_leadsOn env me reader.core fits whole
  · by_cases inside : position.i < position.len
    · rw [readPass_reads env me honest inside parses]
      exact readByte_leadsOn env me honest (honest.whole ▸ inside)
    · rw [readPass, if_neg inside, Prog.run_pure]
      exact ⟨by simp [TamePast], fun next same => absurd same (by simp)⟩

/-- Every turn reads within its input exactly when every turn is handed
commands that it can deal with. -/
theorem turns_within_iff
    {fuel : Nat}
    {reader : Reader}
    (honest : Honest position reader) :
    Prog.Turns (readPass env me) (WithinTurn env me) fuel position reader ↔
      Prog.Turns (readPass env me) SparedTurn fuel position reader := by
  induction fuel generalizing position reader with
  | zero => exact Iff.rfl
  | succ fuel inductionHypothesis =>
      rw [Prog.turns_succ, Prog.turns_succ, withinTurn_iff env me honest]
      refine and_congr_right fun spared => ?_
      have leadsOn := readPass_leadsOn env me honest spared
      exact forall_congr' fun next => imp_congr_right fun same =>
        inductionHypothesis (leadsOn.next next same).1

/-- A loop with such turns is tame. -/
theorem loop_tame
    {fuel : Nat}
    {reader : Reader}
    (honest : Honest position reader)
    (spared : Prog.Turns (readPass env me) SparedTurn fuel position reader) :
    TamePast
      ((Prog.loop (readPass env me) .hang fuel position).run reader).obs := by
  induction fuel generalizing position reader with
  | zero => simp [Prog.loop, TamePast]
  | succ fuel inductionHypothesis =>
      obtain ⟨sparedTurn, sparedRest⟩ := (Prog.turns_succ ..).mp spared
      obtain ⟨tame, leadsOn⟩ := readPass_leadsOn env me honest sparedTurn
      rw [Prog.loop, Prog.run_bind]
      generalize (readPass env me position).run reader = turn
        at tame leadsOn sparedRest ⊢
      obtain ⟨abort | next | result, reached, obs⟩ := turn
      · exact tame
      · exact (tamePast_append ..).mpr ⟨tame,
          inductionHypothesis (leadsOn next rfl).1 (sparedRest next rfl)⟩
      · simpa using tame

/-- A loop with such turns comes to its end: more turns to spare change
nothing. -/
theorem loop_spare
    {fuel : Nat}
    {reader : Reader}
    (honest : Honest position reader)
    (spared : Prog.Turns (readPass env me) SparedTurn fuel position reader)
    (enough : remaining position reader < fuel)
    (spare : Nat) :
    (Prog.loop (readPass env me) .hang (fuel + spare) position).run reader =
      (Prog.loop (readPass env me) .hang fuel position).run reader := by
  induction fuel generalizing position reader with
  | zero => exact absurd enough (Nat.not_lt_zero _)
  | succ fuel inductionHypothesis =>
      obtain ⟨sparedTurn, sparedRest⟩ := (Prog.turns_succ ..).mp spared
      obtain ⟨-, leadsOn⟩ := readPass_leadsOn env me honest sparedTurn
      rw [Nat.add_right_comm, Prog.loop, Prog.loop, Prog.run_bind,
        Prog.run_bind]
      generalize (readPass env me position).run reader = turn
        at leadsOn sparedRest ⊢
      obtain ⟨abort | next | result, reached, obs⟩ := turn
      · rfl
      · obtain ⟨honestNext, fewer⟩ := leadsOn next rfl
        have shorter : remaining next reached < fuel :=
          Nat.lt_of_lt_of_le fewer (Nat.lt_succ_iff.mp enough)
        simp only
        rw [inductionHypothesis honestNext (sparedRest next rfl) shorter]
      · rfl

end Turns

/-! ## The bytes of the packet -/

/-- What has been interpreted is what has been read, while nothing is cut
off. -/
def Interprets (all todo : Bytes) (past : List Obs) : Prop :=
  TamePast past → interpreted past ++ todo = all

/-- At an abort no more has been interpreted than there is. -/
def InterpretsStart (all : Bytes) (past : List Obs) : Prop :=
  TamePast past → interpreted past <+: all

theorem Interprets.start
    {all todo : Bytes}
    {past : List Obs}
    (interprets : Interprets all todo past) : InterpretsStart all past :=
  fun tame => ⟨todo, interprets tame⟩

theorem Interprets.append_silent
    {all todo : Bytes}
    {past more : List Obs}
    (interprets : Interprets all todo past)
    (silent : Silent more) : Interprets all todo (past ++ more) := by
  intro tame
  rw [interpreted_append, interpreted_silent silent, List.append_nil]
  exact interprets ((tamePast_append ..).mp tame).1

/-- A command that is consumed takes its bytes off the text. -/
theorem Interprets.consumed
    {all todo : Bytes}
    {past : List Obs}
    (interprets : Interprets all todo past)
    (me size : Nat)
    (buffer : TeloptBuffer) :
    Interprets all (todo.drop size)
      (past ++ [.consumed me todo size buffer]) := by
  intro tame
  rw [interpreted_append, ← interprets ((tamePast_append ..).mp tame).1]
  simp [interpreted]

/-- Passes that consume nothing take no bytes. -/
theorem Interprets.idle
    {me : Nat}
    {all todo : Bytes}
    {obs : List Obs}
    (idle : Idle me todo obs)
    {past : List Obs}
    (interprets : Interprets all todo past) :
    Interprets all todo (past ++ obs) := by
  intro tame
  have none : interpreted obs = [] := by
    rw [interpreted, List.flatMap_eq_nil_iff]
    intro observation shown
    rcases idle observation shown with plain | rfl | ⟨buffer, -, -, rfl⟩
    · cases observation <;> first | rfl | exact plain.elim
    · rfl
    · rfl
  rw [interpreted_append, none, List.append_nil]
  exact interprets ((tamePast_append ..).mp tame).1

/-- The bytes are interpreted in their order, token by token. -/
theorem interprets_rule (env : Env) (me : Nat) (all : Bytes) :
    ReadRule env me (fun todo _ => Interprets all todo)
      (fun todo _ => Interprets all todo) (fun _ past => ¬ TamePast past)
      (fun pending _ => Interprets all pending)
      (fun _ _ _ => InterpretsStart all) where
  text := by
    intro byte rest core past isText interprets
    obtain ⟨obs, ran, silent⟩ := run_ordinary_silent env me byte rest core
    have read : Interprets all rest (past ++ [.text me byte]) := by
      intro tame
      rw [interpreted_append, ← interprets ((tamePast_append ..).mp tame).1]
      simp [interpreted]
    have whole := read.append_silent silent
    rw [List.append_assoc, List.singleton_append] at whole
    rw [ran]
    cases (byteOutcome env me byte core).1 with
    | error abort => exact whole.start
    | ok value => exact whole
  enter := fun interprets => interprets
  leave := fun _ _ interprets => interprets
  command := by
    intro todo core past command size head decoded _ interprets obs after
      follows left fits
    have found : Interprets all todo (past ++ .telopt me todo :: obs) := by
      apply interprets.append_silent
      refine List.forall_mem_cons.mpr ⟨⟨rfl, rfl, by simp⟩, ?_⟩
      exact silent_of_plain follows.plain
    have consumed := found.consumed me size after
    rwa [List.append_assoc, List.cons_append] at consumed
  notice := by
    intro todo core past _ _ interprets obs follows
    exact interprets.append_silent (silent_of_plain follows.plain)
  incomplete := by
    intro core past buffer _ _ _ interprets
    exact interprets.append_silent
      (List.forall_mem_singleton.mpr ⟨rfl, rfl, by simp⟩)
  done := fun interprets => interprets
  stuck := by
    intro todo core past _ interprets
    have found : Idle me todo [.telopt me todo] :=
      List.forall_mem_singleton.mpr (.inr (.inl rfl))
    refine ⟨interprets.idle found, fun obs idle => ?_⟩
    have both : Idle me todo (.telopt me todo :: obs) :=
      List.forall_mem_cons.mpr ⟨.inr (.inl rfl), idle⟩
    exact (interprets.idle both).start
  cut := by
    intro todo core past command size _ decoded cuts _ obs _ tame
    exact tame (.telopt me todo) (by simp) (command, size) decoded cuts
  noticeLost := by
    intro core past _ wild obs _ tame
    exact wild ((tamePast_append ..).mp tame).1
  endLost := by
    intro core past wild
    exact ⟨fun tame => absurd ((tamePast_append ..).mp tame).1 wild,
      fun tame => absurd ((tamePast_append ..).mp tame).1 wild⟩

section Packet

variable (env : Env) (me : Nat) {data : Bytes} {reader : Reader}

theorem run_uRead :
    (uRead env me data).run reader =
      ((packetLoop env me data reader 0).run reader).prepend
        [.packet me reader.buffer.pending data] := rfl

/-- The loop starts with the packet as its input. -/
theorem honest_packet
    (inside : reader.buffer.bpos ≤ reader.buffer.buff.length)
    (short : data.length < maxSize)
    (small : reader.buffer.bpos + data.length < 2 ^ 31) :
    Honest ⟨getRaw data, data.length, 0⟩ reader := by
  rw [getRaw, if_neg (by omega)]
  exact ⟨rfl, ⟨inside, by omega⟩, by simpa using small⟩

/-- A packet that can be read is read. -/
theorem readsPacket_of_readable
    (nonempty : data ≠ [])
    (readable : Readable env me data reader) :
    ReadsPacket env me data reader := by
  obtain ⟨inside, short, small, spared⟩ := readable
  have honest := honest_packet inside short small
  have used : remaining ⟨getRaw data, data.length, 0⟩ reader =
      reader.buffer.bpos + data.length := by
    rw [getRaw, if_neg (by omega)]
    simp [remaining]
  have reads : ((uRead env me data).run reader).Ends []
      (fun _ => ReadRule.Done fun pending _ =>
        Interprets (reader.buffer.pending ++ data) pending)
      fun _ _ => InterpretsStart (reader.buffer.pending ++ data) := by
    refine (interprets_rule env me (reader.buffer.pending ++ data)).uRead
      honest.fits nonempty short small (fun _ => rfl) fun unused _ => ?_
    rw [ReadRule.pending_of_zero unused]
    rfl
  have tamePacket : TamePast [.packet me reader.buffer.pending data] := by
    refine List.forall_mem_singleton.mpr ⟨short, ?_⟩
    rwa [length_pending inside]
  have whole : TamePast ((uRead env me data).run reader).obs := by
    rw [run_uRead, Run.prepend_obs]
    exact (tamePast_append ..).mpr ⟨tamePacket, loop_tame env me honest spared⟩
  refine ⟨?_, fun spare => ?_, ?_, ?_, ?_⟩
  · exact (turns_within_iff env me honest).mpr spared
  · refine loop_spare env me honest spared ?_ spare
    rw [used]
    exact Nat.lt_succ_self _
  · generalize (uRead env me data).run reader = ran at reads whole ⊢
    obtain ⟨abort | value, reached, obs⟩ := ran
    · exact reads whole
    · exact reads.1.start whole
  · generalize (uRead env me data).run reader = ran at reads whole ⊢
    obtain ⟨abort | value, reached, obs⟩ := ran
    · exact fun returned => absurd returned (by simp)
    · exact fun _ => reads.1 whole
  · generalize (uRead env me data).run reader = ran at reads ⊢
    obtain ⟨abort | value, reached, obs⟩ := ran
    · exact fun returned => absurd returned (by simp)
    · exact fun _ => reads.2.inside

/-- Bytes can only join pending bytes that are in the buffer. -/
theorem inside_of_returns
    {position : ReadPosition}
    {complete : Bool}
    (returned : ((parseRest env me position).run reader).val =
      .ok complete) :
    reader.buffer.bpos ≤ reader.buffer.buff.length := by
  by_contra outside
  rw [parseRest, bufferRest, Prog.run_bind_bind, Prog.run_get_bind,
    Prog.run_bind_bind] at returned
  cases rest : substr position.input position.i with
  | error fault =>
      simp [rest] at returned
  | ok rest =>
      simp [rest, replace, outside] at returned

/-- A packet that is read can be read. -/
theorem readable_of_readsPacket
    (nonempty : data ≠ [])
    (accepted : data.length ≤ maxSize)
    (small : reader.buffer.bpos + data.length < 2 ^ 31)
    (reads : ReadsPacket env me data reader) :
    Readable env me data reader := by
  have positive := List.length_pos_of_ne_nil nonempty
  have first := ((Prog.turns_succ ..).mp reads.within).1
  have short : data.length < maxSize := by
    rcases Nat.lt_or_eq_of_le accepted with short | full
    · exact short
    · have byte := first.byte positive
      simp [getRaw, full] at byte
  have inside : reader.buffer.bpos ≤ reader.buffer.buff.length := by
    by_cases unused : reader.buffer.bpos = 0
    · omega
    · obtain ⟨complete, returned⟩ := first.returns ⟨positive, .inr unused⟩
      exact inside_of_returns env me returned
  have honest := honest_packet inside short small
  exact ⟨inside, short, small,
    (turns_within_iff env me honest).mp reads.within⟩

end Packet

/-- `User::uRead` interprets exactly the bytes of a packet and reads within
its input whenever the packet is short enough, no terminal type cuts off what
follows it and no unknown sub-option is found; below 2^31 pending bytes only
then. -/
theorem readsPacket_iff
    (env : Env)
    (me : Nat)
    (data : Bytes)
    (reader : Reader)
    (nonempty : data ≠ [])
    (accepted : data.length ≤ maxSize) :
    (Readable env me data reader → ReadsPacket env me data reader) ∧
      (reader.buffer.bpos + data.length < 2 ^ 31 →
        (ReadsPacket env me data reader ↔ Readable env me data reader)) :=
  ⟨readsPacket_of_readable env me nonempty, fun small =>
    ⟨readable_of_readsPacket env me nonempty accepted small,
      readsPacket_of_readable env me nonempty⟩⟩

theorem not_cutsOff_ayt : ¬ CutsOff [telcmdIAC, telcmdAYT, 97] := by
  have whole : ¬ Truncates [telcmdIAC, telcmdAYT, 97] .ayt 2 := by decide
  exact mt (cutsOff_drop rfl ayt_decoded whole).mpr
    (not_cutsOff_of_head (by decide))

/-- Are you there, and then text. -/
theorem readsPacket_ayt :
    ReadsPacket (Env.testing []) 0 [telcmdIAC, telcmdAYT, 97] ⟨{}, {}⟩ := by
  refine (readsPacket_iff (Env.testing []) 0 [telcmdIAC, telcmdAYT, 97]
    ⟨{}, {}⟩ (by decide) (by decide)).1 ⟨by decide, by decide, by decide, ?_⟩
  refine (Prog.turns_succ ..).mpr
    ⟨fun _ => ⟨not_findsUnknown_ayt, not_cutsOff_ayt⟩, fun next same => ?_⟩
  have turn : ((readPass (Env.testing []) 0
      ⟨[telcmdIAC, telcmdAYT, 97], 3, 0⟩).run ⟨{}, {}⟩).val =
        .ok (.inl ⟨[97], 1, 1⟩) := rfl
  obtain rfl : ⟨[97], 1, 1⟩ = next := by
    simpa using turn.symm.trans same
  refine (Prog.turns_succ ..).mpr ⟨fun parses => ?_, fun next same => ?_⟩
  · exact absurd parses.1 (by decide)
  · have ended : ∀ reader, ((readPass (Env.testing []) 0
        ⟨[97], 1, 1⟩).run reader).val = .ok (.inr ()) := fun _ => rfl
    rw [ended] at same
    exact absurd same (by simp)

/-- A packet of the greatest length is read where there is nothing. -/
theorem fullPacket_outside :
    ¬ ∀ (env : Env) (me : Nat) (data : Bytes) (reader : Reader),
      reader.buffer.bpos ≤ reader.buffer.buff.length →
      data ≠ [] → data.length ≤ maxSize → ReadsPacket env me data reader := by
  intro always
  obtain ⟨data, full⟩ : ∃ data : Bytes, data.length = maxSize :=
    ⟨List.replicate maxSize 97, List.length_replicate⟩
  have positive : 0 < data.length := by
    rw [full]
    decide
  have reads := always (Env.testing []) 0 data ⟨{}, {}⟩ (Nat.le_refl 0)
    (List.ne_nil_of_length_pos positive) full.le
  have byte := ((Prog.turns_succ ..).mp reads.within).1.byte positive
  rw [getRaw, if_pos full.ge] at byte
  exact absurd byte (Nat.not_lt_zero _)

end Common
end Lotospp
