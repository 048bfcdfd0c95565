import Lotospp.Common.ReadRule

/-!
# Reading token by token

`User::uRead` takes the pending bytes and the packet as one text and deals
with its tokens in turn.  `ReadRule` lists what has to be checked for a
property of the text still to be read; the bytes that an unknown sub-option
or a terminal type leaves behind are treated as the code treats them.
-/

namespace Lotospp
namespace Common

open Text Effect

/-- The command tells the terminal type. -/
def TeloptCommand.isTerm : TeloptCommand → Bool
  | .term _ => true
  | _ => false

/-- The command cuts off what follows it: a terminal type that is not empty
and not at the end. -/
def Truncates (todo : Bytes) (command : TeloptCommand) (size : Nat) : Prop :=
  command.isTerm ∧ size ≠ 6 ∧ size < todo.length

instance (todo : Bytes) (command : TeloptCommand) (size : Nat) :
    Decidable (Truncates todo command size) :=
  inferInstanceAs (Decidable (_ ∧ _ ∧ _))

/-- A sub-option that is not known is no complete command. -/
theorem Stuck.undecoded
    {bytes : Bytes}
    (stuck : Stuck bytes) : decodeCommand bytes = none := by
  obtain ⟨-, isSB, notNaws, notTerm⟩ := stuck
  rcases bytes with _ | ⟨first, _ | ⟨second, rest⟩⟩
  · rfl
  · rfl
  · have third : (first :: second :: rest)[2]? = rest.head? := by
      rw [List.head?_eq_getElem?]
      rfl
    have second_eq : second = telcmdSB := by simpa using isSB
    rw [third] at notNaws notTerm
    simp [decodeCommand, second_eq, notNaws, notTerm]

/-- Negotiation leaves the stage alone. -/
theorem TeloptCommand.stage_settle
    (env : Env)
    (command : TeloptCommand)
    (user : User) : (command.settle env user).stage = user.stage := by
  obtain ⟨cols, rows, type, flags, same, -⟩ :=
    command.settle_negotiates env user
  rw [same]

/-- No observation is a line that is handed over. -/
def NoLine (obs : List Obs) : Prop :=
  handedIn obs = []

/-- What is shown beside the commands: no line, and no look at a command. -/
def Incidental (obs : List Obs) : Prop :=
  ∀ observation ∈ obs,
    observation.Plain ∨ ∃ me todo size buffer,
      observation = .consumed me todo size buffer

theorem incidental_of_plain
    {obs : List Obs}
    (plain : ∀ observation ∈ obs, observation.Plain) : Incidental obs :=
  fun observation shown => .inl (plain observation shown)

/-- The observations of passes that consume nothing. -/
def Idle (me : Nat) (todo : Bytes) (obs : List Obs) : Prop :=
  ∀ observation ∈ obs,
    observation.Plain ∨ observation = .telopt me todo ∨
      ∃ buffer : TeloptBuffer, buffer.pending = todo ∧
        buffer.bpos ≤ buffer.buff.length ∧
        observation = .consumed me todo 0 buffer

/-- A property of the text still to be read, the state and the past survives
the commands at its front.  `lost` holds once a terminal type has cut off what
followed, `post` of the pending bytes when a command is incomplete, and `exit`
at an abort. -/
structure TeloptRule
    (env : Env)
    (me : Nat)
    (parsing : Bytes → Core → List Obs → Prop)
    (lost : Core → List Obs → Prop)
    (post : Bytes → Core → List Obs → Prop)
    (exit : Abort → Bytes → Core → List Obs → Prop) : Prop where
  /-- A complete command. -/
  command : ∀ {todo core past command size},
    todo.head? = some telcmdIAC → decodeCommand todo = some (command, size) →
    ¬ Truncates todo command size → parsing todo core past →
    ∀ obs after, Follows core obs (core.setUser me (command.settle env)) →
      after.pending = todo.drop size → after.bpos ≤ after.buff.length →
      parsing (todo.drop size) (core.setUser me (command.settle env))
        (past ++ .telopt me todo ::
          (obs ++ [.consumed me todo size after]))
  /-- The text ends in an incomplete command. -/
  incomplete : ∀ {core past} {buffer : TeloptBuffer},
    buffer.pending.head? = some telcmdIAC →
    decodeCommand buffer.pending = none → ¬ Stuck buffer.pending →
    parsing buffer.pending core past →
    post buffer.pending (core.setUser me buffer.incomplete)
      (past ++ [.telopt me buffer.pending])
  /-- The text ends in a sub-option that is not known. -/
  stuck : ∀ {todo core past}, Stuck todo → parsing todo core past →
    post todo core (past ++ [.telopt me todo]) ∧
      ∀ obs, Idle me todo obs →
        exit .hang todo core (past ++ .telopt me todo :: obs)
  /-- A terminal type cuts off what follows it. -/
  cut : ∀ {todo core past command size}, todo.head? = some telcmdIAC →
    decodeCommand todo = some (command, size) → Truncates todo command size →
    parsing todo core past →
    ∀ obs, Incidental obs →
      lost (core.setUser me (command.settle env))
        (past ++ .telopt me todo :: obs)

/-- A property of the text still to be read, the state and the past survives
the tokens; `parsing` is the property while commands are dealt with. -/
structure ReadRule
    (env : Env)
    (me : Nat)
    (inv : Bytes → Core → List Obs → Prop)
    (parsing : Bytes → Core → List Obs → Prop)
    (lost : Core → List Obs → Prop)
    (post : Bytes → Core → List Obs → Prop)
    (exit : Abort → Bytes → Core → List Obs → Prop) : Prop
    extends TeloptRule env me parsing lost post exit where
  /-- An ordinary byte. -/
  text : ∀ {byte rest core past}, byte ≠ telcmdIAC →
    inv (byte :: rest) core past →
    ((ordinary env me byte rest).run core).Ends past
      (fun _ => inv rest) fun abort => exit abort []
  /-- The telnet parser starts. -/
  enter : ∀ {todo core past}, inv todo core past → parsing todo core past
  /-- The telnet parser ends. -/
  leave : ∀ {todo core past}, todo.head? ≠ some telcmdIAC →
    (core.users me).flagsTelnet.due = false → parsing todo core past →
    inv todo core past
  /-- The telnet parser ends, and notices the end of the negotiation. -/
  notice : ∀ {todo core past}, todo.head? ≠ some telcmdIAC →
    (core.users me).flagsTelnet.due = true → parsing todo core past →
    ∀ obs, Follows core obs (core.setUser me User.noticed) →
      inv todo (core.setUser me User.noticed) (past ++ obs)
  /-- The text ends. -/
  done : ∀ {core past}, inv [] core past → post [] core past
  /-- The end of the negotiation, after something was cut off. -/
  noticeLost : ∀ {core past}, (core.users me).flagsTelnet.due = true →
    lost core past → ∀ obs, Incidental obs →
      lost (core.setUser me User.noticed) (past ++ obs)
  /-- A NUL stands for what was cut off. -/
  endLost : ∀ {core past}, lost core past →
    post [] core (past ++ [.text me 0]) ∧
      exit .undefined [] core (past ++ [.text me 0])

/-- A packet without bytes is not looked at. -/
theorem run_uRead_nil (env : Env) (me : Nat) (reader : Reader) :
    (uRead env me []).run reader =
      ⟨.ok (), reader, [.packet me reader.buffer.pending []]⟩ := by
  rw [uRead, Prog.run_get_bind, Prog.run_emit_bind, Prog.loop, readPass]
  rfl

namespace ReadRule

variable {env : Env} {me : Nat}
variable {inv parsing : Bytes → Core → List Obs → Prop}
variable {lost : Core → List Obs → Prop}
variable {post : Bytes → Core → List Obs → Prop}
variable {exit : Abort → Bytes → Core → List Obs → Prop}

/-- The buffer holds its pending bytes, and can be counted. -/
structure Fits (buffer : TeloptBuffer) : Prop where
  /-- The pending bytes are in the buffer. -/
  inside : buffer.bpos ≤ buffer.buff.length
  /-- They can be counted with an `int`. -/
  small : buffer.bpos < 2 ^ 31

theorem Fits.wide {buffer : TeloptBuffer} (fits : Fits buffer) :
    buffer.bpos < 2 ^ 32 :=
  fits.small.trans (by decide)

/-- No command stands at the front any more, or something has been cut
off. -/
def Parsed
    (inv : Bytes → Core → List Obs → Prop)
    (lost : Core → List Obs → Prop)
    (limit : Nat)
    (reader : Reader)
    (past : List Obs) : Prop :=
  (inv reader.buffer.pending reader.core past ∧ Fits reader.buffer ∧
      reader.buffer.bpos ≤ limit ∧
      reader.buffer.pending.head? ≠ some telcmdIAC) ∨
    (lost reader.core past ∧ reader.buffer.buff = [] ∧
      0 < reader.buffer.bpos ∧ reader.buffer.bpos < 2 ^ 31)

/-- How the loop of `User::parseTelopt` ends. -/
def LoopEnds
    (inv : Bytes → Core → List Obs → Prop)
    (lost : Core → List Obs → Prop)
    (post : Bytes → Core → List Obs → Prop)
    (limit : Nat)
    (complete : Bool)
    (reader : Reader)
    (past : List Obs) : Prop :=
  if complete then Parsed inv lost limit reader past
  else post reader.buffer.pending reader.core past ∧ Fits reader.buffer

theorem noLine_iff (obs : List Obs) :
    NoLine obs ↔ ∀ observation ∈ obs, ∀ line, observation ≠ .handed line := by
  rw [NoLine, handedIn, List.filterMap_eq_nil_iff]
  refine forall_congr' fun observation => forall_congr' fun _ => ?_
  cases observation <;> simp

theorem noLine_of_idle
    {todo : Bytes}
    {obs : List Obs}
    (idle : Idle me todo obs) : NoLine obs := by
  rw [noLine_iff]
  rintro observation shown line rfl
  rcases idle _ shown with plain | same | ⟨buffer, -, -, same⟩
  · exact plain
  · exact absurd same (by simp)
  · exact absurd same (by simp)

theorem noLine_of_incidental
    {obs : List Obs}
    (incidental : Incidental obs) : NoLine obs := by
  rw [noLine_iff]
  rintro observation shown line rfl
  rcases incidental _ shown with plain | ⟨me, todo, size, buffer, same⟩
  · exact plain
  · exact absurd same (by simp)

/-- What is left of the buffer behind a command that cuts nothing off. -/
theorem pending_after
    {buffer : TeloptBuffer}
    (fits : Fits buffer)
    {command : TeloptCommand}
    {size : Nat}
    (inside : size ≤ buffer.bpos)
    (whole : ¬ Truncates buffer.pending command size) :
    (buffer.after command size).pending = buffer.pending.drop size ∧
      Fits (buffer.after command size) ∧
      (buffer.after command size).bpos = buffer.bpos - size := by
  have length := length_pending fits.inside
  have small := fits.small
  have kept : ∀ buff, buff = buffer.buff.drop size →
      TeloptBuffer.pending ⟨buff, buffer.bpos - size⟩ =
          buffer.pending.drop size ∧
        Fits ⟨buff, buffer.bpos - size⟩ := by
    rintro buff rfl
    have room := fits.inside
    refine ⟨by simp [TeloptBuffer.pending, List.drop_take], ?_, ?_⟩
    · simp only [List.length_drop]
      omega
    · show buffer.bpos - size < 2 ^ 31
      omega
  cases command with
  | term termType =>
      by_cases six : size = 6
      · have result := kept (buffer.buff.drop size) rfl
        simp only [TeloptBuffer.after, six, if_true] at result ⊢
        exact ⟨result.1, result.2, trivial⟩
      · have all : size = buffer.bpos := by
          by_contra less
          exact whole ⟨rfl, six, by omega⟩
        subst all
        refine ⟨?_, ⟨?_, ?_⟩, rfl⟩
        · simp [TeloptBuffer.after, TeloptBuffer.pending, six]
        · simp [TeloptBuffer.after, six]
        · simp [TeloptBuffer.after]
  | option command code =>
      exact ⟨(kept _ rfl).1, (kept _ rfl).2, rfl⟩
  | naws cols rows corrupt =>
      exact ⟨(kept _ rfl).1, (kept _ rfl).2, rfl⟩
  | corruptTerm => exact ⟨(kept _ rfl).1, (kept _ rfl).2, rfl⟩
  | ayt => exact ⟨(kept _ rfl).1, (kept _ rfl).2, rfl⟩
  | iac => exact ⟨(kept _ rfl).1, (kept _ rfl).2, rfl⟩
  | other => exact ⟨(kept _ rfl).1, (kept _ rfl).2, rfl⟩

/-- The loop of `User::parseTelopt` deals with the commands at the front. -/
theorem teloptLoop
    (rule : TeloptRule env me parsing lost post exit)
    (limit : Nat)
    {fuel : Nat}
    {buffer : TeloptBuffer}
    {core : Core}
    {past : List Obs}
    (fits : Fits buffer)
    (bounded : buffer.bpos ≤ limit)
    (enough : buffer.bpos < fuel)
    (start : parsing buffer.pending core past) :
    ((Prog.loop (teloptPass env me) .hang fuel ()).run ⟨core, buffer⟩).Ends
      past (LoopEnds parsing lost post limit)
      fun abort reader => exit abort reader.buffer.pending reader.core := by
  generalize length_eq : buffer.bpos = length at enough
  induction length using Nat.strongRecOn generalizing fuel buffer core past with
  | ind length inductionHypothesis =>
      subst length_eq
      obtain ⟨fuel, rfl⟩ : ∃ less, fuel = less + 1 := ⟨fuel - 1, by omega⟩
      have pendingLength := length_pending fits.inside
      rw [Prog.loop]
      by_cases front : buffer.pending.head? = some telcmdIAC
      · by_cases isStuck : Stuck buffer.pending
        · obtain ⟨ends, hangs⟩ := rule.stuck isStuck start
          rcases run_teloptPass_stuck env me core fits.inside fits.wide
            isStuck with ran | ⟨obs, follows, ran⟩
          · rw [Prog.run_bind_ok ran]
            exact ⟨ends, fits⟩
          · obtain ⟨more, inside, repeats⟩ :=
              Prog.run_loop_stuck ran .hang fuel
            rw [Prog.run_bind_ok ran]
            simp only [repeats, Run.prepend_mk, Run.ends_error]
            apply hangs _
            have idle : Idle me buffer.pending (.telopt me buffer.pending ::
                (obs ++ [.consumed me buffer.pending 0 buffer])) := by
              intro observation shown
              simp only [List.mem_cons, List.mem_append, List.not_mem_nil,
                or_false] at shown
              rcases shown with rfl | shown | rfl
              · exact .inr (.inl rfl)
              · exact .inl (follows.plain observation shown)
              · exact .inr (.inr ⟨buffer, rfl, fits.inside, rfl⟩)
            intro observation shown
            rcases List.mem_append.mp shown with shown | shown
            · exact idle observation (List.mem_cons_of_mem _ shown)
            · exact idle observation (inside observation shown)
        · cases decoded : decodeCommand buffer.pending with
          | none =>
              rw [Prog.run_bind_ok (run_teloptPass_incomplete env me core
                fits.inside fits.wide front decoded isStuck)]
              exact ⟨rule.incomplete front decoded isStuck start, fits⟩
          | some found =>
              obtain ⟨command, size⟩ := found
              have bounds := decodeCommand_size decoded
              obtain ⟨obs, follows, ran⟩ := run_teloptPass_command env me core
                fits.inside fits.small front decoded
              rw [Prog.run_bind_ok ran, Run.ends_prepend]
              by_cases cuts : Truncates buffer.pending command size
              · obtain ⟨less, rfl⟩ : ∃ less, fuel = less + 1 :=
                  ⟨fuel - 1, by omega⟩
                obtain ⟨isTerm, notSix, inside⟩ := cuts
                have after : buffer.after command size =
                    ⟨[], buffer.bpos - size⟩ := by
                  cases command <;>
                    simp_all [TeloptBuffer.after, TeloptCommand.isTerm]
                simp only [after]
                rw [Prog.loop, Prog.run_bind_ok
                  (run_teloptPass_empty env me _ (by omega))]
                refine .inr ⟨?_, rfl, ?_, ?_⟩
                · have incidental : Incidental (obs ++
                      [.consumed me buffer.pending size
                        ⟨[], buffer.bpos - size⟩]) := by
                    refine List.forall_mem_append.mpr
                      ⟨incidental_of_plain follows.plain, fun _ shown => ?_⟩
                    exact .inr ⟨_, _, _, _, List.mem_singleton.mp shown⟩
                  have gone := rule.cut front decoded
                    ⟨isTerm, notSix, inside⟩ start _ incidental
                  simpa using gone
                · show 0 < buffer.bpos - size
                  omega
                · have small := fits.small
                  show buffer.bpos - size < 2 ^ 31
                  omega
              · obtain ⟨pendingAfter, fitsAfter, bposAfter⟩ :=
                  pending_after fits (by omega) cuts
                refine inductionHypothesis (buffer.bpos - size) (by omega)
                  fitsAfter (by omega) ?_ bposAfter (by omega)
                rw [pendingAfter]
                exact rule.command front decoded cuts start obs _ follows
                  pendingAfter fitsAfter.inside
      · rw [Prog.run_bind_ok (run_teloptPass_text env me core fits.inside
          front)]
        have parsed : Parsed parsing lost limit ⟨core, buffer⟩ past :=
          .inl ⟨start, fits, bounded, front⟩
        simpa [LoopEnds] using parsed

section Loop

variable (rule : ReadRule env me inv parsing lost post exit)
include rule

/-- `User::parseTelopt` also notices the end of the negotiation. -/
theorem parseTelopt
    {buffer : TeloptBuffer}
    {core : Core}
    {past : List Obs}
    (fits : Fits buffer)
    (start : parsing buffer.pending core past) :
    ((Common.parseTelopt env me).run ⟨core, buffer⟩).Ends past
      (LoopEnds inv lost post buffer.bpos)
      fun abort reader => exit abort reader.buffer.pending reader.core := by
  rw [Common.parseTelopt, Prog.run_get_bind]
  apply Prog.ends_bind
  refine (teloptLoop rule.toTeloptRule buffer.bpos fits (le_refl _)
    (Nat.lt_succ_self _) start).mono ?_ fun _ _ _ ended => ended
  rintro complete ⟨core, buffer⟩ past ends
  cases complete with
  | false => simpa [LoopEnds] using ends
  | true =>
      simp only [LoopEnds, if_true] at ends
      by_cases due : (core.users me).flagsTelnet.due = true
      · obtain ⟨obs, ran, follows⟩ := gotTelopt_runs env me core
        simp only [due, if_true] at ran follows
        have lifted : (onCore (gotTelopt env me)).run ⟨core, buffer⟩ =
            ⟨.ok (), ⟨core.setUser me User.noticed, buffer⟩, obs⟩ := by
          rw [onCore, Prog.run_zoom, ran]
        simp only [if_true]
        rw [Prog.run_bind_ok lifted]
        simp only [Prog.run_pure, Run.prepend_mk, Run.ends_ok, List.append_nil,
          LoopEnds, if_true]
        rcases ends with ⟨holds, fits, bounded, front⟩ |
          ⟨gone, empty, positive, small⟩
        · exact .inl ⟨rule.notice front due holds obs follows, fits, bounded,
            front⟩
        · exact .inr ⟨rule.noticeLost due gone obs
            (incidental_of_plain follows.plain), empty, positive, small⟩
      · have lifted : (onCore (gotTelopt env me)).run ⟨core, buffer⟩ =
            ⟨.ok (), ⟨core, buffer⟩, []⟩ := by
          simp [onCore, Prog.run_zoom, gotTelopt, due]
        simp only [if_true]
        rw [Prog.run_bind_ok lifted]
        simp only [Prog.run_pure, Run.prepend_mk, Run.ends_ok, List.append_nil,
          LoopEnds, if_true]
        rcases ends with ⟨holds, fits, bounded, front⟩ | gone
        · exact .inl ⟨rule.leave front (by simpa using due) holds, fits,
            bounded, front⟩
        · exact .inr gone

/-- How `User::uRead` ends. -/
def Done
    (post : Bytes → Core → List Obs → Prop)
    (reader : Reader)
    (past : List Obs) : Prop :=
  post reader.buffer.pending reader.core past ∧ Fits reader.buffer

/-- Between two turns of the loop of `User::uRead` at most so many bytes of
the text are still to be read; or they have been cut off. -/
def Reading
    (inv : Bytes → Core → List Obs → Prop)
    (post : Bytes → Core → List Obs → Prop)
    (exit : Abort → Bytes → Core → List Obs → Prop)
    (limit : Nat)
    (position : ReadPosition)
    (reader : Reader)
    (past : List Obs) : Prop :=
  reader.buffer.bpos = 0 ∧
    ((position.len = position.input.length ∧
        position.input.length < 2 ^ 31 ∧
        (position.input.drop position.i).length ≤ limit ∧
        inv (position.input.drop position.i) reader.core past) ∨
      (position.input = [] ∧ position.i = 1 ∧ post [] reader.core past ∧
        exit .undefined [] reader.core past))

omit rule in
theorem pending_of_zero
    {buffer : TeloptBuffer}
    (unused : buffer.bpos = 0) : buffer.pending = [] := by
  simp [TeloptBuffer.pending, unused]

omit rule in
theorem done_of_zero
    {reader : Reader}
    {past : List Obs}
    (unused : reader.buffer.bpos = 0)
    (ends : post [] reader.core past) : Done post reader past := by
  refine ⟨?_, ?_, ?_⟩
  · rwa [pending_of_zero unused]
  · omega
  · omega

/-- An ordinary byte is dealt with. -/
theorem readByte
    (position : ReadPosition)
    (buffer : TeloptBuffer)
    {core : Core}
    {past : List Obs}
    (unused : buffer.bpos = 0)
    (whole : position.len = position.input.length)
    (small : position.input.length < 2 ^ 31)
    {byte : UInt8}
    {rest : Bytes}
    (front : position.input.drop position.i = byte :: rest)
    (isText : byte ≠ telcmdIAC)
    (start : inv (byte :: rest) core past) :
    ((Common.readByte env me position).run ⟨core, buffer⟩).Ends past
      (fun answer reader past => ∃ next, answer = .inl next ∧
        Reading inv post exit rest.length next reader past)
      fun abort reader => exit abort reader.buffer.pending reader.core := by
  have inside : position.i < position.input.length := by
    by_contra outside
    rw [List.drop_eq_nil_of_le (by omega)] at front
    exact absurd front (by simp)
  have parts := List.drop_eq_getElem_cons inside
  rw [front, List.cons.injEq] at parts
  have reads : charAt position.input position.i = .ok byte := by
    rw [charAt_of_lt inside, ← parts.1]
  rw [Common.readByte, reads, checked_ok, Prog.run_pure_bind, ← parts.2]
  apply Prog.ends_bind
  have read := rule.text isText start
  rw [onCore, Prog.run_zoom]
  generalize (ordinary env me byte rest).run core = ran at read
  obtain ⟨abort | value, reached, obs⟩ := ran
  · simpa [pending_of_zero unused] using read
  · refine ⟨{ position with i := position.i + 1 }, rfl, unused, .inl ⟨whole,
      small, ?_, ?_⟩⟩
    · rw [← parts.2]
    · simpa [← parts.2] using read

end Loop

/-- What a turn of the loop of `User::uRead` does once the rest of the text is
in the telnet buffer. -/
def afterTelopt (env : Env) (me : Nat) : ReadM (ReadPosition ⊕ Unit) := do
  if ← Common.parseTelopt env me then do
    let reader ← Prog.get
    if reader.buffer.bpos = 0 then pure (.inr ())
    else do
      let input ← checked
        (substrCount reader.buffer.buff 0 reader.buffer.bpos)
      Prog.modify fun reader =>
        { reader with buffer := { reader.buffer with bpos := 0 } }
      Common.readByte env me ⟨input, reader.buffer.bpos, 0⟩
  else pure (.inr ())

/-- A NUL in place of what was cut off. -/
theorem run_ordinary_nul (env : Env) (me : Nat) (core : Core) :
    (ordinary env me 0 []).run core = ⟨.ok (), core, [.text me 0]⟩ := by
  rw [ordinary, Prog.run_emit_bind, run_user_bind]
  have notCr : ¬ (0 : UInt8) = cr := by decide
  by_cases isNew : (core.users me).stage = .new
  · simp [isNew]
  · simp [isNew, notCr]

/-- The turn that reads from nothing. -/
theorem run_readByte_lost (env : Env) (me : Nat) (core : Core) (len : Nat) :
    (Common.readByte env me ⟨[], len, 0⟩).run ⟨core, ⟨[], 0⟩⟩ =
      ⟨.ok (.inl ⟨[], len, 1⟩), ⟨core, ⟨[], 0⟩⟩, [.text me 0]⟩ := by
  have lifted : (onCore (ordinary env me 0 [])).run ⟨core, ⟨[], 0⟩⟩ =
      ⟨.ok (), ⟨core, ⟨[], 0⟩⟩, [.text me 0]⟩ := by
    rw [onCore, Prog.run_zoom, run_ordinary_nul]
  rw [Common.readByte, charAt_of_le (Nat.zero_le _), checked_ok,
    Prog.run_pure_bind]
  exact Prog.run_bind_ok lifted _

section Read

variable (rule : ReadRule env me inv parsing lost post exit)
include rule

/-- A turn continues behind the commands. -/
theorem readRest
    {buffer : TeloptBuffer}
    {core : Core}
    {past : List Obs}
    (fits : Fits buffer)
    (positive : 0 < buffer.bpos)
    (start : parsing buffer.pending core past) :
    ((afterTelopt env me).run ⟨core, buffer⟩).Ends past
      (fun answer reader past => match answer with
        | .inl next => ∃ less < buffer.bpos,
            Reading inv post exit less next reader past
        | .inr _ => Done post reader past)
      fun abort reader => exit abort reader.buffer.pending reader.core := by
  apply Prog.ends_bind
  refine (rule.parseTelopt fits start).mono ?_ fun _ _ _ ended => ended
  rintro complete ⟨core, left⟩ past ends
  cases complete with
  | false => simpa [LoopEnds, Done] using ends
  | true =>
      simp only [LoopEnds, if_true] at ends ⊢
      rw [Prog.run_get_bind]
      rcases ends with ⟨holds, fitsLeft, bounded, front⟩ |
        ⟨gone, empty, positiveLeft, small⟩
      · simp only at holds fitsLeft bounded front ⊢
        by_cases unused : left.bpos = 0
        · rw [if_pos unused, Prog.run_pure, Run.ends_ok, List.append_nil]
          rw [pending_of_zero unused] at holds
          exact done_of_zero unused (rule.done holds)
        · rw [if_neg unused, substrCount_of_le _ (Nat.zero_le _), checked_ok,
            Prog.run_pure_bind, Prog.run_modify_bind, List.drop_zero]
          have length := length_pending fitsLeft.inside
          obtain ⟨byte, rest, parts⟩ : ∃ byte rest,
              left.pending = byte :: rest := by
            refine List.exists_cons_of_ne_nil fun nothing => ?_
            rw [nothing] at length
            exact unused length.symm
          have isText : byte ≠ telcmdIAC := by
            rintro rfl
            exact front (by rw [parts]; rfl)
          rw [parts] at holds
          have counted : left.pending.length < 2 ^ 31 := by
            rw [length]
            exact fitsLeft.small
          have reads := rule.readByte ⟨left.pending, left.bpos, 0⟩
            { left with bpos := 0 } rfl length.symm counted parts isText holds
          refine Run.Ends.mono reads ?_ fun _ _ _ ended => ended
          rintro answer reader past ⟨next, rfl, reading⟩
          refine ⟨rest.length, ?_, reading⟩
          rw [parts, List.length_cons] at length
          omega
      · obtain ⟨buff, bpos⟩ := left
        simp only at gone empty positiveLeft ⊢
        subst empty
        obtain ⟨ends, aborts⟩ := rule.endLost gone
        rw [if_neg (by omega), substrCount_of_le _ (Nat.zero_le _), checked_ok,
          Prog.run_pure_bind, Prog.run_modify_bind]
        simp only [List.drop_nil, List.take_nil]
        rw [run_readByte_lost]
        exact ⟨0, positive, rfl, .inr ⟨rfl, rfl, ends, aborts⟩⟩

omit rule in
/-- What is left to read joins the pending bytes. -/
theorem bufferRest
    {position : ReadPosition}
    {buffer : TeloptBuffer}
    (fits : Fits buffer)
    (whole : position.len = position.input.length)
    (inside : position.i ≤ position.input.length)
    (small : buffer.bpos + (position.input.drop position.i).length < 2 ^ 31)
    (core : Core) :
    ∃ joined : TeloptBuffer,
      (Common.bufferRest position).run ⟨core, buffer⟩ =
          ⟨.ok (), ⟨core, joined⟩, []⟩ ∧
        joined.pending =
          buffer.pending ++ position.input.drop position.i ∧
        Fits joined ∧
        joined.bpos =
          buffer.bpos + (position.input.drop position.i).length := by
  have room := fits.inside
  have remain : position.len - position.i =
      (position.input.drop position.i).length := by
    rw [whole, List.length_drop]
  have counted : ¬ (position.input.drop position.i).length + buffer.bpos >
      stringMaxSize := by
    unfold stringMaxSize
    omega
  have wraps : (buffer.bpos + (position.input.drop position.i).length) %
      2 ^ 32 = buffer.bpos + (position.input.drop position.i).length :=
    Nat.mod_eq_of_lt (by omega)
  refine ⟨⟨buffer.buff.take buffer.bpos ++ position.input.drop position.i ++
      buffer.buff.drop
        (buffer.bpos + (position.input.drop position.i).length),
    buffer.bpos + (position.input.drop position.i).length⟩, ?_, ?_, ⟨?_, ?_⟩,
    rfl⟩
  · rw [Common.bufferRest, Prog.run_get_bind, remain]
    simp only [counted, if_false]
    rw [substr_of_le inside, checked_ok, Prog.run_pure_bind,
      replace_of_le _ _ room, checked_ok, Prog.run_pure_bind, wraps]
    rfl
  · have split : (buffer.buff.take buffer.bpos).length = buffer.bpos :=
      List.length_take_of_le room
    simp only [TeloptBuffer.pending]
    rw [List.take_left' (by rw [List.length_append, split])]
  · simp only [List.length_append, List.length_take]
    omega
  · exact small

/-- A turn that puts the rest of the text into the telnet buffer. -/
theorem readBuffered
    (position : ReadPosition)
    {buffer : TeloptBuffer}
    {core : Core}
    {past : List Obs}
    (fits : Fits buffer)
    (whole : position.len = position.input.length)
    (inside : position.i < position.input.length)
    (small : buffer.bpos + (position.input.drop position.i).length < 2 ^ 31)
    (buffers : position.input[position.i] = telcmdIAC ∨ buffer.bpos ≠ 0)
    (start : parsing (buffer.pending ++ position.input.drop position.i) core
      past) :
    ((Common.readPass env me position).run ⟨core, buffer⟩).Ends past
      (fun answer reader past => match answer with
        | .inl next =>
            ∃ less < buffer.bpos + (position.input.drop position.i).length,
              Reading inv post exit less next reader past
        | .inr _ => Done post reader past)
      fun abort reader => exit abort reader.buffer.pending reader.core := by
  obtain ⟨joined, ran, pendingJoined, fitsJoined, bposJoined⟩ :=
    bufferRest fits whole (le_of_lt inside) small core
  have turn : (Common.readPass env me position).run ⟨core, buffer⟩ =
      (Common.bufferRest position >>= fun _ => afterTelopt env me).run
        ⟨core, buffer⟩ := by
    rw [Common.readPass, if_pos (by omega), Prog.run_get_bind,
      charAt_of_lt inside, checked_ok, Prog.run_pure_bind, if_pos buffers]
    rfl
  have rest : 0 < (position.input.drop position.i).length := by
    rw [List.length_drop]
    omega
  rw [turn, Prog.run_bind_ok ran, Run.ends_prepend, List.append_nil,
    ← bposJoined]
  exact rule.readRest fitsJoined (by omega) (by rwa [pendingJoined])

/-- A turn of the loop of `User::uRead`. -/
theorem readPass
    {limit : Nat}
    {position : ReadPosition}
    {reader : Reader}
    {past : List Obs}
    (reading : Reading inv post exit limit position reader past) :
    ((Common.readPass env me position).run reader).Ends past
      (fun answer reader past => match answer with
        | .inl next => ∃ less < limit,
            Reading inv post exit less next reader past
        | .inr _ => Done post reader past)
      fun abort reader => exit abort reader.buffer.pending reader.core := by
  obtain ⟨core, buffer⟩ := reader
  obtain ⟨unused, ⟨whole, small, bounded, holds⟩ |
    ⟨empty, first, ends, aborts⟩⟩ := reading
  · simp only at unused holds
    by_cases inside : position.i < position.input.length
    · have parts := List.drop_eq_getElem_cons inside
      have fits : Fits buffer := ⟨by omega, by omega⟩
      by_cases isIAC : position.input[position.i] = telcmdIAC
      · refine (rule.readBuffered position fits whole inside ?_
          (.inl isIAC) ?_).mono ?_ fun _ _ _ ended => ended
        · rw [List.length_drop]
          omega
        · rw [pending_of_zero unused]
          exact rule.enter holds
        · rintro (next | result) reader past ended
          · obtain ⟨less, fewer, reading⟩ := ended
            exact ⟨less, by omega, reading⟩
          · exact ended
      · have turn : (Common.readPass env me position).run ⟨core, buffer⟩ =
            (Common.readByte env me position).run ⟨core, buffer⟩ := by
          rw [Common.readPass, if_pos (by omega), Prog.run_get_bind,
            charAt_of_lt inside, checked_ok, Prog.run_pure_bind, if_neg]
          simp [isIAC, unused]
        rw [turn]
        rw [parts] at holds
        refine (rule.readByte position buffer unused whole small parts isIAC
          holds).mono ?_ fun _ _ _ ended => ended
        rintro answer reader past ⟨next, rfl, reading⟩
        refine ⟨_, ?_, reading⟩
        rw [parts, List.length_cons] at bounded
        omega
    · rw [Common.readPass, if_neg (by omega)]
      rw [List.drop_eq_nil_of_le (by omega)] at holds
      exact done_of_zero unused (by simpa using rule.done holds)
  · simp only at unused ends aborts
    rw [Common.readPass]
    split
    · rw [Prog.run_get_bind, empty, first]
      have outside : charAt [] 1 = .error .undefined := rfl
      rw [outside, checked_error, Prog.run_raise_bind]
      simpa [pending_of_zero unused, Abort.ofFault] using aborts
    · exact done_of_zero unused (by simpa using ends)

/-- The loop of `User::uRead`. -/
theorem readLoop
    (limit : Nat)
    {fuel : Nat}
    {position : ReadPosition}
    {reader : Reader}
    {past : List Obs}
    (enough : limit < fuel)
    (reading : Reading inv post exit limit position reader past) :
    ((Prog.loop (Common.readPass env me) .hang fuel position).run reader).Ends
      past (fun _ => Done post)
      fun abort reader => exit abort reader.buffer.pending reader.core := by
  induction limit using Nat.strongRecOn
    generalizing fuel position reader past with
  | ind limit inductionHypothesis =>
      obtain ⟨fuel, rfl⟩ : ∃ less, fuel = less + 1 := ⟨fuel - 1, by omega⟩
      rw [Prog.loop]
      apply Prog.ends_bind
      refine (rule.readPass reading).mono ?_ fun _ _ _ ended => ended
      rintro (next | result) reader past ended
      · obtain ⟨less, fewer, reading⟩ := ended
        exact inductionHypothesis less fewer (by omega) reading
      · simpa using ended

/-- A packet is read to its end. -/
theorem uRead
    {buffer : TeloptBuffer}
    {core : Core}
    {past : List Obs}
    {data : Bytes}
    (fits : Fits buffer)
    (nonempty : data ≠ [])
    (short : data.length < maxSize)
    (small : buffer.bpos + data.length < 2 ^ 31)
    (start : parsing (buffer.pending ++ data) core
      (past ++ [.packet me buffer.pending data]))
    (startText : buffer.bpos = 0 →
      inv data core (past ++ [.packet me [] data])) :
    ((Common.uRead env me data).run ⟨core, buffer⟩).Ends past
      (fun _ => Done post)
      fun abort reader => exit abort reader.buffer.pending reader.core := by
  have raw : getRaw data = data := by
    rw [getRaw, if_neg (by omega)]
  rw [Common.uRead, Prog.run_get_bind, Prog.run_emit_bind, Run.ends_prepend,
    raw]
  by_cases unused : buffer.bpos = 0
  · refine rule.readLoop data.length (by simp only; omega)
      ⟨unused, .inl ⟨rfl, ?_, ?_, ?_⟩⟩
    · show data.length < 2 ^ 31
      omega
    · simp
    · simpa [pending_of_zero unused] using startText unused
  · rw [Prog.loop]
    apply Prog.ends_bind
    have positive := List.length_pos_of_ne_nil nonempty
    refine (rule.readBuffered ⟨data, data.length, 0⟩ fits rfl
      positive (by simpa using small) (.inr unused)
      (by simpa using start)).mono ?_ fun _ _ _ ended => ended
    rintro (next | result) reader past ended
    · obtain ⟨less, fewer, reading⟩ := ended
      refine rule.readLoop less ?_ reading
      simpa using fewer
    · simpa using ended

/-- A packet is read, as long as what has been observed is allowed, and
packets are only allowed when they can be read and counted. -/
theorem uRead_while
    (allowed : List Obs → Prop)
    (closed : ∀ {past more}, allowed (past ++ more) → allowed past)
    {reader : Reader}
    {past : List Obs}
    {data : Bytes}
    (counted : allowed (past ++ [.packet me reader.buffer.pending data]) →
      data.length < maxSize ∧
        reader.buffer.pending.length + data.length < 2 ^ 31)
    (fits : allowed past → Fits reader.buffer)
    (start : allowed past →
      parsing (reader.buffer.pending ++ data) reader.core
        (past ++ [.packet me reader.buffer.pending data]))
    (startText : allowed past → reader.buffer.pending = [] →
      inv data reader.core (past ++ [.packet me [] data]))
    (startNone : allowed past → data = [] →
      post reader.buffer.pending reader.core
        (past ++ [.packet me reader.buffer.pending data])) :
    ((Common.uRead env me data).run reader).Ends past
      (fun _ reader past => allowed past → Done post reader past)
      fun abort reader past =>
        allowed past → exit abort reader.buffer.pending reader.core past := by
  by_cases allows : allowed
      (past ++ [.packet me reader.buffer.pending data])
  · have before := closed allows
    obtain ⟨short, small⟩ := counted allows
    rw [length_pending (fits before).inside] at small
    by_cases empty : data = []
    · have ends := startNone before empty
      subst empty
      rw [run_uRead_nil]
      exact fun _ => ⟨ends, fits before⟩
    · refine (rule.uRead (fits before) empty short small (start before)
        fun unused => startText before (pending_of_zero unused)).mono ?_ ?_
      · exact fun _ _ _ ends _ => ends
      · exact fun _ _ _ ended _ => ended
  · rw [Common.uRead, Prog.run_get_bind, Prog.run_emit_bind, Run.ends_prepend]
    apply Run.ends_of_forall _ ?_
    · exact fun _ _ more after => absurd (closed after) allows
    · exact fun _ _ more after => absurd (closed after) allows

end Read

end ReadRule

end Common
end Lotospp
