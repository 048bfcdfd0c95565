import Mathlib.Logic.Relation
import Lotospp.Common.ReadRule

/-!
# The end of the telnet parser

Every branch of `User::parseTelopt` sets how many bytes its command takes,
except the one for a sub-option that is not known.  The loop ends after as
many passes as there are commands, unless such a sub-option comes to stand at
the front: then the same pass repeats for ever.
-/

namespace Lotospp
namespace Common

open Text Effect

/-- A pass of the parser after which the loop goes on. -/
def GoesOn (env : Env) (me : Nat) (before after : Reader) : Prop :=
  ∃ obs, (teloptPass env me ()).run before = ⟨.ok (.inl ()), after, obs⟩

/-- `User::parseTelopt` comes to its end. -/
structure ParsesToEnd (env : Env) (me : Nat) (reader : Reader) : Prop where
  /-- The loop ends after finitely many passes. -/
  ends : ∃ fuel answer,
    ((Prog.loop (teloptPass env me) .hang fuel ()).run reader).val = .ok answer
  /-- The function returns. -/
  returns : ∃ answer, ((parseTelopt env me).run reader).val = .ok answer
  /-- No pass is stopped by an exception. -/
  passes : ∀ before, Relation.ReflTransGen (GoesOn env me) reader before →
    ∃ outcome, ((teloptPass env me ()).run before).val = .ok outcome
  /-- A pass after which the loop goes on removes at least one byte, and at
  most those in use. -/
  removes : ∀ before after,
    Relation.ReflTransGen (GoesOn env me) reader before →
      GoesOn env me before after →
        ∃ size, 1 ≤ size ∧ size ≤ before.buffer.bpos ∧
          after.buffer.bpos = before.buffer.bpos - size

/-- A sub-option that is not known stands behind complete commands. -/
inductive FindsUnknown : TeloptBuffer → Prop
  /-- It stands at the front. -/
  | here {buffer : TeloptBuffer} :
      UnknownOption buffer → FindsUnknown buffer
  /-- It stands behind the first command. -/
  | behind {buffer : TeloptBuffer} {command : TeloptCommand} {size : Nat} :
      buffer.pending.head? = some telcmdIAC →
      decodeCommand buffer.pending = some (command, size) →
      FindsUnknown (buffer.after command size) →
      FindsUnknown buffer

/-- The bytes in use are in the buffer, or the buffer has been cleared by a
terminal type. -/
structure Held (buffer : TeloptBuffer) : Prop where
  inside : buffer.bpos ≤ buffer.buff.length ∨ buffer.buff = []
  wide : buffer.bpos < 2 ^ 32

theorem Held.after
    {buffer : TeloptBuffer}
    (held : Held buffer)
    (command : TeloptCommand)
    (size : Nat) : Held (buffer.after command size) where
  inside := by
    have kept : buffer.bpos - size ≤ (buffer.buff.drop size).length ∨
        buffer.buff.drop size = [] := by
      rcases held.inside with inside | empty
      · rw [List.length_drop]
        omega
      · simp [empty]
    cases command with
    | term termType =>
        simp only [TeloptBuffer.after]
        split
        · exact kept
        · exact .inr rfl
    | _ => exact kept
  wide := (Nat.sub_le ..).trans_lt held.wide

/-- A buffer that has been cleared holds no command. -/
theorem not_findsUnknown_cleared (bpos : Nat) :
    ¬ FindsUnknown ⟨[], bpos⟩ := by
  rintro (⟨-, isIAC, -⟩ | ⟨head, -, -⟩)
  · simp [telcmdIAC] at isIAC
  · simp [TeloptBuffer.pending] at head

section Known

variable (env : Env) (me : Nat) (core : Core) {buffer : TeloptBuffer}

/-- A pass that finds no unknown sub-option ends the loop or takes a command
away. -/
theorem pass_cases
    (held : Held buffer)
    (known : ¬ UnknownOption buffer) :
    (∃ answer reached obs, (teloptPass env me ()).run ⟨core, buffer⟩ =
        ⟨.ok (.inr answer), reached, obs⟩) ∨
      ∃ command size reached obs,
        buffer.pending.head? = some telcmdIAC ∧
        decodeCommand buffer.pending = some (command, size) ∧
        1 ≤ size ∧ size ≤ buffer.bpos ∧
        (teloptPass env me ()).run ⟨core, buffer⟩ =
          ⟨.ok (.inl ()), ⟨reached, buffer.after command size⟩, obs⟩ := by
  rcases held.inside with inside | empty
  · by_cases head : buffer.pending.head? = some telcmdIAC
    · by_cases stuck : Stuck buffer.pending
      · exact .inl ⟨_, _, _,
          run_teloptPass_stale env me core inside stuck known⟩
      · cases decoded : decodeCommand buffer.pending with
        | none =>
            exact .inl ⟨_, _, _, run_teloptPass_incomplete env me core inside
              held.wide head decoded stuck⟩
        | some found =>
            obtain ⟨command, size⟩ := found
            have bounds := decodeCommand_size decoded
            rw [length_pending inside] at bounds
            exact .inr ⟨command, size, _, _, head, rfl, by omega, bounds.2,
              run_teloptPass_decoded env me core inside held.wide head decoded⟩
    · exact .inl ⟨_, _, _, run_teloptPass_text env me core inside head⟩
  · obtain ⟨buff, bpos⟩ := buffer
    obtain rfl : buff = [] := empty
    rcases Nat.eq_zero_or_pos bpos with rfl | positive
    · exact .inl ⟨_, _, _,
        run_teloptPass_text env me core (Nat.le_refl 0) (by decide)⟩
    · exact .inl ⟨_, _, _, run_teloptPass_empty env me core positive⟩

/-- The loop ends after at most as many passes as there are bytes. -/
theorem loop_ends
    (held : Held buffer)
    (known : ¬ FindsUnknown buffer)
    {fuel : Nat}
    (enough : buffer.bpos < fuel) :
    ∃ answer,
      ((Prog.loop (teloptPass env me) .hang fuel ()).run
        ⟨core, buffer⟩).val = .ok answer := by
  induction fuel generalizing core buffer with
  | zero => exact absurd enough (Nat.not_lt_zero _)
  | succ fuel inductionHypothesis =>
      rw [Prog.loop]
      rcases pass_cases env me core held (fun unknown => known (.here unknown))
        with ⟨answer, reached, obs, ran⟩ |
          ⟨command, size, reached, obs, head, decoded, positive, inside, ran⟩
      · rw [Prog.run_bind_ok ran]
        exact ⟨answer, rfl⟩
      · rw [Prog.run_bind_ok ran]
        have shorter : (buffer.after command size).bpos < fuel := by
          show buffer.bpos - size < fuel
          omega
        exact inductionHypothesis reached (held.after command size)
          (fun later => known (.behind head decoded later)) shorter

/-- What every pass finds. -/
theorem held_of_goesOn
    (held : Held buffer)
    (known : ¬ FindsUnknown buffer)
    {before : Reader}
    (reached : Relation.ReflTransGen (GoesOn env me) ⟨core, buffer⟩ before) :
    Held before.buffer ∧ ¬ FindsUnknown before.buffer := by
  induction reached with
  | refl => exact ⟨held, known⟩
  | @tail before after _ goesOn inductionHypothesis =>
      obtain ⟨held, known⟩ := inductionHypothesis
      obtain ⟨obs, went⟩ := goesOn
      rcases pass_cases env me before.core held
        (fun unknown => known (.here unknown)) with
        ⟨answer, reached, obs, ran⟩ |
          ⟨command, size, reached, obs, head, decoded, -, -, ran⟩
      · rw [ran] at went
        simp at went
      · rw [ran] at went
        simp only [Run.mk.injEq, true_and] at went
        obtain ⟨rfl, -⟩ := went
        exact ⟨held.after command size,
          fun later => known (.behind head decoded later)⟩

/-- Without an unknown sub-option the parser comes to its end. -/
theorem parsesToEnd_of_known
    (held : Held buffer)
    (known : ¬ FindsUnknown buffer) :
    ParsesToEnd env me ⟨core, buffer⟩ where
  ends := ⟨_, loop_ends env me core held known (Nat.lt_succ_self _)⟩
  returns := by
    obtain ⟨answer, ended⟩ :=
      loop_ends env me core held known (Nat.lt_succ_self buffer.bpos)
    rw [parseTelopt, Prog.run_get_bind]
    generalize ran_eq : (Prog.loop (teloptPass env me) .hang
      (buffer.bpos + 1) ()).run ⟨core, buffer⟩ = ran at ended
    obtain ⟨val, ⟨reached, left⟩, obs⟩ := ran
    obtain rfl : val = .ok answer := ended
    rw [Prog.run_bind_ok ran_eq]
    cases answer with
    | false => exact ⟨false, rfl⟩
    | true =>
        obtain ⟨more, ran, -⟩ := gotTelopt_runs env me reached
        refine ⟨true, ?_⟩
        simp only [if_true, onCore, Prog.run_bind, Prog.run_zoom, ran]
        rfl
  passes before reached := by
    obtain ⟨held, known⟩ := held_of_goesOn env me core held known reached
    rcases pass_cases env me before.core held
      (fun unknown => known (.here unknown)) with
      ⟨answer, reached, obs, ran⟩ |
        ⟨command, size, reached, obs, -, -, -, -, ran⟩
    · exact ⟨_, congrArg Run.val ran⟩
    · exact ⟨_, congrArg Run.val ran⟩
  removes before after reached goesOn := by
    obtain ⟨held, known⟩ := held_of_goesOn env me core held known reached
    obtain ⟨obs, went⟩ := goesOn
    rcases pass_cases env me before.core held
      (fun unknown => known (.here unknown)) with
      ⟨answer, reached, obs, ran⟩ |
        ⟨command, size, reached, obs, -, -, positive, inside, ran⟩
    · rw [ran] at went
      simp at went
    · rw [ran] at went
      simp only [Run.mk.injEq, true_and] at went
      obtain ⟨rfl, -⟩ := went
      exact ⟨size, positive, inside, rfl⟩

end Known

/-- An unknown sub-option leads to a pass that changes nothing. -/
theorem repeats_of_findsUnknown
    (env : Env)
    (me : Nat)
    (core : Core)
    {buffer : TeloptBuffer}
    (held : Held buffer)
    (finds : FindsUnknown buffer) :
    ∃ before,
      Relation.ReflTransGen (GoesOn env me) ⟨core, buffer⟩ before ∧
        GoesOn env me before before := by
  induction finds generalizing core with
  | @here buffer unknown =>
      rcases held.inside with inside | empty
      · exact ⟨_, .refl, _,
          run_teloptPass_unknown env me core inside held.wide unknown⟩
      · obtain ⟨buff, bpos⟩ := buffer
        obtain rfl : buff = [] := empty
        exact absurd (.here unknown) (not_findsUnknown_cleared bpos)
  | @behind buffer command size head decoded later inductionHypothesis =>
      rcases held.inside with inside | empty
      · have ran := run_teloptPass_decoded env me core inside held.wide head
          decoded
        obtain ⟨before, reached, repeats⟩ :=
          inductionHypothesis (core.setUser me (command.settle env))
            (held.after command size)
        exact ⟨before, .head ⟨_, ran⟩ reached, repeats⟩
      · obtain ⟨buff, bpos⟩ := buffer
        obtain rfl : buff = [] := empty
        exact absurd (.behind head decoded later)
          (not_findsUnknown_cleared bpos)

/-- A loop with a pass that changes nothing does not end, with any number of
passes. -/
theorem not_ends_of_repeats
    {env : Env}
    {me : Nat}
    {reader before : Reader}
    (reached : Relation.ReflTransGen (GoesOn env me) reader before)
    (repeats : GoesOn env me before before)
    (fuel : Nat) :
    ((Prog.loop (teloptPass env me) .hang fuel ()).run reader).val =
      .error .hang := by
  induction fuel generalizing reader with
  | zero => rfl
  | succ fuel inductionHypothesis =>
      rw [Prog.loop]
      rcases Relation.ReflTransGen.cases_head reached with
        rfl | ⟨next, ⟨obs, ran⟩, later⟩
      · obtain ⟨obs, ran⟩ := repeats
        rw [Prog.run_bind_ok ran]
        exact inductionHypothesis reached
      · rw [Prog.run_bind_ok ran]
        exact inductionHypothesis later

/-- `User::parseTelopt` comes to its end exactly when no unknown sub-option
stands behind the complete commands at the front. -/
theorem parsesToEnd_iff
    (env : Env)
    (me : Nat)
    (reader : Reader)
    (inside : reader.buffer.bpos ≤ reader.buffer.buff.length)
    (wide : reader.buffer.bpos < 2 ^ 32) :
    ParsesToEnd env me reader ↔ ¬ FindsUnknown reader.buffer := by
  have held : Held reader.buffer := ⟨.inl inside, wide⟩
  constructor
  · intro toEnd finds
    obtain ⟨before, reached, repeats⟩ :=
      repeats_of_findsUnknown env me reader.core held finds
    obtain ⟨size, positive, inside, removed⟩ :=
      toEnd.removes before before reached repeats
    omega
  · exact parsesToEnd_of_known env me reader.core held

theorem ayt_decoded :
    decodeCommand [telcmdIAC, telcmdAYT, 97] = some (.ayt, 2) := by
  rfl

theorem not_findsUnknown_ayt :
    ¬ FindsUnknown ⟨[telcmdIAC, telcmdAYT, 97], 3⟩ := by
  rintro (unknown | ⟨-, decoded, later⟩)
  · exact absurd unknown (by decide)
  · obtain ⟨rfl, rfl⟩ : TeloptCommand.ayt = _ ∧ 2 = _ := by
      simpa [TeloptBuffer.pending, ayt_decoded] using decoded
    rcases later with unknown | ⟨head, -, -⟩
    · exact absurd unknown (by decide)
    · exact absurd head (by decide)

/-- Are you there, and then text. -/
theorem parsesToEnd_ayt :
    ParsesToEnd (Env.testing []) 0
      ⟨{}, ⟨[telcmdIAC, telcmdAYT, 97], 3⟩⟩ :=
  (parsesToEnd_iff (Env.testing []) 0
    ⟨{}, ⟨[telcmdIAC, telcmdAYT, 97], 3⟩⟩ (by decide) (by decide)).mpr
    not_findsUnknown_ayt

/-- The parser does not end on IAC SB and an option that is not known. -/
theorem unknown_option_never_ends :
    (∀ fuel,
      ((Prog.loop (teloptPass (Env.testing []) 0) .hang fuel ()).run
        ⟨{}, ⟨[telcmdIAC, telcmdSB, 1], 3⟩⟩).val = .error .hang) ∧
      ¬ ParsesToEnd (Env.testing []) 0
        ⟨{}, ⟨[telcmdIAC, telcmdSB, 1], 3⟩⟩ := by
  have held : Held ⟨[telcmdIAC, telcmdSB, 1], 3⟩ := ⟨.inl (by decide), by decide⟩
  obtain ⟨before, reached, repeats⟩ :=
    repeats_of_findsUnknown (Env.testing []) 0 {} held (.here (by decide))
  refine ⟨not_ends_of_repeats reached repeats, fun toEnd => ?_⟩
  obtain ⟨fuel, answer, ends⟩ := toEnd.ends
  rw [not_ends_of_repeats reached repeats fuel] at ends
  exact absurd ends (by simp)

end Common
end Lotospp
