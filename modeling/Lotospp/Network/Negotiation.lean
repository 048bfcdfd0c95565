import Lotospp.Common.ReadTokens
import Lotospp.Network.Server

/-!
# The end of the telnet negotiation

`User::parseTelopt` leads to the name entry as soon as all four options are
known, whatever the session is doing.  `Completes` says of the bytes received
that this is going to happen.
-/

namespace Lotospp
namespace Network

open Text Effect Common

/-- The commands at the front of the bytes end the negotiation of this
user. -/
inductive Completes (env : Env) : User → Bytes → Prop
  /-- All options are known, and no command follows. -/
  | rest
      {user : User}
      {bytes : Bytes}
      (noCommand : bytes.head? ≠ some telcmdIAC)
      (due : user.flagsTelnet.due = true) : Completes env user bytes
  /-- A terminal type cuts off what follows it, and all options are known. -/
  | cut
      {user : User}
      {bytes : Bytes}
      {command : TeloptCommand}
      {size : Nat}
      (front : bytes.head? = some telcmdIAC)
      (decoded : decodeCommand bytes = some (command, size))
      (cuts : Truncates bytes command size)
      (due : (command.settle env user).flagsTelnet.due = true) :
      Completes env user bytes
  /-- The commands behind the first one end it. -/
  | command
      {user : User}
      {bytes : Bytes}
      {command : TeloptCommand}
      {size : Nat}
      (front : bytes.head? = some telcmdIAC)
      (decoded : decodeCommand bytes = some (command, size))
      (whole : ¬ Truncates bytes command size)
      (completes : Completes env (command.settle env user) (bytes.drop size)) :
      Completes env user bytes

namespace Completes

variable {env : Env} {user : User} {bytes : Bytes}
variable {command : TeloptCommand} {size : Nat}

theorem rest_iff (noCommand : bytes.head? ≠ some telcmdIAC) :
    Completes env user bytes ↔ user.flagsTelnet.due = true := by
  constructor
  · intro completes
    cases completes with
    | rest _ due => exact due
    | cut front => exact absurd front noCommand
    | command front => exact absurd front noCommand
  · exact .rest noCommand

theorem cut_iff
    (front : bytes.head? = some telcmdIAC)
    (decoded : decodeCommand bytes = some (command, size))
    (cuts : Truncates bytes command size) :
    Completes env user bytes ↔
      (command.settle env user).flagsTelnet.due = true := by
  constructor
  · intro completes
    cases completes with
    | rest noCommand => exact absurd front noCommand
    | cut _ decodedToo _ due =>
        rw [decoded] at decodedToo
        cases decodedToo
        exact due
    | command _ decodedToo whole =>
        rw [decoded] at decodedToo
        cases decodedToo
        exact absurd cuts whole
  · exact .cut front decoded cuts

theorem command_iff
    (front : bytes.head? = some telcmdIAC)
    (decoded : decodeCommand bytes = some (command, size))
    (whole : ¬ Truncates bytes command size) :
    Completes env user bytes ↔
      Completes env (command.settle env user) (bytes.drop size) := by
  constructor
  · intro completes
    cases completes with
    | rest noCommand => exact absurd front noCommand
    | cut _ decodedToo cuts =>
        rw [decoded] at decodedToo
        cases decodedToo
        exact absurd cuts whole
    | command _ decodedToo _ completes =>
        rw [decoded] at decodedToo
        cases decodedToo
        exact completes
  · exact .command front decoded whole

/-- An incomplete command ends no negotiation. -/
theorem not_of_undecoded
    (front : bytes.head? = some telcmdIAC)
    (undecoded : decodeCommand bytes = none) : ¬ Completes env user bytes := by
  intro completes
  cases completes with
  | rest noCommand => exact absurd front noCommand
  | cut _ decoded => exact absurd decoded (by simp [undecoded])
  | command _ decoded => exact absurd decoded (by simp [undecoded])

end Completes

section ParseTelopt

variable (env : Env) (me : Nat) (core : Core)

/-- The stage is as before, and the negotiation is going to end or not as
before. -/
def Going (pending todo : Bytes) (now : Core) : Prop :=
  (now.users me).stage = (core.users me).stage ∧
    (Completes env (now.users me) todo ↔
      Completes env (core.users me) pending)

/-- The stage is as before, and the negotiation does not end. -/
def Ongoing (pending : Bytes) (now : Core) : Prop :=
  (now.users me).stage = (core.users me).stage ∧
    ¬ Completes env (core.users me) pending

/-- While commands are dealt with, the stage stays as it is, and whether the
negotiation ends is decided by what remains. -/
theorem going_rule (pending : Bytes) :
    TeloptRule env me (fun todo now _ => Going env me core pending todo now)
      (fun now _ =>
        (now.users me).stage = (core.users me).stage ∧
          ((now.users me).flagsTelnet.due = true ↔
            Completes env (core.users me) pending))
      (fun _ now _ => Ongoing env me core pending now)
      (fun _ _ now _ => Ongoing env me core pending now) where
  command := by
    rintro todo now past command size front decoded whole ⟨stage, same⟩ obs
      after - - -
    refine ⟨?_, ?_⟩
    · rw [Core.users_setUser_self, TeloptCommand.stage_settle, stage]
    · rw [Core.users_setUser_self, ← same,
        Completes.command_iff front decoded whole]
  incomplete := by
    rintro now past buffer front undecoded - ⟨stage, same⟩
    refine ⟨?_, fun completes => ?_⟩
    · rw [Core.users_setUser_self, TeloptBuffer.incomplete]
      split
      · exact stage
      · exact stage
    · exact Completes.not_of_undecoded front undecoded (same.mpr completes)
  stuck := by
    rintro todo now past stuck ⟨stage, same⟩
    have ongoing : Ongoing env me core pending now :=
      ⟨stage, fun completes => Completes.not_of_undecoded stuck.1
        stuck.undecoded (same.mpr completes)⟩
    exact ⟨ongoing, fun _ _ => ongoing⟩
  cut := by
    rintro todo now past command size front decoded cuts ⟨stage, same⟩ obs -
    refine ⟨?_, ?_⟩
    · rw [Core.users_setUser_self, TeloptCommand.stage_settle, stage]
    · rw [Core.users_setUser_self, ← same,
        Completes.cut_iff front decoded cuts]

/-- In a session past the name entry, `User::parseTelopt` leaves the stage
alone if and only if the commands received do not end the negotiation. -/
theorem parseTelopt_stage_iff
    {buffer : TeloptBuffer}
    (fits : ReadRule.Fits buffer)
    (entered : ¬ (core.users me).stage.readsName) :
    (((parseTelopt env me).run ⟨core, buffer⟩).state.core.users me).stage =
        (core.users me).stage ↔
      ¬ Completes env (core.users me) buffer.pending := by
  have start : Going env me core buffer.pending buffer.pending core :=
    ⟨rfl, Iff.rfl⟩
  have ends : Run.Ends _ [] _ _ :=
    ReadRule.teloptLoop (going_rule env me core buffer.pending) buffer.bpos
      fits (le_refl _) (Nat.lt_succ_self _) start
  rw [parseTelopt, Prog.run_get_bind]
  generalize ran_eq : (Prog.loop (teloptPass env me) .hang (buffer.bpos + 1)
    ()).run ⟨core, buffer⟩ = ran at ends
  obtain ⟨abort | complete, ⟨now, left⟩, obs⟩ := ran
  · obtain ⟨stage, ongoing⟩ := ends
    rw [Prog.run_bind_error ran_eq]
    exact iff_of_true stage ongoing
  · rw [Prog.run_bind_ok ran_eq]
    cases complete with
    | false =>
        obtain ⟨⟨stage, ongoing⟩, -⟩ := ends
        exact iff_of_true stage ongoing
    | true =>
        have parsed : (now.users me).stage = (core.users me).stage ∧
            ((now.users me).flagsTelnet.due = true ↔
              Completes env (core.users me) buffer.pending) := by
          rcases ends with ⟨⟨stage, same⟩, -, -, front⟩ | ⟨gone, -⟩
          · exact ⟨stage, (Completes.rest_iff front).symm.trans same⟩
          · exact gone
        obtain ⟨stage, same⟩ := parsed
        obtain ⟨more, notices, -⟩ := gotTelopt_runs env me now
        have lifted : (onCore (gotTelopt env me)).run ⟨now, left⟩ =
            ⟨.ok (), ⟨if (now.users me).flagsTelnet.due = true then
              now.setUser me User.noticed else now, left⟩, more⟩ := by
          rw [onCore, Prog.run_zoom, notices]
        simp only [if_true]
        rw [Prog.run_bind_ok lifted, ← same]
        simp only [Prog.run_pure, Run.prepend_state]
        split
        · rename_i due
          refine iff_of_false ?_ (not_not.mpr due)
          rw [Core.users_setUser_self]
          intro isLogin
          rw [← isLogin] at entered
          exact entered rfl
        · rename_i notDue
          exact iff_of_true stage notDue

end ParseTelopt

/-- Ann has entered her name. -/
def annNamed : Core :=
  (World.after (Env.testing []) []
    [.accept, .packet 0 (lit "ann\r")]).server.core

/-- The client knows neither the size nor the type of its terminal, and the
server is to echo and to suppress go ahead. -/
def answers : Bytes :=
  [telcmdIAC, telcmdWONT, teloptNAWS, telcmdIAC, telcmdWONT, teloptTERM,
    telcmdIAC, telcmdDO, teloptECHO, telcmdIAC, telcmdDO, teloptSGA]

/-- The answers after Ann's name. -/
theorem parseTelopt_stage_ann :
    (((parseTelopt (Env.testing []) 0).run
          ⟨annNamed, ⟨answers, answers.length⟩⟩).state.core.users 0).stage =
        (annNamed.users 0).stage ↔
      ¬ Completes (Env.testing []) (annNamed.users 0)
        (TeloptBuffer.pending ⟨answers, answers.length⟩) :=
  parseTelopt_stage_iff (Env.testing []) 0 annNamed
    ⟨le_refl _, by decide⟩ (by decide +kernel)

/-- A session that is asked for its password is sent back to the name
entry. -/
theorem lateAnswers_restart :
    ¬ ∀ env rows events me commands,
      ¬ ((World.after env rows events).server.core.users
          me).stage.readsName →
        (((parseTelopt env me).run
            ⟨(World.after env rows events).server.core,
              ⟨commands, commands.length⟩⟩).state.core.users me).stage =
          ((World.after env rows events).server.core.users me).stage := by
  intro always
  have stays := always (Env.testing []) []
    [.accept, .packet 0 (lit "ann\r")] 0 answers (by decide +kernel)
  exact absurd stays (by decide +kernel)

end Network
end Lotospp
