import Lotospp.Common.PasswordMemory
import Lotospp.Network.Outcomes

/-!
# The password pointers in a run

Whatever arrives, no line follows a password pointer that is null or whose
string has been deleted, and no string is deleted twice: a session that is to
confirm its password has one.
-/

namespace Lotospp
namespace Network

open Text Effect Common Commands

/-- A session that is to confirm its password has chosen one. -/
def Confirmable (credentials : Credentials) : Prop :=
  credentials.stage = .loginReenterPwd → credentials.password ≠ none

theorem Confirmable.of_stage
    {credentials : Credentials}
    (stage : UserStage)
    (same : credentials.stage = stage)
    (other : stage ≠ .loginReenterPwd) : Confirmable credentials :=
  fun confirms => absurd (same.symm.trans confirms) other

/-- A line leaves a password to confirm. -/
theorem Confirmable.becomes
    {env : Env}
    {me : Nat}
    {line : Bytes}
    {core : Core}
    {after : Credentials}
    (confirmable : Confirmable (core.users me).credentials)
    (becomes : Becomes env me line core after) : Confirmable after := by
  cases becomes with
  | stays => exact confirmable
  | chooses chosen => exact fun _ => by simp
  | retries => exact .of_stage .loginName rfl (by decide)
  | names => exact .of_stage .loginPwd rfl (by decide)
  | throws right => exact .of_stage .loginPwd right.1.2 (by decide)
  | admits => exact .of_stage .cmdLine rfl (by decide)
  | confirms => exact .of_stage .loginPrompt rfl (by decide)
  | parses => exact .of_stage .cmdLine rfl (by decide)

/-- The memory is in order after the lines so far, with the passwords of the
state; and whoever is to confirm a password has one. -/
structure Remembered (env : Env) (core : Core) (past : List Handed) : Prop where
  /-- Who is to confirm a password has one. -/
  confirmable : ∀ user, Confirmable (core.users user).credentials
  /-- No line has led to a fault, and the strings are those of the state. -/
  memory : Pointers.Leads (memoryAfter env past) core.passwords
  /-- Who has not joined has no password. -/
  unused : ∀ user, core.nextUser ≤ user → core.passwords user = none

/-- Every outcome keeps the memory in order. -/
theorem remembered_invariant (env : Env) :
    OutcomeInvariant env (Remembered env) where
  start rows :=
    { confirmable := fun _ => .of_stage .new rfl (by decide)
      memory := ⟨{}, rfl, .start⟩
      unused := fun _ _ => rfl }
  same := by
    intro core reached past same remembered
    have passwords : reached.passwords = core.passwords :=
      funext fun user => congrArg Credentials.password (same.credentials user)
    refine ⟨fun user => ?_, ?_, fun user later => ?_⟩
    · rw [same.credentials]
      exact remembered.confirmable user
    · rw [passwords]
      exact remembered.memory
    · rw [passwords]
      exact remembered.unused user (same.nextUser ▸ later)
  joins := by
    intro core past connection autoId autoID remembered
    have passwords : (joined core connection autoId autoID).passwords =
        core.passwords := by
      funext user
      rw [Core.passwords, users_joined]
      split
      · next isNew => exact (remembered.unused user isNew.ge).symm
      · rfl
    refine ⟨fun user => ?_, ?_, fun user later => ?_⟩
    · rw [users_joined]
      split
      · exact .of_stage .loginId rfl (by decide)
      · exact remembered.confirmable user
    · rw [passwords]
      exact remembered.memory
    · rw [passwords]
      exact remembered.unused user (Nat.le_of_succ_le later)
  notices := by
    intro core past me connection session remembered
    have passwords : (core.setUser me User.noticed).passwords =
        core.passwords := by
      funext user
      rw [Core.passwords, Core.users_setUser]
      split
      · next isMe => rw [isMe, Core.passwords, User.noticed]
      · rfl
    refine ⟨fun user => ?_, ?_, fun user later => ?_⟩
    · rw [Core.users_setUser]
      split
      · exact .of_stage .loginId rfl (by decide)
      · exact remembered.confirmable user
    · rw [passwords]
      exact remembered.memory
    · rw [passwords]
      exact remembered.unused user later
  line := by
    intro handed past connection session remembered
    have effect := lineOutcome_effect env handed.user handed.line handed.core
    obtain ⟨obs, -, follows⟩ :=
      Runs.handOver env handed.user handed.line handed.core
    refine ⟨fun user => ?_, ?_, fun user later => ?_⟩
    · by_cases isMe : user = handed.user
      · rw [isMe]
        exact (remembered.confirmable handed.user).becomes effect.becomes
      · rw [effect.credentials_others isMe]
        exact remembered.confirmable user
    · exact memoryAfter_leads (remembered.confirmable handed.user)
        remembered.memory
    · rw [follows.nextUser] at later
      have isOther : user ≠ handed.user := by
        have joined := session.joined
        omega
      have same := effect.credentials_others isOther
      exact (congrArg Credentials.password same).trans
        (remembered.unused user later)

/-- The strings of the passwords after some lines: none of them has followed a
null pointer or one to a deleted string, or deleted a string again; and the
pointer of whoever is to confirm a password can be followed. -/
def PasswordsSafe (env : Env) (core : Core) (past : List Handed) : Prop :=
  ∃ memory, memoryAfter env past = .ok memory ∧
    memory.Holds core.passwords ∧
    ∀ user, (core.users user).stage = .loginReenterPwd →
      ∃ password, memory.read user = .ok password

theorem Remembered.safe
    {env : Env}
    {core : Core}
    {past : List Handed}
    (remembered : Remembered env core past) : PasswordsSafe env core past := by
  obtain ⟨memory, after, holds⟩ := remembered.memory
  refine ⟨memory, after, holds, fun user stage => ?_⟩
  obtain ⟨password, known⟩ :=
    Option.ne_none_iff_exists'.mp (remembered.confirmable user stage)
  exact ⟨password, holds.read known⟩

/-- In every run the passwords are safe: at the end, and whenever a line is
handed over. -/
theorem passwords_safe
    (env : Env)
    (rows : List Database.Row)
    (events : List Event) :
    PasswordsSafe env (World.after env rows events).server.core
        (handedIn (World.after env rows events).trace) ∧
      ∀ before handed after,
        handedIn (World.after env rows events).trace =
          before ++ handed :: after →
        PasswordsSafe env handed.core before := by
  obtain ⟨-, remembered, recorded⟩ :=
    (remembered_invariant env).recorded.after rows events
  exact ⟨remembered.safe, fun before handed after split =>
    (recorded before handed after split).2.safe⟩

end Network
end Lotospp
