import Lotospp.Common.Credentials
import Lotospp.Network.Invariant

/-!
# The stage of a session that is logged in

`User::parseLine` is chosen by the level and expects the stage of the command
line.  The stage is another one after a registration and after a negotiation
that ends late, and at no other time.
-/

namespace Lotospp
namespace Network

open Text Effect Common Commands

/-- The last line that a session has handed over. -/
def lastLine (user : Nat) (past : List Handed) : Option Handed :=
  (past.filter fun handed => handed.user = user).getLast?

theorem lastLine_append_self (past : List Handed) (last : Handed) :
    lastLine last.user (past ++ [last]) = some last := by
  simp [lastLine]

theorem lastLine_append_other
    {user : Nat}
    {last : Handed}
    (different : last.user ≠ user)
    (past : List Handed) :
    lastLine user (past ++ [last]) = lastLine user past := by
  simp [lastLine, different]

/-- The telnet negotiation of a user has ended. -/
def negotiated (core : Core) (user : Nat) : Bool :=
  (core.users user).flagsTelnet.gotTeloptInfo

/-- The last line of the session was not the confirmation of a new account,
and the negotiation has not ended since. -/
def Undisturbed
    (env : Env)
    (user : Nat)
    (last : Handed)
    (core : Core) : Prop :=
  ¬ Confirms env user last.line last.core ∧
    negotiated last.core user = negotiated core user

/-- What the last line of a session that is logged in says of its stage. -/
def Staged (env : Env) (core : Core) (past : List Handed) (user : Nat) : Prop :=
  (core.users user).level ≠ .login →
    ∃ last ∈ lastLine user past,
      (negotiated last.core user → negotiated core user) ∧
        ((core.users user).stage = .cmdLine ↔ Undisturbed env user last core)

/-- Only the level, the stage and the telnet flags matter. -/
theorem Staged.congr
    {env : Env}
    {core reached : Core}
    {past later : List Handed}
    {user : Nat}
    (staged : Staged env core past user)
    (credentials : (reached.users user).credentials =
      (core.users user).credentials)
    (flags : negotiated reached user = negotiated core user)
    (same : lastLine user later = lastLine user past) :
    Staged env reached later user := by
  have level : (reached.users user).level = (core.users user).level :=
    congrArg Credentials.level credentials
  have stage : (reached.users user).stage = (core.users user).stage :=
    congrArg Credentials.stage credentials
  unfold Staged Undisturbed
  rw [level, stage, flags, same]
  exact staged

/-- The end of the negotiation disturbs a session that is logged in. -/
theorem Staged.noticed
    {env : Env}
    {core : Core}
    {past : List Handed}
    {me : Nat}
    (staged : Staged env core past me)
    (due : (core.users me).flagsTelnet.due = true) :
    Staged env (core.setUser me User.noticed) past me := by
  have before : negotiated core me = false := by
    unfold negotiated
    unfold TelnetFlags.due at due
    cases isNegotiated : (core.users me).flagsTelnet.gotTeloptInfo with
    | false => rfl
    | true => simp [isNegotiated] at due
  have now : negotiated (core.setUser me User.noticed) me = true := by
    simp [negotiated, User.noticed]
  have stage : ((core.setUser me User.noticed).users me).stage = .loginId := by
    simp [User.noticed]
  intro level
  obtain ⟨last, isLast, later, -⟩ := staged (by simpa [User.noticed] using level)
  refine ⟨last, isLast, fun _ => now, ?_⟩
  rw [stage, Undisturbed, now]
  rw [before] at later
  constructor
  · intro same
    exact absurd same (by decide)
  · rintro ⟨-, same⟩
    exact absurd (later same) (by decide)

/-- A line leads to the command line, unless it confirms a new account. -/
theorem Staged.line
    {env : Env}
    {me : Nat}
    {line rest : Bytes}
    {core : Core}
    {outcome : Except Abort Unit × Core}
    (effect : LineEffect env me line core outcome)
    (past : List Handed) :
    Staged env outcome.2 (past ++
      [{ user := me, core := core, line := line, rest := rest }]) me := by
  intro level
  refine ⟨_, lastLine_append_self past
    { user := me, core := core, line := line, rest := rest }, ?_⟩
  have flags : negotiated outcome.2 me = negotiated core me :=
    congrArg TelnetFlags.gotTeloptInfo (effect.flags me)
  have becomes := effect.becomes
  unfold Undisturbed
  simp only [flags, and_true]
  refine ⟨fun isNegotiated => isNegotiated, ?_⟩
  change (outcome.2.users me).credentials.stage = .cmdLine ↔ _
  change (outcome.2.users me).credentials.level ≠ .login at level
  generalize (outcome.2.users me).credentials = credentials at becomes level ⊢
  cases becomes with
  | stays isLogin => exact absurd isLogin level
  | retries fails => exact absurd fails.level level
  | names => exact absurd rfl level
  | chooses chosen => exact absurd chosen.1.1 level
  | throws right => exact absurd right.1.1 level
  | admits right =>
      refine iff_of_true rfl fun confirmed => ?_
      have stage := confirmed.1.2
      rw [right.1.2] at stage
      exact absurd stage (by decide)
  | confirms confirmed =>
      refine iff_of_false ?_ (not_not.mpr confirmed)
      exact show UserStage.loginPrompt ≠ UserStage.cmdLine by decide
  | parses notLogin =>
      exact iff_of_true rfl fun confirmed => notLogin confirmed.1.1

/-- The stages in every state of a run. -/
theorem staged_invariant (env : Env) :
    ServerInvariant env fun _ core past => ∀ user, Staged env core past user where
  start rows user level := absurd rfl level
  closes connection _ staged user :=
    (staged user).congr (by simp) (by simp [negotiated]) rfl
  shrinks := by
    intro core reached past _ shrinks staged user
    obtain ⟨alive, client, same, -⟩ := shrinks.users user
    exact (staged user).congr (by rw [same]; rfl) (by simp [negotiated, same]) rfl
  joins := by
    intro core past connection autoId autoID _ _ _ staged user
    have users := @users_joined core connection autoId autoID user
    split at users
    · intro level
      rw [users] at level
      exact absurd rfl level
    · exact (staged user).congr (by rw [users]) (by simp [negotiated, users]) rfl
  enters _ _ staged := staged
  leaves staged := staged
  negotiates := by
    intro core past me connection change _ changes staged user
    by_cases isMe : user = me
    · obtain ⟨cols, rows, type, flags, same, negotiation⟩ :=
        changes (core.users me)
      subst isMe
      refine (staged user).congr ?_ ?_ rfl
      · rw [Core.users_setUser_self, same]
        rfl
      · simp [negotiated, same, negotiation]
    · refine (staged user).congr ?_ ?_ rfl
      · rw [Core.users_setUser_of_ne _ _ isMe]
      · simp [negotiated, isMe]
  notices := by
    intro core past me connection _ due staged user
    by_cases isMe : user = me
    · subst isMe
      exact (staged user).noticed due
    · refine (staged user).congr ?_ ?_ rfl
      · rw [Core.users_setUser_of_ne _ _ isMe]
      · simp [negotiated, isMe]
  edits := by
    rintro core reached past me connection _ ⟨textBuffer, tbpos, -, rfl⟩ staged user
    refine (staged user).congr ?_ ?_ rfl
    · rw [Core.users_setUser]
      split
      · rename_i isMe
        rw [isMe]
        rfl
      · rfl
    · unfold negotiated
      rw [Core.users_setUser]
      split
      · rename_i isMe
        rw [isMe]
      · rfl
  line := by
    intro core past me connection line rest outcome session effect staged
    refine .of_after session effect ?_ fun user => ?_
    · intro before other found staged user
      refine (staged user).congr (credentials_takenOver found _ user).symm ?_ rfl
      simp only [negotiated, flags_takenOver found]
    · by_cases isMe : user = me
      · rw [isMe]
        exact .line effect past
      · refine (staged user).congr (effect.credentials_others isMe) ?_
          (lastLine_append_other (Ne.symm isMe) past)
        simp only [negotiated, effect.flags]

/-- `User::parseLine` finds the stage of the command line if and only if the
session's last line was not the confirmation of a new account and the
negotiation has not ended since. -/
theorem parseLine_stage_iff
    {env : Env}
    {rows : List Database.Row}
    {events : List Event}
    {before after : List Handed}
    {handed : Handed}
    (handedOver : handedIn (World.after env rows events).trace =
      before ++ handed :: after)
    (level : (handed.core.users handed.user).level ≠ .login) :
    (handed.core.users handed.user).stage = .cmdLine ↔
      ∃ last ∈ lastLine handed.user before,
        Undisturbed env handed.user last handed.core := by
  obtain ⟨-, -, recorded⟩ := (staged_invariant env).recorded.after rows events
  have staged := (recorded before handed after handedOver).2 handed.user level
  obtain ⟨last, isLast, -, same⟩ := staged
  rw [same]
  constructor
  · exact fun undisturbed => ⟨last, isLast, undisturbed⟩
  · rintro ⟨other, isOther, undisturbed⟩
    rw [isLast] at isOther
    rwa [Option.some.inj isOther]

/-- Ann registers and presses the return key. -/
def annRegisters : List Event :=
  [.accept, .packet 0 (lit "ann\rsecret\rsecret\r\r")]

/-- The lines of Ann's registration. -/
def annLines : List Handed :=
  handedIn (World.after (Env.testing []) [] annRegisters).trace

/-- The last line of Ann's registration. -/
theorem parseLine_stage_ann :
    ∃ inside : 3 < annLines.length,
      (annLines[3].core.users annLines[3].user).stage = .cmdLine ↔
        ∃ last ∈ lastLine annLines[3].user (annLines.take 3),
          Undisturbed (Env.testing []) annLines[3].user last
            annLines[3].core := by
  have inside : 3 < annLines.length := by decide +kernel
  have handedOver : annLines =
      annLines.take 3 ++ annLines[3] :: annLines.drop 4 := by
    rw [← List.drop_eq_getElem_cons inside, List.take_append_drop]
  have level : (annLines[3].core.users annLines[3].user).level ≠ .login := by
    clear handedOver
    revert inside
    decide +kernel
  exact ⟨inside, parseLine_stage_iff handedOver level⟩

/-- The line after a registration finds another stage. -/
theorem parseLine_internalError :
    ¬ ∀ env rows events,
      ∀ handed ∈ handedIn (World.after env rows events).trace,
        (handed.core.users handed.user).level ≠ .login →
          (handed.core.users handed.user).stage = .cmdLine := by
  intro always
  have commands := always (Env.testing []) [] annRegisters
  revert commands
  decide +kernel

end Network
end Lotospp
