import Lotospp.Common.Local

/-!
# What a line makes of the credentials

The name, the cached hash, the level and the stage of a session, and what each
way of taking a line makes of them.  The credentials of the other sessions
stay as they are.
-/

namespace Lotospp
namespace Common

open Text Effect Commands Strings

/-- What a session has shown of its account. -/
structure Credentials where
  /-- The name. -/
  name : Bytes
  /-- The cached hash. -/
  password : Option Bytes
  /-- The level. -/
  level : UserLevel
  /-- The stage. -/
  stage : UserStage

/-- The credentials of a user. -/
def User.credentials (user : User) : Credentials :=
  ⟨user.name, user.password, user.level, user.stage⟩

/-- The credentials after a failed attempt that is not the last one. -/
def Credentials.retried (credentials : Credentials) : Credentials :=
  { credentials with stage := .loginName, password := none }

section Own

variable (env : Env) (me : Nat) (line : Bytes) (core : Core)

/-- The last attempt leaves the credentials, the others start again. -/
theorem credentials_attempted :
    ((core.attempted me).users me).credentials =
      if ((core.users me).attempts + 1) % 2 ^ 8 = maxLoginAttempts then
        (core.users me).credentials
      else (core.users me).credentials.retried := by
  unfold Core.attempted Core.counted
  simp only [Core.users_setUser_self]
  split
  · simp [Core.removeList, User.credentials]
  · simp [User.credentials, Credentials.retried]

/-- Only the account's hash is loaded first. -/
theorem loadOutcome_true (userName : Bytes) :
    (loadOutcome env me userName true core).2 =
      match (core.db.select env.dbFails userName).1 with
      | none => { core with db := (core.db.select env.dbFails userName).2 }
      | some row =>
          Core.copied { core with
            db := (core.db.select env.dbFails userName).2 } me row := by
  unfold loadOutcome
  simp only [if_true]
  cases (core.db.select env.dbFails userName).1 <;> rfl

/-- A name has been entered: the hash is that of the account, if it was
found. -/
theorem credentials_named :
    ((core.named env me line).users me).credentials =
      { name := properName line
        password :=
          match ((core.rejected me line).db.select env.dbFails line).1 with
          | some row => some row.password
          | none => ((core.rejected me line).users me).password
        level := .login
        stage := .loginPwd } := by
  rw [Core.named]
  generalize core.rejected me line = rejected
  have renamed : (((rejected.setUser me fun user =>
      { user with name := properName line }).cleared me).users me) =
        { rejected.users me with name := properName line } := by
    simp
  have db : ((rejected.setUser me fun user =>
      { user with name := properName line }).cleared me).db = rejected.db := by
    simp [Core.setUser]
  generalize (rejected.setUser me fun user =>
    { user with name := properName line }).cleared me = cleared at renamed db ⊢
  rw [loadOutcome_true, Core.users_setUser_self, db]
  cases (rejected.db.select env.dbFails line).1 with
  | none => simp [User.credentials, renamed]
  | some row => simp [User.credentials, Core.copied, renamed]

theorem credentials_chosen :
    ((core.chosen env me line).users me).credentials =
      { (core.users me).credentials with
        password := some (env.cryptFresh core.salts line)
        stage := .loginReenterPwd } := by
  simp [Core.chosen, Core.setUser, User.credentials]

theorem credentials_registered (guid : Nat) (db : Database.Users) :
    ((core.registered me guid db).users me).credentials =
      { (core.users me).credentials with
        password := none
        level := .novice
        stage := .loginPrompt } := by
  simp [Core.registered, Core.setUser, User.credentials]

theorem credentials_admitted :
    ((core.admitted me).users me).credentials =
      { (core.users me).credentials with
        password := none
        stage := .cmdLine } := by
  simp [Core.admitted, User.credentials]

theorem credentials_copied (row : Database.Row) :
    ((core.copied me row).users me).credentials =
      { (core.users me).credentials with password := some row.password } := by
  simp [Core.copied, User.credentials]

/-- Loading an account changes the hash and the level at most. -/
theorem credentials_load (userName : Bytes) (preload : Bool) :
    ∃ password level,
      ((loadOutcome env me userName preload core).2.users me).credentials =
        { (core.users me).credentials with
          password := password
          level := level } := by
  refine @loadOutcome_intro env me userName preload core
    (fun now => ∃ password level, (now.users me).credentials =
      { (core.users me).credentials with
        password := password
        level := level }) ⟨_, _, rfl⟩ ?_ ?_
  · rintro now row ⟨password, level, same⟩
    refine ⟨some row.password, level, ?_⟩
    rw [credentials_copied, same]
  · rintro now level ⟨password, _, same⟩
    refine ⟨password, level, ?_⟩
    rw [Core.users_setUser_self]
    exact congrArg (fun credentials : Credentials =>
      { credentials with level := level }) same

/-- A load that throws has changed the hash at most. -/
theorem credentials_thrown
    (userName : Bytes)
    {preload : Bool}
    {abort : Abort}
    {reached : Core}
    (failed : loadOutcome env me userName preload core =
      (.error abort, reached)) :
    ∃ password, (reached.users me).credentials =
      { (core.users me).credentials with password := password } := by
  unfold loadOutcome at failed
  simp only at failed
  split at failed
  · simp at failed
  · rename_i row _
    split at failed
    · simp at failed
    · split at failed
      · simp only [Prod.mk.injEq] at failed
        rw [← failed.2]
        exact ⟨some row.password, credentials_copied me _ row⟩
      · simp at failed

/-- A line that is parsed leads to the command line. -/
theorem credentials_parsed :
    ((parseOutcome me core).2.users me).credentials =
      { (core.users me).credentials with stage := .cmdLine } := by
  have dispatched : ∀ now : Core,
      ((dispatchOutcome me (now.users me).stage now).2.users me).credentials =
        { (now.users me).credentials with stage := .cmdLine } := by
    intro now
    unfold dispatchOutcome
    split
    · rename_i stage
      rw [users_runOutcome]
      simp [User.credentials, stage]
    · simp [User.credentials]
  have cleaned : ((core.setUser me fun user =>
      user.setText (cleanString user.text)).users me).credentials =
        (core.users me).credentials := by
    simp [User.credentials, User.setText]
  unfold parseOutcome
  simp only
  generalize core.setUser me (fun user =>
    user.setText (cleanString user.text)) = entered at cleaned ⊢
  obtain ⟨startQuote, endQuote, parsed⟩ :=
    (entered.users me).com.parse_eq (entered.users me).text
  rw [parsed]
  simp only
  generalize (⟨_, _, _, startQuote, endQuote⟩ : Splitline) = com
  have held : ((entered.setUser me fun user =>
      { user with com := com }).users me).credentials =
        (entered.users me).credentials := by
    simp [User.credentials]
  have stage : ((entered.setUser me fun user =>
      { user with com := com }).users me).stage =
        (entered.users me).stage := congrArg Credentials.stage held
  have reached := dispatched (entered.setUser me fun user =>
    { user with com := com })
  rw [held, cleaned, stage] at reached
  split
  · rename_i failed
    rwa [failed] at reached
  · rename_i ended
    rw [ended] at reached
    rw [Core.users_setUser_self]
    exact reached

/-- What a line can make of the credentials of its session. -/
inductive Becomes : Credentials → Prop
  /-- They stay as they are. -/
  | stays
      (level : (core.users me).level = .login) :
      Becomes (core.users me).credentials
  /-- An attempt has failed. -/
  | retries
      (fails : FailsAttempt env me line core) :
      Becomes (core.users me).credentials.retried
  /-- A name has been entered. -/
  | names
      (entered : EntersName env me line core)
      (password : Option Bytes) :
      Becomes ⟨properName line, password, .login, .loginPwd⟩
  /-- A password has been chosen. -/
  | chooses
      (chosen : ChoosesPassword me line core) :
      Becomes { (core.users me).credentials with
        password := some (env.cryptFresh core.salts line)
        stage := .loginReenterPwd }
  /-- The account has been loaded, but its level could not be converted. -/
  | throws
      (right : RightPassword env me line core)
      (password : Option Bytes) :
      Becomes { (core.users me).credentials with password := password }
  /-- The password was right. -/
  | admits
      (right : RightPassword env me line core)
      (level : UserLevel) :
      Becomes { (core.users me).credentials with
        password := none
        level := level
        stage := .cmdLine }
  /-- The password has been confirmed. -/
  | confirms
      (confirmed : Confirms env me line core) :
      Becomes { (core.users me).credentials with
        password := none
        level := .novice
        stage := .loginPrompt }
  /-- The line has been parsed for a command. -/
  | parses
      (level : (core.users me).level ≠ .login) :
      Becomes { (core.users me).credentials with stage := .cmdLine }

end Own

/-- A takeover leaves the credentials of all sessions. -/
theorem credentials_takenOver
    {core : Core}
    {me other : Nat}
    (found : core.findSession me = some other)
    (connection user : Nat) :
    ((core.takenOver me other connection).users user).credentials =
      (core.users user).credentials := by
  rw [Core.users_takenOver core _ (Core.findSession_some found).1]
  split_ifs with isMe isOther
  · rw [isMe]
    rfl
  · rw [isOther]
    rfl
  · rfl

theorem flags_takenOver
    {core : Core}
    {me other : Nat}
    (found : core.findSession me = some other)
    (connection user : Nat) :
    ((core.takenOver me other connection).users user).flagsTelnet =
      (core.users user).flagsTelnet := by
  rw [Core.users_takenOver core _ (Core.findSession_some found).1]
  split_ifs with isMe isOther
  · rw [isMe]
  · rw [isOther]
  · rfl

/-- Entering the command line leaves the credentials of all sessions. -/
theorem credentials_connected (me user : Nat) (core : Core) :
    ((connectOutcome me core).2.users user).credentials =
      (core.users user).credentials := by
  unfold connectOutcome
  split
  · rfl
  · rename_i other found
    split
    · simp
    · exact credentials_takenOver found _ user

namespace LineEffect

variable {env : Env} {me : Nat} {line : Bytes} {core : Core}
variable {outcome : Except Abort Unit × Core}

/-- A line leaves the credentials of the other sessions. -/
theorem credentials_others
    (effect : LineEffect env me line core outcome)
    {user : Nat}
    (different : user ≠ me) :
    (outcome.2.users user).credentials = (core.users user).credentials := by
  rcases effect.concerns with ⟨stays, -⟩ |
    ⟨before, other, connection, stays, -, client, found, rfl⟩
  · rw [stays.others user different]
  · rw [credentials_takenOver found, stays.others user different]

/-- A line leaves the telnet flags of all sessions. -/
theorem flags
    (effect : LineEffect env me line core outcome)
    (user : Nat) :
    (outcome.2.users user).flagsTelnet = (core.users user).flagsTelnet := by
  have stay : ∀ {reached : Core}, core.Local reached me →
      (reached.users user).flagsTelnet = (core.users user).flagsTelnet := by
    intro reached stays
    by_cases isMe : user = me
    · rw [isMe, stays.flags]
    · rw [stays.others user isMe]
  rcases effect.concerns with ⟨stays, -⟩ |
    ⟨before, other, connection, stays, -, client, found, rfl⟩
  · exact stay stays
  · rw [flags_takenOver found, stay stays]

/-- What a line makes of the credentials of its own session. -/
theorem becomes (effect : LineEffect env me line core outcome) :
    Becomes env me line core (outcome.2.users me).credentials := by
  cases effect with
  | answers level => exact .stays level
  | abandons abandons => exact .stays abandons.1
  | fails fails =>
      rw [credentials_attempted]
      split
      · exact .stays fails.level
      · exact .retries fails
  | names entered =>
      rw [credentials_named]
      exact .names entered _
  | chooses chosen =>
      rw [credentials_chosen]
      exact .chooses chosen
  | throws right loaded =>
      obtain ⟨password, after⟩ := credentials_thrown env me core _ loaded
      rw [after]
      exact .throws right password
  | admits right loaded =>
      obtain ⟨password, level, after⟩ :=
        credentials_load env me core (core.users me).name false
      rw [loaded] at after
      rw [credentials_connected, credentials_admitted, after]
      exact .admits right level
  | confirms confirmed =>
      rw [credentials_registered]
      exact .confirms confirmed
  | stumbles awaits => exact .stays awaits.1
  | parses level =>
      rw [credentials_parsed]
      exact .parses level

end LineEffect

end Common
end Lotospp
