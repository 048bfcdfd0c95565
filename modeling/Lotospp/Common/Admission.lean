import Lotospp.Common.LoginOutcome

/-!
# Entering the right password

When the right password of an account admits its session: `IOUser::load`
reads the account a second time, and only if that fails is the level left
alone and no exception thrown.
-/

namespace Lotospp
namespace Common

open Text Effect

/-- A session waits for the password of a stored account, no other session of
the account is connected, and the line matches. -/
structure AwaitsPassword
    (env : Env)
    (me : Nat)
    (line : Bytes)
    (core : Core)
    (row : Database.Row) : Prop where
  /-- The account is stored under the session's name. -/
  stored : core.db.lookup (core.users me).name = some row
  /-- The account's level is a value of the enumeration. -/
  valid : (row.level : Int) ∈ UserLevel.table
  /-- The session is in the login. -/
  level : (core.users me).level = .login
  /-- The session waits for a password. -/
  stage : (core.users me).stage = .loginPwd
  /-- The session holds the account's hash. -/
  password : (core.users me).password = some row.password
  /-- The session is listed. -/
  listed : me ∈ core.listUser.map Prod.snd
  /-- No other connected session has the name. -/
  alone : ∀ other ∈ core.listUser.map Prod.snd, other ≠ me →
    (core.users other).client ≠ none →
    (core.users me).name ≠ (core.users other).name
  /-- The line matches the hash. -/
  matching : row.password = env.crypt line row.password

/-- The line ends in the command line with this level, without an exception;
the password is freed and the session stays listed. -/
structure Admitted (me : Nat) (level : Int) (run : Run Abort Core Obs Unit) :
    Prop where
  /-- There is no exception. -/
  returns : run.val = .ok ()
  /-- The session is at the command line. -/
  stage : (run.state.users me).stage = .cmdLine
  /-- The session has the level. -/
  level : (run.state.users me).level = ⟨level⟩
  /-- The password is freed. -/
  freed : (run.state.users me).password = none
  /-- The session is listed. -/
  listed : me ∈ run.state.listUser.map Prod.snd

/-- A failed attempt does not lead to the command line. -/
theorem Core.stage_attempted_ne
    {core : Core}
    {me : Nat}
    (stage : (core.users me).stage ≠ .cmdLine) :
    ((core.attempted me).users me).stage ≠ .cmdLine := by
  unfold Core.attempted Core.counted
  simp only
  split
  · simpa [Core.removeList] using stage
  · simp

/-- A query that fails leaves the users and the list alone. -/
theorem loadOutcome_of_fails
    {env : Env}
    {core : Core}
    (fails : env.dbFails core.db.queries = true)
    (me : Nat)
    (userName : Bytes)
    (preload : Bool) :
    loadOutcome env me userName preload core =
      (.ok false, { core with db := core.db.counted }) := by
  simp [loadOutcome, Database.Users.select, fails]

/-- A load of an account with a level of the enumeration throws. -/
theorem loadOutcome_of_valid
    {env : Env}
    {core : Core}
    {row : Database.Row}
    {userName : Bytes}
    (works : env.dbFails core.db.queries = false)
    (stored : core.db.lookup userName = some row)
    (valid : (row.level : Int) ∈ UserLevel.table)
    (me : Nat) :
    (loadOutcome env me userName false core).1 = .error .enumConversion := by
  simp [loadOutcome, Database.Users.select, works, stored, fromInteger, valid]

section AwaitsPassword

variable {env : Env} {me : Nat} {line : Bytes} {core : Core}
variable {row : Database.Row}

/-- The outcome of the right password. -/
theorem AwaitsPassword.pwdOutcome_eq
    (awaits : AwaitsPassword env me line core row)
    (long : minPasswordLen ≤ line.length)
    (nonempty : row.password ≠ []) :
    pwdOutcome env me line core =
      match loadOutcome env me (core.users me).name false core with
      | (.error abort, core) => (.error abort, core)
      | (.ok _, core) => connectOutcome me (core.admitted me) := by
  have cached := awaits.password
  obtain ⟨first, others, password⟩ :=
    List.exists_cons_of_ne_nil nonempty
  have matching := awaits.matching
  rw [password] at cached matching
  rw [pwdOutcome, if_neg (not_lt.mpr long), cached]
  exact if_pos matching

/-- The search for a session of the name after the password was right. -/
theorem Core.findSession_admitted
    (core : Core)
    (db : Database.Users)
    (me : Nat) :
    ({ core with db := db }.admitted me).findSession me =
      core.findSession me := by
  have name : ∀ user,
      (({ core with db := db }.admitted me).users user).name =
        (core.users user).name :=
    Core.setUser_forall User.name (fun _ => by rfl) { core with db := db } me
  simp only [Core.findSession, name]
  rfl

/-- The right password admits the session exactly when the line is long
enough, the hash is not empty, no lingering session has the name, and the
second query fails on an account of the lowest level. -/
theorem admitted_iff (awaits : AwaitsPassword env me line core row) :
    Admitted me row.level ((login env me line).run core) ↔
      minPasswordLen ≤ line.length ∧ row.password ≠ [] ∧
        core.findSession me = none ∧
        env.dbFails core.db.queries = true ∧ row.level = 0 := by
  obtain ⟨obs, ran, -⟩ := Runs.login env me line core
  rw [loginOutcome, awaits.stage] at ran
  rw [ran]
  by_cases long : minPasswordLen ≤ line.length
  · by_cases nonempty : row.password ≠ []
    · rw [awaits.pwdOutcome_eq long nonempty]
      cases fails : env.dbFails core.db.queries with
      | false =>
          have throws := loadOutcome_of_valid fails awaits.stored awaits.valid me
          rw [← Prod.eta (loadOutcome ..), throws]
          refine ⟨fun admitted => absurd admitted.returns (by simp), ?_⟩
          rintro ⟨-, -, -, failing, -⟩
          exact absurd failing (by simp)
      | true =>
          rw [loadOutcome_of_fails fails]
          simp only [connectOutcome, Core.findSession_admitted]
          cases found : core.findSession me with
          | none =>
              constructor
              · intro admitted
                have level := admitted.level
                simp only [Core.admitted, Core.users_setUser_self,
                  awaits.level, UserLevel.login, UserLevel.mk.injEq] at level
                exact ⟨long, nonempty, rfl, trivial, by omega⟩
              · rintro ⟨-, -, -, -, lowest⟩
                exact ⟨rfl, by simp [Core.admitted],
                  by simp [Core.admitted, awaits.level, lowest,
                    UserLevel.login],
                  by simp [Core.admitted], awaits.listed⟩
          | some other =>
              refine ⟨fun admitted => ?_, ?_⟩
              · have returns := admitted.returns
                simp only at returns
                split at returns <;> exact absurd returns (by simp)
              · rintro ⟨-, -, alone, -, -⟩
                exact absurd alone (by simp)
    · have empty : row.password = [] := not_not.mp nonempty
      have cached := awaits.password
      rw [empty] at cached
      rw [pwdOutcome, if_neg (not_lt.mpr long), cached]
      refine ⟨fun admitted => ?_, fun condition => absurd empty condition.2.1⟩
      have stage := admitted.stage
      simp [Core.chosen] at stage
  · rw [pwdOutcome, if_pos (not_le.mp long)]
    refine ⟨fun admitted => ?_, fun condition => absurd condition.1 long⟩
    refine absurd admitted.stage (Core.stage_attempted_ne ?_)
    simp [awaits.stage]

end AwaitsPassword

/-- The session `Ann`, whose account has the level `NOVICE`, waits for its
password. -/
def annAwaits : Core :=
  { users := fun user =>
      if user = 0 then
        { alive := true, autoId := 1001, id := 1001 ||| 0x10000000
          client := some 0, stage := .loginPwd, name := lit "Ann"
          password := some (lit "salt secret") }
      else {}
    nextUser := 1
    listUser := [(1001 ||| 0x10000000, 0)]
    protocols := fun protocol =>
      if protocol = 0 then
        { user := some 0, connected := true, acceptPackets := true }
      else {}
    connections := fun connection =>
      if connection = 0 then
        { state := .open, receivedFirst := true, hasProtocol := true }
      else {}
    nextConnection := 1
    autoID := { count := 1001, list := [1001] }
    db := { rows := [⟨1, lit "Ann", lit "salt secret", 1⟩], nextId := 2 } }

theorem annAwaits_awaits :
    AwaitsPassword (Env.testing []) 0 (lit " secret") annAwaits
      ⟨1, lit "Ann", lit "salt secret", 1⟩ where
  stored := by decide
  valid := by decide
  level := by decide
  stage := by decide
  password := by decide
  listed := by decide
  alone := by decide
  matching := by decide

/-- The right password of a stored account need not admit its session: with a
working database the level `NOVICE` is refused. -/
theorem rightPassword_refused :
    ¬ ∀ (env : Env) (me : Nat) (line : Bytes) (core : Core)
      (row : Database.Row), AwaitsPassword env me line core row →
        Admitted me row.level ((login env me line).run core) := by
  intro always
  have admitted := always _ _ _ _ _ annAwaits_awaits
  have returns := admitted.returns
  revert returns
  decide +kernel

/-- The same session with an account of the lowest level. -/
theorem annAwaits_awaitsLowest :
    AwaitsPassword (Env.testing [0]) 0 (lit " secret")
      { annAwaits with
        db := { rows := [⟨1, lit "Ann", lit "salt secret", 0⟩] } }
      ⟨1, lit "Ann", lit "salt secret", 0⟩ where
  stored := by decide
  valid := by decide
  level := by decide
  stage := by decide
  password := by decide
  listed := by decide
  alone := by decide
  matching := by decide

/-- The session of an account of the lowest level is admitted when its second
query fails. -/
theorem admitted_whenQueryFails :
    Admitted 0 (0 : Nat) ((login (Env.testing [0]) 0 (lit " secret")).run
      { annAwaits with
        db := { rows := [⟨1, lit "Ann", lit "salt secret", 0⟩] } }) :=
  (admitted_iff annAwaits_awaitsLowest).mpr (by decide)

end Common
end Lotospp
