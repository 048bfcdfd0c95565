import Lotospp.Common.IOUser

/-!
# Logging in

`User::login` reads the name, the password and, for a new account, the
confirmation.  `User::uConnect` enters the command line or takes an old
session over.
-/

namespace Lotospp
namespace Common

open Text Effect

/-- `Protocol::logout`. -/
def logout (protocol : Nat) : CoreM Unit := do
  let core ← Prog.get
  if (core.protocols protocol).user = none then pure ()
  else if (core.protocols protocol).connected then do
    Prog.modify fun core => core.closeConnection protocol
    Prog.emit (.kicked protocol)
  else pure ()

/-- `User::kick`; the list of creatures, from which it also removes the user,
is never filled. -/
def kick (me : Nat) : CoreM Unit := do
  let user ← user me
  match user.client with
  | none => pure ()
  | some protocol => logout protocol

/-- `User::removeList`. -/
def removeList (me : Nat) : CoreM Unit :=
  Prog.modify fun core => core.removeList me

/-- `User::disconnect`. -/
def disconnect (me : Nat) : CoreM Unit := do
  let core ← Prog.get
  match (core.users me).client with
  | none => pure ()
  | some protocol =>
      Prog.when (core.protocols protocol).connected
        (Prog.modify fun core => core.closeConnection protocol)

/-- `User::attempt`. -/
def attempt (me : Nat) : CoreM Unit := do
  update me fun user => { user with attempts := (user.attempts + 1) % 2 ^ 8 }
  let user ← user me
  if user.attempts = maxLoginAttempts then do
    uPrintf me (lit "\nmax attempts\n")
    kick me
    removeList me
  else
    update me fun user => { user with stage := .loginName, password := none }

/-- The search of `User::uConnect` for another user with exactly this
name. -/
def findSame (me : Nat) (name : Bytes) :
    (list : List (Nat × Nat)) → CoreM (Option Nat)
  | [] => pure none
  | (_, other) :: rest =>
      if other = me then findSame me name rest
      else do
        let user ← deref other
        if name = user.name then pure (some other)
        else findSame me name rest

/-- `User::uConnect`. -/
def uConnect (env : Env) (me : Nat) : CoreM Unit := do
  let core ← Prog.get
  match ← findSame me (core.users me).name core.listUser with
  | none => prompt env me
  | some other => do
      uPrintf me (lit "\n\nalready logged in - switching to old session ...\n")
      uPrintf me (lit "old addr: " ++ cStr (getAddress env core other))
      uPrintf other
        (lit "\nswapping this session to addr " ++
          cStr (getAddress env core me) ++ lit "\n\n")
      disconnect other
      match (core.users me).client with
      | none => Prog.raise .nullPointer
      | some protocol => do
          Prog.modify fun core =>
            core.setProtocol protocol fun protocol =>
              { protocol with user := some other }
          update other fun user => { user with client := some protocol }
          update me fun user => { user with client := none }
          removeList me
          prompt env other
          Prog.raise (.stage .swapped)

/-- The names of the users logged in, four in a line. -/
def whoLoop (me : Nat) : (list : List (Nat × Nat)) → (i : Nat) → CoreM Nat
  | [], i => pure i
  | (_, other) :: rest, i =>
      if other = me then whoLoop me rest i
      else do
        let user ← deref other
        if user.level = .login then whoLoop me rest i
        else do
          Prog.when ((i + 1) % 4 = 0) (uPrintf me (lit "\n"))
          uPrintf me
            (cStr user.name ++
              List.replicate (19 - (cStr user.name).length) 32)
          whoLoop me rest (i + 1)

/-- The login command `who`. -/
def who (me : Nat) : CoreM Unit := do
  let core ← Prog.get
  let i ← whoLoop me core.listUser 0
  Prog.when (i = 0) (uPrintf me (lit "no1 :(\n"))

/-- The loop of `User::login` that rejects a name once for every character
that is not a letter. -/
def rejectLetters (me : Nat) (inpstr : Bytes) : CoreM Unit :=
  Prog.forEach inpstr fun byte =>
    Prog.when (¬ isAlpha byte) do
      uPrintf me (lit "\nletters only\n\n")
      attempt me

/-- The name for a line: lower case with the first letter upper. -/
def properName (inpstr : Bytes) : Bytes :=
  match toLowerCopy inpstr with
  | [] => []
  | byte :: rest => toUpper byte :: rest

/-- If the user has hung on another login, clear that session. -/
def clearSessions (me : Nat) : CoreM Unit := do
  let core ← Prog.get
  Prog.forEach (core.listUser.map Prod.snd) fun other => do
    let user ← deref other
    Prog.when
      (user.level = .login ∧ other ≠ me ∧
        iequals user.name (core.users me).name)
      (kick other)

/-- `User::login` in the stages that read a name. -/
def loginName (env : Env) (me : Nat) (inpstr : Bytes) : CoreM Unit := do
  let command := LoginCom.search env.loginComEnd inpstr
  if command = LoginCom.quit then do
    uPrintf me (lit "\n\n*** Login abandoned ***\n\n")
    Prog.raise (.stage .disconnect)
  else if command = LoginCom.who then who me
  else if command = LoginCom.version then do
    uPrintf me (lit "\nLotos++ ")
    uPrintf me (cStr env.projectVersion)
    uPrintf me (lit "\n")
  else if inpstr.length < minUsernameLen then do
    uPrintf me (lit "\ntoo short\n\n")
    attempt me
  else if inpstr.length > maxUsernameLen then do
    uPrintf me (lit "\ntoo long\n\n")
    attempt me
  else do
    rejectLetters me inpstr
    update me fun user => { user with name := properName inpstr }
    clearSessions me
    let loaded ← load env me inpstr true
    Prog.when (¬ loaded) (uPrintf me (lit "creating new account\n"))
    update me fun user => { user with level := .login, stage := .loginPwd }

/-- `User::login` in the stage `UserStage_LOGIN_PWD`. -/
def loginPwd (env : Env) (me : Nat) (inpstr : Bytes) : CoreM Unit := do
  let core ← Prog.get
  if inpstr.length < minPasswordLen then do
    uPrintf me (lit "\n\ntoo short\n\n")
    attempt me
  else
    match (core.users me).password with
    | none | some [] => do
        update me fun user =>
          { user with password := some (env.cryptFresh core.salts inpstr) }
        Prog.modify fun core => { core with salts := core.salts + 1 }
        uPrintf me (lit "\n\nconfirm: ")
        update me fun user => { user with stage := .loginReenterPwd }
    | some password =>
        if password = env.crypt inpstr password then do
          let _ ← load env me (core.users me).name false
          update me fun user =>
            { user with password := none, stage := .cmdLine }
          uConnect env me
        else do
          uPrintf me (lit "\n\nwrong password\n\n")
          attempt me

/-- `User::login` in the stage `UserStage_LOGIN_REENTER_PWD`. -/
def loginReenterPwd (env : Env) (me : Nat) (inpstr : Bytes) : CoreM Unit := do
  let core ← Prog.get
  match (core.users me).password with
  | none => Prog.raise .nullPointer
  | some password =>
      if password = env.crypt inpstr password then
        match (core.users me).client with
        | none => Prog.raise .nullPointer
        | some protocol => do
            sendEchoOn protocol
            update me fun user => { user with level := .novice }
            let guid ← create env me
            update me fun user =>
              { user with guid := guid % 2 ^ 32, password := none }
            uWrite me (lit "press [ENTER] to login")
            update me fun user => { user with stage := .loginPrompt }
      else do
        uPrintf me (lit "\n\npassword nomatch\n\n")
        attempt me

/-- `User::login`. -/
def login (env : Env) (me : Nat) (inpstr : Bytes) : CoreM Unit := do
  let user ← user me
  match user.stage with
  | .new | .loginId | .loginName => loginName env me inpstr
  | .loginPwd => loginPwd env me inpstr
  | .loginReenterPwd => loginReenterPwd env me inpstr
  | _ => pure ()

end Common
end Lotospp
