import Lotospp.Common.Login
import Lotospp.Strings.Misc

/-!
# The command line

`User::parseLine` and `User::runCmdLine`, and the commands `say` and `quit`.
A command object draws an identifier and is never destroyed.
-/

namespace Lotospp
namespace Commands

open Text Effect Common Strings

/-- The constructor of `AutoID`. -/
def drawID : CoreM Nat := do
  let core ← Prog.get
  Prog.emit (.draw core.autoID)
  match core.autoID.construct with
  | none => Prog.raise .hang
  | some (autoId, autoID) => do
      Prog.modify fun core => { core with autoID := autoID }
      pure autoId

/-- The loop of `Say::execute` over the other users. -/
def sayLoop (me : Nat) : (list : List (Nat × Nat)) → CoreM Unit
  | [] => pure ()
  | (_, other) :: rest =>
      if other = me then sayLoop me rest
      else do
        let user ← user me
        let said ← checked (user.com.wordptr 1)
        let _ ← deref other
        uPrintf other
          (cStr user.name ++ lit " say: " ++ cStr said ++ lit "\n")
        sayLoop me rest

/-- `Say::execute`. -/
def say (me : Nat) : CoreM Unit := do
  let core ← Prog.get
  if (core.users me).com.word.length < 2 then
    uPrintf me (lit "Usage: .say <text>\n")
  else do
    let said ← checked ((core.users me).com.wordptr 1)
    uPrintf me (lit "You say: " ++ cStr said ++ lit "\n")
    sayLoop me core.listUser

/-- `Quit::execute`. -/
def quit (me : Nat) : CoreM Unit := do
  kick me
  removeList me

/-- The command that a first word names, without the dot in front of it. -/
def commandWord (first : Bytes) : Bytes :=
  if first.head? = some 46 then first.tail else first

/-- `User::runCmdLine`. -/
def runCmdLine (env : Env) (me : Nat) : CoreM Unit := do
  let user ← user me
  match user.com.word with
  | [] | [] :: _ => pure ()
  | first :: _ =>
      if first = [46] then do
        uPrintf me (lit "Missing command.\n")
        prompt env me
      else if iequals (commandWord first) (lit "say") then do
        let _ ← drawID
        say me
        prompt env me
      else if iequals (commandWord first) (lit "quit") then do
        let _ ← drawID
        quit me
      else uPrintf me (lit "Unknown command.\n")

/-- The switch of `User::parseLine`. -/
def dispatch (env : Env) (me : Nat) (stage : UserStage) : CoreM Unit :=
  if stage = .cmdLine then runCmdLine env me
  else do
    uPrintf me
      (lit "INTERNAL ERROR: Invalid stage in User::parseLine()!\n")
    update me fun user => { user with stage := .cmdLine }
    prompt env me

/-- `User::parseLine`. -/
def parseLine (env : Env) (me : Nat) : CoreM Unit := do
  update me fun user => user.setText (cleanString user.text)
  let user ← user me
  let com ← checked (user.com.parse user.text)
  update me fun user => { user with com := com }
  dispatch env me user.stage
  update me fun user => { user with buffnum := !user.buffnum }

end Commands
end Lotospp
