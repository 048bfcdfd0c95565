import Mathlib.Data.List.TakeWhile
import Lotospp.Common.Core

/-!
# Output

What the session code sends to its clients.  Output leaves the state of the
server as it is.
-/

namespace Lotospp
namespace Common

open Text Effect

/-- The text of a C string. -/
def cStr (text : Bytes) : Bytes :=
  text.takeWhile (· ≠ 0)

theorem ne_zero_of_mem_cStr
    {text : Bytes}
    {character : UInt8}
    (inside : character ∈ cStr text) : character ≠ 0 := by
  have passes := List.mem_takeWhile_imp inside
  simpa using passes

theorem cStr_of_ne_zero
    {text : Bytes}
    (noNul : ∀ character ∈ text, character ≠ 0) : cStr text = text := by
  refine List.takeWhile_eq_self_iff.mpr fun character inside => ?_
  simpa using noNul character inside

theorem cStr_of_noNul
    {text : Bytes}
    (noNul : 0 ∉ text) : cStr text = text :=
  cStr_of_ne_zero fun _ inside => ne_of_mem_of_not_mem inside noNul

theorem cStr_append
    {front : Bytes}
    (noNul : ∀ character ∈ front, character ≠ 0)
    (back : Bytes) : cStr (front ++ back) = front ++ cStr back := by
  refine List.takeWhile_append_of_pos fun character inside => ?_
  simpa using noNul character inside

/-- The message of `NetworkMessage::AddString` on a fresh message: the text up
to its NUL and the NUL, or nothing when it is longer than 8192 bytes. -/
def messageBytes (text : Bytes) : Bytes :=
  if (cStr text).length > 8192 then [] else cStr text ++ [0]

/-- `Connection::send`, which drops messages unless the connection is open,
after `Protocol::write` has followed the pointer to it. -/
def send (protocol : Nat) (message : Bytes) : CoreM Unit := do
  let core ← Prog.get
  if (core.protocols protocol).connected then
    if (core.connections protocol).state = .open then
      Prog.emit (.wrote protocol message)
    else pure ()
  else Prog.emit (.nullConnection protocol)

/-- What `Connection::send` shows. -/
def sendObs (core : Core) (protocol : Nat) (message : Bytes) : List Obs :=
  if (core.protocols protocol).connected then
    if (core.connections protocol).state = .open then
      [.wrote protocol message]
    else []
  else [.nullConnection protocol]

@[simp] theorem run_send (protocol : Nat) (message : Bytes) (core : Core) :
    (send protocol message).run core =
      ⟨.ok (), core, sendObs core protocol message⟩ := by
  simp only [send, sendObs, Prog.run_get_bind, Prog.run_ite]
  split <;> [split; skip] <;> rfl

/-- `User::uWrite`. -/
def uWrite (me : Nat) (message : Bytes) : CoreM Unit := do
  let user ← user me
  match user.client with
  | none => pure ()
  | some protocol =>
      if message = [] then pure ()
      else send protocol (messageBytes message)

/-- What `User::uWrite` shows. -/
def writeObs (core : Core) (me : Nat) (message : Bytes) : List Obs :=
  match (core.users me).client with
  | none => []
  | some protocol =>
      if message = [] then []
      else sendObs core protocol (messageBytes message)

@[simp] theorem run_uWrite (me : Nat) (message : Bytes) (core : Core) :
    (uWrite me message).run core =
      ⟨.ok (), core, writeObs core me message⟩ := by
  simp only [uWrite, writeObs, run_user_bind]
  cases (core.users me).client with
  | none => rfl
  | some protocol =>
      simp only [Prog.run_ite, Prog.run_pure, run_send]
      split <;> rfl

@[simp] theorem run_uWrite_bind
    {α : Type}
    (me : Nat) (message : Bytes) (next : Unit → CoreM α) (core : Core) :
    (uWrite me message >>= next).run core =
      ((next ()).run core).prepend (writeObs core me message) := by
  rw [Prog.run_bind_ok (run_uWrite me message core)]

/-- The second half of `User::uPrintf`, on the formatted text: a carriage
return before each line feed, and the treatment of slashes. -/
def escape : (pcesc : Bool) → Bytes → Bytes
  | _, [] => []
  | pcesc, byte :: rest =>
      if byte = 0 then []
      else if byte = lf then
        (if pcesc then [47] else []) ++ [cr, byte] ++ escape false rest
      else if byte = 47 then
        if pcesc then 47 :: escape true rest else escape true rest
      else (if pcesc then [47] else []) ++ [byte] ++ escape false rest

/-- `stringFormat` can count the text: the length that `snprintf` returns is an
`int`, and so is the room for it with its NUL.  For a longer text it throws
`runtime_error`. -/
def Countable (text : Bytes) : Prop :=
  text.length + 1 < 2 ^ 31

instance (text : Bytes) : Decidable (Countable text) :=
  inferInstanceAs (Decidable (_ < _))

theorem length_cStr_le (text : Bytes) : (cStr text).length ≤ text.length :=
  (List.takeWhile_sublist _).length_le

/-- `User::uPrintf`, given the formatted text, which `stringFormat` has been
able to count.  The texts that a client can make long are those with a terminal
type and those of a `say`. -/
def uPrintf (me : Nat) (text : Bytes) : CoreM Unit :=
  uWrite me (escape false text)

@[simp] theorem run_uPrintf (me : Nat) (text : Bytes) (core : Core) :
    (uPrintf me text).run core =
      ⟨.ok (), core, writeObs core me (escape false text)⟩ :=
  run_uWrite me _ core

@[simp] theorem run_uPrintf_bind
    {α : Type}
    (me : Nat) (text : Bytes) (next : Unit → CoreM α) (core : Core) :
    (uPrintf me text >>= next).run core =
      ((next ()).run core).prepend (writeObs core me (escape false text)) :=
  run_uWrite_bind me _ next core

/-- A number in decimal, as `%d` prints it. -/
def decimal (number : Int) : Bytes :=
  lit (toString number)

/-- The text that `User::prompt` formats. -/
def promptText (env : Env) (user : User) : Bytes :=
  match user.stage with
  | .loginId => lit "Login: "
  | .loginName => lit "Login: "
  | .loginPwd => lit "Enter password: "
  | .loginNewPwd => lit "Enter a password: "
  | .loginReenterPwd => lit "Re-enter password: "
  | .cmdLine => cStr user.name ++ lit "@" ++ cStr env.serverName ++ lit ">\n"
  | .oldPwd => lit "Enter old password: "
  | .newPwd => lit "Enter new password: "
  | .reenterPwd => lit "Re-enter new password: "
  | .suicide => lit "Enter password: "
  | _ => []

/-- `User::prompt`. -/
def prompt (env : Env) (me : Nat) : CoreM Unit := do
  let user ← user me
  uPrintf me (promptText env user)

/-- What `User::prompt` shows. -/
def promptObs (env : Env) (core : Core) (me : Nat) : List Obs :=
  writeObs core me (escape false (promptText env (core.users me)))

@[simp] theorem run_prompt (env : Env) (me : Nat) (core : Core) :
    (prompt env me).run core = ⟨.ok (), core, promptObs env core me⟩ := by
  simp [prompt, promptObs]

/-- `User::getAddress`. -/
def getAddress (env : Env) (core : Core) (me : Nat) : Bytes :=
  match (core.users me).client with
  | some protocol =>
      if (core.protocols protocol).connected then env.address protocol
      else lit "0.0.0.0"
  | none => lit "0.0.0.0"

/-- `Telnet::sendEchoOn`. -/
def sendEchoOn (protocol : Nat) : CoreM Unit :=
  send protocol [telcmdIAC, telcmdWONT, teloptECHO]

end Common
end Lotospp
