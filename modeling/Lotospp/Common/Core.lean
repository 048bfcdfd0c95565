import Lotospp.Common.AutoID
import Lotospp.Common.Enums
import Lotospp.Database.Users
import Lotospp.Effect.Program
import Lotospp.Strings.Splitline

/-!
# The state of the server

The users, the protocols and connections they are attached to, the list of
users, the identifiers and the database.  Objects are numbered in the order in
which they are created; a number is never used again, and a destroyed user
stays in the memory with `alive` unset, so that a dangling pointer can be told
from a good one.
-/

namespace Lotospp
namespace Common

open Text Effect

/-- What the session code takes from outside: the password hash, the answers
of the database, the configuration, and the values that the platform holds
where the code reads behind the end of a table. -/
structure Env where
  /-- `Blowfish::crypt(key, setting)`. -/
  crypt : Bytes → Bytes → Bytes
  /-- `Blowfish::crypt(key)` with the salt drawn at this count. -/
  cryptFresh : Nat → Bytes → Bytes
  /-- Whether the database query with this number fails. -/
  dbFails : Nat → Bool
  /-- The value behind the end of the table of `LoginCom`. -/
  loginComEnd : Int
  /-- The value behind the end of the table of `UserLevel`. -/
  userLevelEnd : Int
  /-- The option `global.serverName`. -/
  serverName : Bytes
  /-- The option `global.ansiTerms`. -/
  ansiTerms : Bytes
  /-- `project_version`. -/
  projectVersion : Bytes
  /-- The address of the peer of a connection. -/
  address : Nat → Bytes
  /-- The character that `%c` prints for a pointer into the buffer. -/
  pointerByte : UInt8

/-- An environment in which the server can be run: the hash is the salt with
the password, and the queries with these numbers fail. -/
def Env.testing (failing : List Nat) : Env where
  crypt key setting := setting.take 4 ++ key
  cryptFresh count key := [36, 48, UInt8.ofNat (48 + count), 36] ++ key
  dbFails number := number ∈ failing
  loginComEnd := 3
  userLevelEnd := 4
  serverName := lit "Lotos"
  ansiTerms := lit "xterm,vt100"
  projectVersion := lit "0.1"
  address _ := lit "127.0.0.1"
  pointerByte := 0

/-- The members of `class User`, except the bytes of unfinished telnet
commands. -/
structure User where
  /-- The object has not been destroyed. -/
  alive : Bool := false
  /-- `AutoID::auto_id`. -/
  autoId : Nat := 0
  /-- `Creature::id`. -/
  id : Nat := 0
  /-- `client`. -/
  client : Option Nat := none
  /-- `stage`. -/
  stage : UserStage := .new
  /-- `name`. -/
  name : Bytes := []
  /-- `password`. -/
  password : Option Bytes := none
  /-- `com`. -/
  com : Strings.Splitline := {}
  /-- `flagsTelnet`. -/
  flagsTelnet : TelnetFlags := {}
  /-- `level`. -/
  level : UserLevel := .login
  /-- `attempts`, of 8 bits. -/
  attempts : Nat := 0
  /-- `buffnum`. -/
  buffnum : Bool := false
  /-- `textBuffer`. -/
  textBuffer : Bool → Bytes := fun _ => []
  /-- `tbpos`. -/
  tbpos : Nat := 0
  /-- `termCols`, of 16 bits. -/
  termCols : Nat := 80
  /-- `termRows`, of 16 bits. -/
  termRows : Nat := 25
  /-- `termType`. -/
  termType : Bytes := []
  /-- `guid`. -/
  guid : Nat := 0

/-- `textBuffer[buffnum]`. -/
def User.text (user : User) : Bytes :=
  user.textBuffer user.buffnum

/-- Assign to `textBuffer[buffnum]`. -/
def User.setText (user : User) (text : Bytes) : User :=
  { user with
    textBuffer := Function.update user.textBuffer user.buffnum text }

/-- The user has typed no NUL. -/
def User.NoNul (user : User) : Prop :=
  ∀ buffer, 0 ∉ user.textBuffer buffer

namespace User.NoNul

variable {user : User} {text : Bytes} {position : Nat}

theorem setText
    (noNul : user.NoNul)
    (clean : 0 ∉ text) : (user.setText text).NoNul := by
  intro buffer
  change 0 ∉ Function.update user.textBuffer user.buffnum text buffer
  rw [Function.update_apply]
  split
  · exact clean
  · exact noNul buffer

theorem erased
    (noNul : user.NoNul)
    (erased : eraseFrom user.text position = .ok text) : 0 ∉ text := by
  unfold eraseFrom at erased
  split at erased
  · rw [← Except.ok.inj erased]
    exact fun inside => noNul _ (List.mem_of_mem_take inside)
  · cases erased

theorem replaced
    {byte : UInt8}
    (noNul : user.NoNul)
    (notNul : byte ≠ 0)
    (replaced : replace user.text position 1 [byte] = .ok text) :
    0 ∉ text := by
  unfold replace at replaced
  split at replaced
  · rw [← Except.ok.inj replaced]
    intro inside
    rcases List.mem_append.mp inside with front | behind
    · rcases List.mem_append.mp front with before | typed
      · exact noNul _ (List.mem_of_mem_take before)
      · exact notNul (List.mem_singleton.mp typed).symm
    · exact noNul _ (List.mem_of_mem_drop behind)
  · cases replaced

end User.NoNul

/-- The members of `class Telnet`. -/
structure Protocol where
  /-- `user`. -/
  user : Option Nat := none
  /-- `getConnection()` is not null. -/
  connected : Bool := false
  /-- `m_acceptPackets`. -/
  acceptPackets : Bool := false
  deriving DecidableEq

/-- `m_connectionState`. -/
inductive ConnectionState
  | open
  | requestClose
  | closing
  | closed
  deriving DecidableEq, Repr

/-- The members of `class Connection`. -/
structure Connection where
  /-- `m_connectionState`. -/
  state : ConnectionState := .closed
  /-- `m_receivedFirst`. -/
  receivedFirst : Bool := false
  /-- `m_protocol` is not null; the protocol has the connection's number. -/
  hasProtocol : Bool := false
  deriving DecidableEq

/-- The state that the users of the server share. -/
structure Core where
  /-- The users, by their address. -/
  users : Nat → User := fun _ => {}
  /-- The address of the next user. -/
  nextUser : Nat := 0
  /-- `User::listUser`, in the order of the identifiers. -/
  listUser : List (Nat × Nat) := []
  /-- The protocols. -/
  protocols : Nat → Protocol := fun _ => {}
  /-- The connections. -/
  connections : Nat → Connection := fun _ => {}
  /-- The number of the next connection. -/
  nextConnection : Nat := 0
  /-- The identifiers. -/
  autoID : AutoID := {}
  /-- The database. -/
  db : Database.Users := {}
  /-- The number of salts drawn. -/
  salts : Nat := 0

/-- The bytes of telnet commands: the members `buff` and `bpos`. -/
structure TeloptBuffer where
  /-- `buff`. -/
  buff : Bytes := []
  /-- `bpos`, of 32 bits. -/
  bpos : Nat := 0
  deriving DecidableEq, Repr

/-- The bytes `buff[0..bpos)`. -/
def TeloptBuffer.pending (buffer : TeloptBuffer) : Bytes :=
  buffer.buff.take buffer.bpos

/-- Why a call does not return normally. -/
inductive Abort
  /-- The code throws this stage. -/
  | stage (stage : UserStage)
  /-- `std::out_of_range`. -/
  | outOfRange
  /-- `enum_conversion_error`. -/
  | enumConversion
  /-- The language leaves the behaviour undefined. -/
  | undefined
  /-- A null pointer is dereferenced. -/
  | nullPointer
  /-- A loop never ends. -/
  | hang
  deriving DecidableEq, Repr

/-- A line handed to `User::login` or `User::parseLine`, with the state in
which it is handed over. -/
structure Handed where
  /-- The user. -/
  user : Nat
  /-- The state before. -/
  core : Core
  /-- The line. -/
  line : Bytes
  /-- The bytes of the packet that follow the line. -/
  rest : Bytes

/-- What a run shows. -/
inductive Obs
  /-- A message is sent to the peer of the protocol's connection. -/
  | wrote (protocol : Nat) (message : Bytes)
  /-- A message is written to a protocol without connection. -/
  | nullConnection (protocol : Nat)
  /-- A destroyed user is accessed. -/
  | dangling (user : Nat)
  /-- `User::uRead` is given a packet. -/
  | packet (user : Nat) (pending : Bytes) (data : Bytes)
  /-- `User::uRead` takes an ordinary byte. -/
  | text (user : Nat) (byte : UInt8)
  /-- A pass of `User::parseTelopt` finds a command. -/
  | telopt (user : Nat) (pending : Bytes)
  /-- The pass takes that many bytes off the pending ones and leaves the
  buffer. -/
  | consumed (user : Nat) (pending : Bytes) (count : Int)
      (buffer : TeloptBuffer)
  /-- A line is handed over. -/
  | handed (line : Handed)
  /-- `User::kick` closes the connection. -/
  | kicked (connection : Nat)
  /-- An identifier is drawn. -/
  | draw (autoID : AutoID)

/-- Session code that does not touch the telnet buffers. -/
abbrev CoreM : Type → Type :=
  Prog Abort Core Obs

/-- The exception for a bad position of a string. -/
def Abort.ofFault : Fault → Abort
  | .outOfRange => .outOfRange
  | .undefined => .undefined

/-- Use the result of an operation on strings. -/
def checked {σ α : Type} (result : Except Fault α) : Prog Abort σ Obs α :=
  match result with
  | .ok value => pure value
  | .error fault => Prog.raise (.ofFault fault)

@[simp] theorem checked_ok {σ α : Type} (value : α) :
    (checked (.ok value) : Prog Abort σ Obs α) = pure value := rfl

@[simp] theorem checked_error {σ α : Type} (fault : Fault) :
    (checked (.error fault) : Prog Abort σ Obs α) =
      Prog.raise (.ofFault fault) := rfl

namespace Core

/-- Change a user. -/
def setUser (core : Core) (me : Nat) (change : User → User) : Core :=
  { core with
    users := Function.update core.users me (change (core.users me)) }

/-- Change a protocol. -/
def setProtocol
    (core : Core)
    (protocol : Nat)
    (change : Protocol → Protocol) : Core :=
  { core with
    protocols :=
      Function.update core.protocols protocol
        (change (core.protocols protocol)) }

/-- Change a connection. -/
def setConnection
    (core : Core)
    (connection : Nat)
    (change : Connection → Connection) : Core :=
  { core with
    connections :=
      Function.update core.connections connection
        (change (core.connections connection)) }

/-- `listUser.addList`: the map keeps the order of the keys. -/
def insertKey (key value : Nat) : List (Nat × Nat) → List (Nat × Nat)
  | [] => [(key, value)]
  | entry :: rest =>
      if key < entry.1 then (key, value) :: entry :: rest
      else if key = entry.1 then (key, value) :: rest
      else entry :: insertKey key value rest

/-- `User::addList`. -/
def addList (core : Core) (me : Nat) : Core :=
  { core with listUser := insertKey (core.users me).id me core.listUser }

/-- `User::removeList`. -/
def removeList (core : Core) (me : Nat) : Core :=
  { core with listUser :=
      core.listUser.filter fun entry => entry.1 ≠ (core.users me).id }

/-- `Connection::closeConnection`. -/
def closeConnection (core : Core) (connection : Nat) : Core :=
  match (core.connections connection).state with
  | .closed => core
  | .requestClose => core
  | _ => core.setConnection connection fun connection =>
      { connection with state := .requestClose }

end Core

namespace Core

@[simp] theorem users_setUser_self
    (core : Core) (me : Nat) (change : User → User) :
    (core.setUser me change).users me = change (core.users me) := by
  simp [setUser]

theorem users_setUser
    (core : Core) (me other : Nat) (change : User → User) :
    (core.setUser me change).users other =
      if other = me then change (core.users me) else core.users other := by
  simp [setUser, Function.update_apply]

@[simp] theorem users_setUser_of_ne
    {me other : Nat}
    (core : Core)
    (change : User → User)
    (different : other ≠ me) :
    (core.setUser me change).users other = core.users other := by
  simp [setUser, different]

@[simp] theorem setUser_setUser
    (core : Core) (me : Nat) (first second : User → User) :
    (core.setUser me first).setUser me second =
      core.setUser me (second ∘ first) := by
  simp [setUser]

@[simp] theorem listUser_setUser
    (core : Core) (me : Nat) (change : User → User) :
    (core.setUser me change).listUser = core.listUser := rfl

@[simp] theorem protocols_setUser
    (core : Core) (me : Nat) (change : User → User) :
    (core.setUser me change).protocols = core.protocols := rfl

@[simp] theorem connections_setUser
    (core : Core) (me : Nat) (change : User → User) :
    (core.setUser me change).connections = core.connections := rfl

@[simp] theorem db_setUser
    (core : Core) (me : Nat) (change : User → User) :
    (core.setUser me change).db = core.db := rfl

@[simp] theorem autoID_setUser
    (core : Core) (me : Nat) (change : User → User) :
    (core.setUser me change).autoID = core.autoID := rfl

@[simp] theorem salts_setUser
    (core : Core) (me : Nat) (change : User → User) :
    (core.setUser me change).salts = core.salts := rfl

@[simp] theorem nextUser_setUser
    (core : Core) (me : Nat) (change : User → User) :
    (core.setUser me change).nextUser = core.nextUser := rfl

@[simp] theorem nextConnection_setUser
    (core : Core) (me : Nat) (change : User → User) :
    (core.setUser me change).nextConnection = core.nextConnection := rfl

end Core

/-- The user at an address. -/
def user (me : Nat) : CoreM User := do
  let core ← Prog.get
  pure (core.users me)

/-- Assign to members of a user. -/
def update (me : Nat) (change : User → User) : CoreM Unit :=
  Prog.modify fun core => core.setUser me change

@[simp] theorem run_user (me : Nat) (core : Core) :
    (user me).run core = ⟨.ok (core.users me), core, []⟩ := rfl

@[simp] theorem run_user_bind
    {α : Type} (me : Nat) (next : User → CoreM α) (core : Core) :
    (user me >>= next).run core = (next (core.users me)).run core := rfl

@[simp] theorem run_update (me : Nat) (change : User → User) (core : Core) :
    (update me change).run core = ⟨.ok (), core.setUser me change, []⟩ := rfl

@[simp] theorem run_update_bind
    {α : Type}
    (me : Nat) (change : User → User) (next : Unit → CoreM α) (core : Core) :
    (update me change >>= next).run core =
      (next ()).run (core.setUser me change) := rfl

/-- Follow a pointer to a user. -/
def deref (me : Nat) : CoreM User := do
  let user ← user me
  if user.alive then pure user
  else do
    Prog.emit (.dangling me)
    pure user

/-- What following a pointer shows. -/
def derefObs (core : Core) (me : Nat) : List Obs :=
  if (core.users me).alive then [] else [.dangling me]

@[simp] theorem run_deref (me : Nat) (core : Core) :
    (deref me).run core = ⟨.ok (core.users me), core, derefObs core me⟩ := by
  cases alive : (core.users me).alive <;> simp [deref, derefObs, alive]

@[simp] theorem run_deref_bind
    {α : Type} (me : Nat) (next : User → CoreM α) (core : Core) :
    (deref me >>= next).run core =
      ((next (core.users me)).run core).prepend (derefObs core me) := by
  rw [Prog.run_bind_ok (run_deref me core)]

end Common
end Lotospp
