import Lotospp.Common.Read
import Lotospp.Network.NetworkMessage

/-!
# Connections and packets

`Connection`, `Protocol` and `Telnet` between the sockets and the sessions.
The server takes one event after the other, each of them as one step.  This is
an assumption: the handlers of the io_service and the tasks of the dispatcher
run on two threads, and `m_connectionLock` only excludes those of one
connection, while sessions share the list of users, the identifiers and the
table.
-/

namespace Lotospp
namespace Network

open Text Effect Common

/-- The state of the server with the telnet buffers of all users. -/
structure Server where
  /-- The shared state. -/
  core : Core := {}
  /-- The telnet buffers of the users. -/
  buffers : Nat → TeloptBuffer := fun _ => {}

/-- Server code. -/
abbrev ServerM : Type → Type :=
  Prog Abort Server Obs

/-- Code that leaves the telnet buffers alone. -/
def inServer {α : Type} (prog : CoreM α) : ServerM α :=
  Prog.zoom Server.core (fun core server => { server with core := core }) prog

/-- Code that uses the telnet buffer of one user. -/
def inSession {α : Type} (me : Nat) (prog : ReadM α) : ServerM α :=
  Prog.zoom
    (fun server => { core := server.core, buffer := server.buffers me })
    (fun reader server =>
      { core := reader.core
        buffers := Function.update server.buffers me reader.buffer }) prog

/-- `Protocol::setUser`. -/
def setProtocolUser (core : Core) (protocol : Nat) (user : Option Nat) :
    Core :=
  core.setProtocol protocol fun protocol => { protocol with user := user }

/-- `User::~User` and `AutoID::~AutoID`. -/
def destroyed (core : Core) (me : Nat) : Core :=
  let user := core.users me
  let core := match user.client with
    | none => core
    | some protocol => setProtocolUser core protocol none
  { ((core.setUser me fun user =>
      { user with alive := false, client := none }).removeList me) with
    autoID := core.autoID.destruct user.autoId }

/-- Delete a user. -/
def destroy (me : Nat) : CoreM Unit := do
  let _ ← deref me
  Prog.modify fun core => destroyed core me

/-- The handler of `Telnet::parsePacket` for a thrown stage. -/
def catchStage (protocol : Nat) (abort : Abort) : CoreM Unit := do
  let core ← Prog.get
  match abort, (core.protocols protocol).user with
  | .stage .disconnect, some user => do
      let _ ← deref user
      disconnect user
      destroy user
      Prog.modify fun core => setProtocolUser core protocol none
  | .stage .disconnect, none => Prog.raise .nullPointer
  | .stage .swapped, some user => do
      destroy user
      Prog.modify fun core => setProtocolUser core protocol none
  | .stage _, _ => pure ()
  | abort, _ => Prog.raise abort

/-- `Telnet::parsePacket`. -/
def parsePacket (env : Env) (protocol : Nat) (data : Bytes) : ServerM Unit := do
  let server ← Prog.get
  match (server.core.protocols protocol).user with
  | none => pure ()
  | some me =>
      if (server.core.protocols protocol).acceptPackets ∧ data ≠ [] then
        Prog.handle
          (do
            let _ ← inServer (deref me)
            inSession me (uRead env me data))
          fun abort => inServer (catchStage protocol abort)
      else pure ()

/-- `User::idRange`. -/
def idRange : Nat := 0x10000000

/-- `Telnet::parseFirstPacket`: the user of the connection is created. -/
def parseFirstPacket (protocol : Nat) : CoreM Unit := do
  let core ← Prog.get
  Prog.emit (.draw core.autoID)
  match core.autoID.construct with
  | none => Prog.raise .hang
  | some (autoId, autoID) => do
      let me := core.nextUser
      Prog.modify fun core =>
        { core with
          autoID := autoID
          nextUser := me + 1
          users := Function.update core.users me
            { alive := true
              autoId := autoId
              id := autoId ||| idRange
              client := some protocol
              stage := .loginId } }
      Prog.modify fun core => core.addList me
      Prog.modify fun core =>
        core.setProtocol protocol fun protocol =>
          { protocol with user := some me, acceptPackets := true }

/-- What `Telnet::onConnect` adds to its message. -/
def greetingCalls (env : Env) (connection : Nat) : List Add :=
  [lit "\n", env.serverName, lit "\n", lit "Lotos++", lit " version ",
      env.projectVersion, lit "\n", lit "\n\nconnection from: ",
      env.address connection, lit "\n"].map (fun text =>
    .item (.string text)) ++
  [telcmdIAC, telcmdWILL, teloptSGA, telcmdIAC, telcmdWILL, teloptECHO,
      telcmdIAC, telcmdDO, teloptTERM, telcmdIAC, telcmdDO, teloptNAWS].map
    fun value => .item (.byte value)

/-- What `Telnet::onConnect` sends: what the calls have added, a NUL behind
each string. -/
def greeting (env : Env) (connection : Nat) : Bytes :=
  (Add.accepted 0 (greetingCalls env connection)).flatMap Add.encoding

/-- The calls build the greeting. -/
theorem run_greetingCalls
    (message : NetworkMessage)
    (env : Env)
    (connection : Nat)
    (short : ∀ call ∈ greetingCalls env connection, call.Short) :
    ∃ after, message.run (greetingCalls env connection) = .ok after ∧
      after.contents = greeting env connection := by
  obtain ⟨after, ran, appends⟩ :=
    NetworkMessage.foldlM_add_appends message.reset_aligned short
  exact ⟨after, ran, appends.contents⟩

/-- What can happen to the server. -/
inductive Event
  /-- A client connects. -/
  | accept
  /-- A read of a connection completes with these bytes. -/
  | packet (connection : Nat) (data : Bytes)
  /-- `Connection::closeConnection` is called, after an error or a timeout. -/
  | closeRequest (connection : Nat)
  /-- The dispatcher runs `Connection::closeConnectionTask`; writes may be
  pending. -/
  | closeTask (connection : Nat) (pendingWrite : Bool)
  /-- The dispatcher runs `Telnet::deleteProtocolTask`. -/
  | deleteProtocol (protocol : Nat)
  deriving DecidableEq

/-- A client connects. -/
def acceptConnection (env : Env) : CoreM Unit := do
  let core ← Prog.get
  let connection := core.nextConnection
  Prog.modify fun core =>
    { core with
      nextConnection := connection + 1
      connections := Function.update core.connections connection
        { state := .open, hasProtocol := true }
      protocols := Function.update core.protocols connection
        { connected := true } }
  send connection (greeting env connection)

/-- `Connection::parsePacket`. -/
def receive (env : Env) (connection : Nat) (data : Bytes) : ServerM Unit := do
  let server ← Prog.get
  let state := server.core.connections connection
  if state.state ≠ .open then
    inServer (Prog.modify fun core => core.closeConnection connection)
  else if state.receivedFirst then parsePacket env connection data
  else do
    inServer do
      Prog.modify fun core =>
        core.setConnection connection fun connection =>
          { connection with receivedFirst := true }
      parseFirstPacket connection
    parsePacket env connection data

/-- `setConnection(Connection_ptr())` and `Telnet::releaseProtocol`. -/
def releaseProtocol (protocol : Nat) : CoreM Unit := do
  Prog.modify fun core =>
    core.setProtocol protocol fun protocol =>
      { protocol with connected := false }
  let core ← Prog.get
  match (core.protocols protocol).user with
  | none => pure ()
  | some me => do
      let user ← deref me
      Prog.when (user.client = some protocol)
        (update me fun user => { user with client := none })

/-- `Connection::closeConnectionTask`. -/
def closeConnectionTask (connection : Nat) (pendingWrite : Bool) :
    CoreM Unit := do
  let core ← Prog.get
  let state := core.connections connection
  Prog.when (state.state = .requestClose) do
    Prog.when state.hasProtocol (releaseProtocol connection)
    Prog.modify fun core =>
      core.setConnection connection fun state =>
        { state with
          hasProtocol := false
          state := if pendingWrite then .closing else .closed }

/-- `Telnet::deleteProtocolTask`, which runs once the protocol has been
released; the list of things to free keeps the user until the shutdown. -/
def deleteProtocolTask (protocol : Nat) : CoreM Unit := do
  let core ← Prog.get
  Prog.when (¬ (core.connections protocol).hasProtocol)
    (Prog.modify fun core =>
      core.setProtocol protocol fun _ =>
        { user := none, connected := false, acceptPackets := false })

/-- What an event does. -/
def react (env : Env) : Event → ServerM Unit
  | .accept => inServer (acceptConnection env)
  | .packet connection data => receive env connection data
  | .closeRequest connection =>
      inServer (Prog.modify fun core => core.closeConnection connection)
  | .closeTask connection pendingWrite =>
      inServer (closeConnectionTask connection pendingWrite)
  | .deleteProtocol protocol => inServer (deleteProtocolTask protocol)

/-- A server with what it has shown so far. -/
structure World where
  /-- The state. -/
  server : Server := {}
  /-- What the server has shown. -/
  trace : List Obs := []
  /-- What has brought the server down. -/
  down : Option Abort := none

namespace World

/-- The server reacts to an event, unless it is down. -/
def step (env : Env) (world : World) (event : Event) : World :=
  match world.down with
  | some _ => world
  | none =>
      let run := (react env event).run world.server
      { server := run.state
        trace := world.trace ++ run.obs
        down := match run.val with
          | .ok _ => none
          | .error abort => some abort }

/-- A server that has just started, with this table of users. -/
def start (rows : List Database.Row) : World :=
  { server := { core := { db := { rows := rows } } } }

/-- The world after a sequence of events. -/
def after (env : Env) (rows : List Database.Row) (events : List Event) : World :=
  events.foldl (World.step env) (start rows)

/-- What holds at the start and is kept by every event holds after every
run. -/
theorem after_keeps
    {env : Env}
    {rows : List Database.Row}
    (holds : World → Prop)
    (atStart : holds (start rows))
    (kept : ∀ {world : World} (event : Event),
      holds world → holds (world.step env event))
    (events : List Event) : holds (after env rows events) :=
  List.foldlRecOn events (World.step env) atStart
    fun _ held event _ => kept event held

end World
end Network
end Lotospp
