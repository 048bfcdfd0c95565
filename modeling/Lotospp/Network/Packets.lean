import Lotospp.Network.Online

/-!
# Packets and runs

What a packet does, in terms of what the session of its connection reads: the
connection may be closed, the session may be new, and the handler of
`Telnet::parsePacket` deals with what the session throws.  `TraceInvariant`
lists what has to be checked for a property of the server and of its trace to
hold in every state of a run.
-/

namespace Lotospp
namespace Network

open Text Effect Common

/-- The server once a session has read. -/
def Server.read (server : Server) (me : Nat) (reader : Reader) : Server where
  core := reader.core
  buffers := Function.update server.buffers me reader.buffer

/-- An open connection has received a packet: the first one makes a session. -/
inductive Enters (connection : Nat) (core : Core) : Core → List Obs → Prop
  /-- It has received one before. -/
  | known : Enters connection core core []
  /-- It is the first one. -/
  | first
      {autoId : Nat}
      {autoID : AutoID}
      (new : ¬ (core.connections connection).receivedFirst)
      (constructed : (seen core connection).autoID.construct =
        some (autoId, autoID)) :
      Enters connection core (joined (seen core connection) connection autoId
        autoID) [.draw (seen core connection).autoID]

section Entering

variable {core entered : Core} {connection : Nat} {obs : List Obs}

theorem Enters.plain
    (enters : Enters connection core entered obs) :
    ∀ observation ∈ obs, observation.Plain := by
  cases enters <;> simp [Obs.Plain]

/-- The first packet finds the connection open. -/
theorem open_seen
    (isOpen : (core.connections connection).state = .open) :
    ((seen core connection).connections connection).state = .open := by
  rw [state_seen, isOpen]

theorem Enters.isOpen
    (enters : Enters connection core entered obs)
    (isOpen : (core.connections connection).state = .open) :
    (entered.connections connection).state = .open := by
  cases enters with
  | known => exact isOpen
  | first => exact open_seen isOpen

/-- The pointers stay in order. -/
theorem Linked.enters
    (linked : Linked core)
    (isOpen : (core.connections connection).state = .open)
    (enters : Enters connection core entered obs) : Linked entered := by
  cases enters with
  | known => exact linked
  | first new constructed =>
      have received : ((Network.seen core connection).connections
          connection).receivedFirst := by
        simp [Network.seen, Core.setConnection]
      exact (linked.seen connection).joined constructed (open_seen isOpen)
        (fun user client => new (linked.receivedFirst user connection client))
        received

end Entering

section Receiving

variable {env : Env} {server : Server} {connection : Nat} {data : Bytes}
variable {past : List Obs}
variable {post : Unit → Server → List Obs → Prop}
variable {exit : Abort → Server → List Obs → Prop}

/-- The session of an open connection reads a packet, and the handler deals
with what it throws. -/
theorem parsePacket_ends
    (linked : Linked server.core)
    (isOpen : (server.core.connections connection).state = .open)
    (ignored : post () server past)
    (reads : ∀ me, Session server.core me connection → data ≠ [] →
      ((uRead env me data).run ⟨server.core, server.buffers me⟩).Ends past
        (fun _ reader => post () (server.read me reader))
        fun abort reader past =>
          ((catchStage connection abort).run reader.core).Ends past
            (fun _ core => post () (server.read me ⟨core, reader.buffer⟩))
            fun abort core =>
              exit abort (server.read me ⟨core, reader.buffer⟩)) :
    ((parsePacket env connection data).run server).Ends past post exit := by
  rw [parsePacket, Prog.run_get_bind]
  cases hasUser : (server.core.protocols connection).user with
  | none => simpa using ignored
  | some me =>
      have session : Session server.core me connection :=
        ⟨linked, linked.opens me connection isOpen hasUser⟩
      have quiet : derefObs server.core me = [] := by
        simp [derefObs, session.alive]
      have derefs : (inServer (deref me)).run server =
          ⟨.ok (server.core.users me), server, []⟩ := by
        rw [inServer, Prog.run_zoom, run_deref, quiet]
      simp only
      rw [Prog.run_ite]
      split
      · rename_i accepted
        have read := reads me session accepted.2
        rw [Prog.run_handle, Prog.run_bind_ok derefs, Run.prepend_nil,
          inSession, Prog.run_zoom]
        generalize Prog.run (uRead env me data)
          { core := server.core, buffer := server.buffers me } = ran at read ⊢
        obtain ⟨abort | value, reached, obs⟩ := ran
        · simp only [Run.ends_error] at read
          simp only [inServer, Prog.run_zoom, Run.ends_prepend]
          exact read
        · exact read
      · simpa using ignored

/-- A packet arrives. -/
theorem receive_ends
    (linked : Linked server.core)
    (closed : (server.core.connections connection).state ≠ .open →
      post () { server with core := server.core.closeConnection connection }
        past)
    (hangs : (seen server.core connection).autoID.construct = none →
      exit .hang { server with core := seen server.core connection }
        (past ++ [.draw (seen server.core connection).autoID]))
    (ignored : ∀ entered obs, Enters connection server.core entered obs →
      (server.core.connections connection).state = .open →
      post () { server with core := entered } (past ++ obs))
    (reads : ∀ entered obs me, Enters connection server.core entered obs →
      (server.core.connections connection).state = .open →
      Session entered me connection → data ≠ [] →
      ((uRead env me data).run ⟨entered, server.buffers me⟩).Ends (past ++ obs)
        (fun _ reader => post () (server.read me reader))
        fun abort reader past =>
          ((catchStage connection abort).run reader.core).Ends past
            (fun _ core => post () (server.read me ⟨core, reader.buffer⟩))
            fun abort core =>
              exit abort (server.read me ⟨core, reader.buffer⟩)) :
    ((receive env connection data).run server).Ends past post exit := by
  rw [receive, Prog.run_get_bind]
  simp only
  split
  · rename_i notOpen
    rw [inServer, Prog.run_zoom, Prog.run_modify, Run.ends_ok, List.append_nil]
    exact closed notOpen
  · rename_i notClosed
    have isOpen := not_not.mp notClosed
    -- the session, new or not, reads the packet
    have parses : ∀ entered obs, Enters connection server.core entered obs →
        ((parsePacket env connection data).run
          { server with core := entered }).Ends (past ++ obs) post exit :=
      fun entered obs enters =>
        parsePacket_ends (linked.enters isOpen enters) (enters.isOpen isOpen)
          (ignored entered obs enters isOpen) fun me session nonempty =>
            reads entered obs me enters isOpen session nonempty
    split
    · have known := parses server.core [] .known
      rwa [List.append_nil] at known
    · rename_i first
      have ran := run_parseFirstPacket connection (seen server.core connection)
      have begins : (inServer do
          Prog.modify fun core =>
            core.setConnection connection fun connection =>
              { connection with receivedFirst := true }
          parseFirstPacket connection).run server =
          match (parseFirstPacket connection).run
              (seen server.core connection) with
          | ⟨val, core, obs⟩ => ⟨val, { server with core := core }, obs⟩ := rfl
      apply Prog.ends_bind
      rw [begins, ran]
      cases constructed : (seen server.core connection).autoID.construct with
      | none => exact hangs constructed
      | some answer => exact parses _ _ (.first first constructed)

end Receiving

/-! ## Runs -/

/-- A step keeps what holds however the reaction ends. -/
theorem World.step_keeps
    {env : Env}
    {holds : Server → List Obs → Prop}
    {world : World}
    {event : Event}
    (before : holds world.server world.trace)
    (reacts : ((react env event).run world.server).Ends world.trace
      (fun _ => holds) fun _ => holds) :
    holds (world.step env event).server (world.step env event).trace := by
  unfold World.step
  split
  · exact before
  · simp only
    generalize (react env event).run world.server = ran at reacts ⊢
    obtain ⟨abort | value, server, obs⟩ := ran
    · exact reacts
    · exact reacts

/-- At the start nothing points to anything. -/
theorem linked_start (rows : List Database.Row) :
    Linked (World.start rows).server.core where
  listed _ inside := absurd inside List.not_mem_nil
  nextUser _ _ := rfl
  drawn _ alive := absurd alive Bool.false_ne_true
  unique _ _ alive := absurd alive Bool.false_ne_true
  ids _ alive := absurd alive Bool.false_ne_true
  attached _ _ client := absurd client (Option.some_ne_none _).symm
  alive _ _ client := absurd client (Option.some_ne_none _).symm
  hasProtocol _ _ client := absurd client (Option.some_ne_none _).symm
  receivedFirst _ _ client := absurd client (Option.some_ne_none _).symm
  opens _ _ isOpen := absurd isOpen (by simp [World.start])
  connects _ isOpen := absurd isOpen (by simp [World.start])
  online _ _ isOpen := absurd isOpen (by simp [World.start])
  nextConnection _ _ := ⟨by simp [World.start], rfl⟩

/-- The property holds of the server once a session has read, and left the
shared state and its telnet buffer like this. -/
def OnceRead
    (inv : Server → List Obs → Prop)
    (server : Server)
    (me : Nat)
    (buffer : TeloptBuffer)
    (past : List Obs)
    (core : Core) : Prop :=
  inv (server.read me ⟨core, buffer⟩) past

/-- A property of the server and its trace that survives everything that the
server does, except that a connection is closed under its session. -/
structure TraceInvariant
    (env : Env)
    (inv : Server → List Obs → Prop) : Prop where
  /-- It survives the end of sessions. -/
  shrinks : ∀ server {reached past}, Linked server.core →
    Tidies server.core reached → inv server past →
    inv { server with core := reached } past
  /-- It survives a new session. -/
  joins : ∀ server {past connection autoId autoID}, Linked server.core →
    (server.core.connections connection).state = .open →
    server.core.autoID.construct = some (autoId, autoID) → inv server past →
    inv { server with
      core := joined server.core connection autoId autoID } past
  /-- It survives output. -/
  shows : ∀ {server past} obs, (∀ observation ∈ obs, observation.Plain) →
    inv server past → inv server (past ++ obs)
  /-- It survives what a session reads. -/
  reads : ∀ {server past me connection} data,
    Session server.core me connection →
    (server.core.connections connection).state = .open → data ≠ [] →
    inv server past →
    ((uRead env me data).run ⟨server.core, server.buffers me⟩).Ends past
      (fun _ reader past =>
        Linked reader.core ∧ inv (server.read me reader) past)
      fun abort reader past =>
        Left (OnceRead inv server me reader.buffer past)
          (OnceRead inv server me reader.buffer past) me connection abort
          reader.core

/-- The property survives the request to close a connection. -/
def SurvivesClosing (inv : Server → List Obs → Prop) : Prop :=
  ∀ server past connection, Linked server.core → inv server past →
    inv { server with core := server.core.closeConnection connection } past

/-- The pointers are in order and the property holds. -/
def Holds
    (inv : Server → List Obs → Prop)
    (server : Server)
    (past : List Obs) : Prop :=
  Linked server.core ∧ inv server past

/-- None of the events cuts a session off. -/
def World.Attached (env : Env) (world : World) : List Event → Prop
  | [] => True
  | event :: events =>
      ¬ event.CutsOff world.server.core ∧
        World.Attached env (world.step env event) events

instance (core : Core) (event : Event) : Decidable (event.CutsOff core) :=
  match event with
  | .closeRequest _ => inferInstanceAs (Decidable (_ ∧ _))
  | .accept | .packet .. | .closeTask .. | .deleteProtocol _ =>
      inferInstanceAs (Decidable False)

instance World.decidableAttached (env : Env) :
    (world : World) → (events : List Event) →
      Decidable (world.Attached env events)
  | _, [] => inferInstanceAs (Decidable True)
  | world, event :: events =>
      have := World.decidableAttached env (world.step env event) events
      inferInstanceAs (Decidable (_ ∧ _))

namespace TraceInvariant

variable {env : Env} {inv : Server → List Obs → Prop}
variable {server : Server} {past : List Obs}

/-- The handler ends the session that the packet has left. -/
theorem catches
    {core : Core}
    {buffer : TeloptBuffer}
    {me connection : Nat}
    {abort : Abort}
    (invariant : TraceInvariant env inv)
    (left : Left (OnceRead inv server me buffer past)
      (OnceRead inv server me buffer past) me connection abort core) :
    ((catchStage connection abort).run core).Ends past
      (fun _ core => Holds inv (server.read me ⟨core, buffer⟩))
      fun _ core => Holds inv (server.read me ⟨core, buffer⟩) := by
  -- what the handler tidies keeps the property
  have tidied : ∀ before after, Linked before → Tidies before after →
      OnceRead inv server me buffer past before →
        OnceRead inv server me buffer past after :=
    fun before _ => invariant.shrinks (server.read me ⟨before, buffer⟩)
  rcases left with ⟨session, holds, stages⟩ |
    ⟨rfl, before, other, session, found, holds, rfl⟩
  · by_cases isStage : ∃ stage, abort = .stage stage
    · obtain ⟨stage, rfl⟩ := isStage
      have isDisconnect := stages stage rfl
      subst isDisconnect
      rw [run_catchStage_disconnect session, Run.ends_ok, List.append_nil]
      exact ⟨session.abandoned.1,
        tidied core _ session.linked (.abandoned session) holds⟩
    · rw [run_catchStage_other (not_exists.mp isStage), Run.ends_error,
        List.append_nil]
      exact ⟨session.linked, holds⟩
  · rw [run_catchStage_swapped session found, Run.ends_ok, List.append_nil]
    refine ⟨(session.swapped found).1, ?_⟩
    rcases holds with holds | ended
    · exact tidied before _ session.linked (.swapped session found) holds
    · exact ended

/-- Whoever enters keeps the property. -/
theorem enters
    {connection : Nat}
    {entered : Core}
    {obs : List Obs}
    (invariant : TraceInvariant env inv)
    (isOpen : (server.core.connections connection).state = .open)
    (enters : Enters connection server.core entered obs)
    (holds : Holds inv server past) :
    Holds inv { server with core := entered } (past ++ obs) := by
  refine ⟨holds.1.enters isOpen enters,
    invariant.shows obs enters.plain ?_⟩
  cases enters with
  | known => exact holds.2
  | first new constructed =>
      exact invariant.joins { server with core := seen server.core connection }
        (holds.1.seen connection) (open_seen isOpen) constructed
        (invariant.shrinks server holds.1 (.seen _ connection) holds.2)

/-- A packet arrives. -/
theorem receives
    (invariant : TraceInvariant env inv)
    (connection : Nat)
    (data : Bytes)
    (holds : Holds inv server past) :
    ((receive env connection data).run server).Ends past
      (fun _ => Holds inv) fun _ => Holds inv := by
  refine receive_ends holds.1 ?_ ?_ ?_ ?_
  · intro notOpen
    exact ⟨holds.1.closeConnection connection, invariant.shrinks server holds.1
      (.closeConnection holds.1 fun isSession => notOpen isSession.1) holds.2⟩
  · intro _
    exact ⟨holds.1.seen connection, invariant.shows _ (by simp [Obs.Plain])
      (invariant.shrinks server holds.1 (.seen _ connection) holds.2)⟩
  · intro entered obs enters isOpen
    exact invariant.enters isOpen enters holds
  · intro entered obs me enters isOpen session nonempty
    have holdsEntered := invariant.enters isOpen enters holds
    have read := invariant.reads data session (enters.isOpen isOpen) nonempty
      holdsEntered.2
    exact read.mono (fun _ _ _ after => after) fun _ _ _ => invariant.catches

/-- Whatever happens, unless a session is cut off. -/
theorem reacts
    (invariant : TraceInvariant env inv)
    {event : Event}
    (attached : ¬ event.CutsOff server.core)
    (holds : Holds inv server past) :
    ((react env event).run server).Ends past
      (fun _ => Holds inv) fun _ => Holds inv := by
  cases event with
  | accept =>
      rw [react, inServer, Prog.run_zoom, run_acceptConnection]
      exact ⟨holds.1.accepted, invariant.shows _ (by simp [Obs.Plain])
        (invariant.shrinks server holds.1 (.accepted holds.1) holds.2)⟩
  | packet connection data => exact invariant.receives connection data holds
  | closeRequest connection =>
      rw [react, inServer, Prog.run_zoom, Prog.run_modify, Run.ends_ok,
        List.append_nil]
      exact ⟨holds.1.closeConnection connection, invariant.shrinks server holds.1
        (.closeConnection holds.1 attached) holds.2⟩
  | closeTask connection pendingWrite =>
      obtain ⟨obs, ran, plain⟩ :=
        run_closeConnectionTask connection pendingWrite server.core
      rw [react, inServer, Prog.run_zoom, ran]
      exact ⟨holds.1.closedDown connection pendingWrite,
        invariant.shows obs plain (invariant.shrinks server holds.1
          (.closedDown pendingWrite holds.1) holds.2)⟩
  | deleteProtocol protocol =>
      rw [react, inServer, Prog.run_zoom, run_deleteProtocolTask, Run.ends_ok,
        List.append_nil]
      exact ⟨holds.1.deleted protocol, invariant.shrinks server holds.1
        (.deleted _ protocol) holds.2⟩

/-- One event keeps the property, unless a session is cut off. -/
theorem steps
    (invariant : TraceInvariant env inv)
    {world : World}
    {event : Event}
    (attached : ¬ event.CutsOff world.server.core)
    (holds : Holds inv world.server world.trace) :
    Holds inv (world.step env event).server (world.step env event).trace :=
  World.step_keeps holds (invariant.reacts attached holds)

/-- A property that survives all events but these holds in every state of a
run without them. -/
theorem after_attached
    (invariant : TraceInvariant env inv)
    {world : World}
    {events : List Event}
    (attached : world.Attached env events)
    (start : Holds inv world.server world.trace) :
    Holds inv (events.foldl (World.step env) world).server
      (events.foldl (World.step env) world).trace := by
  induction events generalizing world with
  | nil => exact start
  | cons event events inductionHypothesis =>
      exact inductionHypothesis attached.2 (invariant.steps attached.1 start)

section Closing

variable (closes : SurvivesClosing inv)
include closes

/-- One event keeps a property that also survives the request to close a
connection. -/
theorem steps_all
    (invariant : TraceInvariant env inv)
    {world : World}
    (event : Event)
    (holds : Holds inv world.server world.trace) :
    Holds inv (world.step env event).server (world.step env event).trace := by
  by_cases attached : event.CutsOff world.server.core
  · apply World.step_keeps holds
    cases event with
    | closeRequest connection =>
        rw [react, inServer, Prog.run_zoom, Prog.run_modify, Run.ends_ok,
          List.append_nil]
        exact ⟨holds.1.closeConnection connection,
          closes _ _ connection holds.1 holds.2⟩
    | _ => exact attached.elim
  · exact invariant.steps attached holds

/-- Such a property holds in every state of a run if it holds at the start. -/
theorem after
    (invariant : TraceInvariant env inv)
    {rows : List Database.Row}
    (start : inv (World.start rows).server [])
    (events : List Event) :
    Holds inv (World.after env rows events).server
      (World.after env rows events).trace := by
  have holds : Holds inv (World.start rows).server (World.start rows).trace :=
    ⟨linked_start rows, start⟩
  exact World.after_keeps
    (fun world => Holds inv world.server world.trace) holds
    (fun event held => invariant.steps_all closes event held) events

end Closing

end TraceInvariant

end Network
end Lotospp
