import Lotospp.Common.Returning
import Lotospp.Network.Kicks
import Lotospp.Network.Names
import Lotospp.Network.Passwords

/-!
# Packets that return

`Telnet::parsePacket` catches the stages that a session throws and nothing
else.  Whatever else is thrown brings the server down, and so does a packet
that never ends.  Neither happens as long as nothing is observed that keeps
session code from returning, and what is then printed with bytes of a client in
it can be counted.
-/

namespace Lotospp
namespace Network

open Text Effect Common Commands Strings

/-- The passwords are remembered, and have been at every line. -/
def Recalled (env : Env) (core : Core) (past : List Handed) : Prop :=
  Remembered env core past ∧ Recorded (fun _ => Remembered env) past

theorem recalled_invariant (env : Env) :
    OutcomeInvariant env (Recalled env) :=
  (remembered_invariant env).recorded

/-- A session that reads has its pointers. -/
theorem Recalled.not_trips
    {env : Env}
    {me : Nat}
    {core : Core}
    {past : List Obs}
    (recalled : Recalled env core (handedIn past)) : ¬ Trips me past := by
  rintro ⟨lines, handed, lines_eq, rfl, unready⟩
  obtain ⟨⟨connection, session⟩, remembered⟩ :=
    recalled.2 lines handed [] lines_eq
  rcases unready with missing | ⟨stage, missing⟩
  · rw [session.client] at missing
    exact absurd missing (by simp)
  · exact remembered.confirmable handed.user stage missing

/-- The sessions can read on: the users type their lines, identifiers are
counted in their range, and the pending bytes of those with an open connection
can be counted. -/
structure Healthy (server : Server) (past : List Obs) : Prop where
  /-- The lines of the users. -/
  lines : ∀ user, user < server.core.nextUser →
    TypesLine (server.core.users user) (typedBy user past)
  /-- The identifiers. -/
  counted : server.core.autoID.Counted
  /-- The pending bytes are in their buffers. -/
  fits : ∀ user, Online server.core user →
    ReadRule.Fits (server.buffers user)
  /-- Who has not joined has no pending bytes and has typed nothing. -/
  unused : ∀ user, server.core.nextUser ≤ user →
    server.buffers user = {} ∧ typedBy user past = []

section Healthy

variable {env : Env} {server : Server} {past : List Obs} {reached : Core}

/-- Who only loses its client types on. -/
theorem typing_of_ended
    {user other : User}
    (same : ∃ alive client,
      other = { user with alive := alive, client := client }) :
    other.typing = user.typing := by
  obtain ⟨alive, client, rfl⟩ := same
  rfl

/-- Sessions may have ended, with some output. -/
theorem Healthy.shrinks
    {obs : List Obs}
    (healthy : Healthy server past)
    (shrinks : Shrinks server.core reached)
    (nextUser : reached.nextUser = server.core.nextUser)
    (autoID : reached.autoID = server.core.autoID)
    (plain : ∀ observation ∈ obs, observation.Plain) :
    Healthy { server with core := reached } (past ++ obs) := by
  have typed : ∀ user, typedBy user (past ++ obs) = typedBy user past := by
    intro user
    rw [typedBy_append, typedBy_of_plain user plain, List.append_nil]
  refine ⟨fun user joined => ?_, ?_, fun user online => ?_,
    fun user later => ?_⟩
  · obtain ⟨alive, client, same, -⟩ := shrinks.users user
    rw [typed]
    exact (healthy.lines user (nextUser ▸ joined)).of_typing
      (typing_of_ended ⟨alive, client, same⟩)
  · simp only [autoID]
    exact healthy.counted
  · exact healthy.fits user (.of_shrinks shrinks online)
  · rw [typed]
    exact healthy.unused user (nextUser ▸ later)

/-- A session joins. -/
theorem Healthy.joined
    (healthy : Healthy server past)
    {connection autoId : Nat}
    {autoID : AutoID}
    (constructed : server.core.autoID.construct = some (autoId, autoID)) :
    Healthy { server with
      core := Network.joined server.core connection autoId autoID } past := by
  have nextUser : (Network.joined server.core connection autoId
      autoID).nextUser = server.core.nextUser + 1 := rfl
  refine ⟨fun user joined => ?_, healthy.counted.construct constructed,
    fun user online => ?_, fun user later => ?_⟩
  · simp only [nextUser] at joined
    simp only [users_joined]
    split
    · rename_i isNew
      rw [(healthy.unused user isNew.ge).2]
      exact ⟨by simp [newUser], Nat.zero_le _, rfl⟩
    · exact healthy.lines user (by omega)
  · by_cases isNew : user = server.core.nextUser
    · simp only
      rw [(healthy.unused user isNew.ge).1]
      exact ⟨Nat.le_refl _, Nat.two_pow_pos 31⟩
    · obtain ⟨held, client, isOpen⟩ := online
      rw [users_joined, if_neg isNew] at client
      exact healthy.fits user ⟨held, client, isOpen⟩
  · simp only [nextUser] at later
    exact healthy.unused user (by omega)

/-- Whoever enters keeps the sessions reading. -/
theorem Healthy.enters
    {connection : Nat}
    {entered : Core}
    {obs : List Obs}
    (healthy : Healthy server past)
    (enters : Enters connection server.core entered obs) :
    Healthy { server with core := entered } (past ++ obs) := by
  have seen : ∀ more : List Obs,
      (∀ observation ∈ more, observation.Plain) →
      Healthy { server with core := seen server.core connection }
        (past ++ more) := fun more plain =>
    healthy.shrinks (.seen server.core connection) rfl rfl plain
  cases enters with
  | known => rwa [List.append_nil]
  | first new constructed =>
      exact (seen _ (by simp [Obs.Plain])).joined constructed

/-- A session has read, and may have been ended. -/
theorem Healthy.read
    {me : Nat}
    {reader : Reader}
    {after : List Obs}
    (healthy : Healthy server past)
    (joined : me < server.core.nextUser)
    (reads : ReadsOn me server.core past reader.core after)
    (same : ∀ user, ∃ alive client, reached.users user =
      { reader.core.users user with alive := alive, client := client })
    (nextUser : reached.nextUser = reader.core.nextUser)
    (count : reached.autoID.count = reader.core.autoID.count)
    (others : ∀ user, user ≠ me → Online reached user →
      Online server.core user)
    (fits : Online reached me → ReadRule.Fits reader.buffer) :
    Healthy (server.read me ⟨reached, reader.buffer⟩) after := by
  have joins := nextUser.trans reads.nextUser
  refine ⟨fun user joinedUser => ?_, ?_, fun user online => ?_,
    fun user later => ?_⟩
  · have typing := typing_of_ended (same user)
    change user < reached.nextUser at joinedUser
    change TypesLine (reached.users user) _
    by_cases isMe : user = me
    · subst isMe
      exact reads.types.of_typing typing
    · obtain ⟨typingBefore, typed⟩ := reads.others user isMe
      rw [typed]
      exact (healthy.lines user (joins ▸ joinedUser)).of_typing
        (typing.trans typingBefore)
  · change AutoID.Counted reached.autoID
    rw [AutoID.Counted, count]
    exact reads.counted
  · change Online reached user at online
    by_cases isMe : user = me
    · subst isMe
      simpa [Server.read] using fits online
    · simpa [Server.read, isMe] using
        healthy.fits user (others user isMe online)
  · have atLeast : server.core.nextUser ≤ user := joins ▸ later
    have different : user ≠ me := by omega
    obtain ⟨unused, silent⟩ := healthy.unused user atLeast
    refine ⟨by simpa [Server.read, different] using unused, ?_⟩
    rw [(reads.others user different).2, silent]

end Healthy

/-! ## Events -/

/-- As long as nothing keeps session code from returning, the sessions can
read on. -/
def Stands (env : Env) (server : Server) (past : List Obs) : Prop :=
  SmoothPast env past → Healthy server past

section Events

variable {env : Env} {server : Server} {past : List Obs}

/-- The handler deals with what a session has thrown. -/
theorem Stands.catches
    {me connection : Nat}
    {abort : Abort}
    {reader : Reader}
    {after : List Obs}
    (stands : Stands env server past)
    (session : Session server.core me connection)
    (recalled : Recalled env reader.core (handedIn after))
    (left : Left (fun _ => True) (fun _ => True) me connection abort
      reader.core)
    (earlier : SmoothPast env after → SmoothPast env past)
    (watched : SmoothPast env after →
      Thrown env server.core me connection (handedIn past) abort
        reader.core after)
    (threw : ThrowsStage env me server.core past abort reader.core after) :
    ((catchStage connection abort).run reader.core).Ends after
      (fun _ core => Stands env (server.read me ⟨core, reader.buffer⟩))
      fun _ _ after => ¬ SmoothPast env after := by
  by_cases isStage : ∃ stage, abort = .stage stage
  · obtain ⟨stage, rfl⟩ := isStage
    obtain ⟨reached, ran, ended⟩ := left.ended
    rw [ran, Run.ends_ok, List.append_nil]
    intro smooth
    have thrown := watched smooth
    refine (stands (earlier smooth)).read session.joined (threw smooth).1
      ended.users ended.nextUser ended.count (fun user different online => ?_)
      fun online => absurd online ended.offline
    obtain ⟨onlineBefore, notTarget⟩ := ended.others user different online
    exact (thrown.others user different onlineBefore).resolve_right notTarget
  · rw [run_catchStage_other (not_exists.mp isStage), Run.ends_error,
      List.append_nil]
    intro smooth
    rcases (threw smooth).2 with thrown | trips
    · exact isStage thrown
    · exact recalled.not_trips trips

/-- A session reads a packet, and the handler deals with what it throws. -/
theorem Stands.reads
    {me connection : Nat}
    (stands : Stands env server past)
    (recalled : Recalled env server.core (handedIn past))
    (session : Session server.core me connection)
    (isOpen : (server.core.connections connection).state = .open)
    (data : Bytes) :
    ((uRead env me data).run ⟨server.core, server.buffers me⟩).Ends past
      (fun _ reader => Stands env (server.read me reader))
      fun abort reader after =>
        ((catchStage connection abort).run reader.core).Ends after
          (fun _ core => Stands env (server.read me ⟨core, reader.buffer⟩))
          fun _ _ after => ¬ SmoothPast env after := by
  have fits : SmoothPast env past → ReadRule.Fits (server.buffers me) :=
    fun smooth => (stands smooth).fits me ⟨connection, session.client, isOpen⟩
  have earlier : ((uRead env me data).run
      ⟨server.core, server.buffers me⟩).Ends past
      (fun _ _ after => SmoothPast env after → SmoothPast env past)
      fun _ _ after => SmoothPast env after → SmoothPast env past :=
    Run.ends_of_forall _ (fun _ _ _ smooth => smooth.of_append)
      fun _ _ _ smooth => smooth.of_append
  have recalls := ((recalled_invariant env).reads me connection).uRead data
    ⟨server.core, server.buffers me⟩ past ⟨session, recalled⟩
  have watches := @Session.watches me connection
    ⟨server.core, server.buffers me⟩ past session env data (SmoothPast env)
    SmoothPast.of_append (fun smooth => smooth.next) fits
  have read := @uRead_smooth env me data ⟨server.core, server.buffers me⟩ past
    fits (fun smooth => (stands smooth).lines me session.joined)
    fun smooth => (stands smooth).counted
  refine (((earlier.and recalls).and watches).and read).mono ?_ ?_
  · rintro _ reader after ⟨⟨⟨past, recalled⟩, watched⟩, smoothly⟩ smooth
    obtain ⟨readsOn, fitsAfter⟩ := smoothly smooth
    exact (stands (past smooth)).read session.joined readsOn
      (fun user => ⟨_, _, rfl⟩) rfl rfl (watched smooth).1.others
      fun _ => fitsAfter
  · rintro abort reader after ⟨⟨⟨past, left, recalled⟩, watched⟩, threw⟩
    exact stands.catches session recalled left past watched threw

/-- A packet arrives. -/
theorem Stands.receives
    (stands : Stands env server past)
    (traced : OutcomeInvariant.Traced (Recalled env) server past)
    (connection : Nat)
    (data : Bytes) :
    ((receive env connection data).run server).Ends past
      (fun _ => Stands env) fun _ _ after => ¬ SmoothPast env after := by
  have enters : ∀ entered obs, Enters connection server.core entered obs →
      Stands env { server with core := entered } (past ++ obs) :=
    fun entered obs enters smooth =>
      (stands smooth.of_append).enters enters
  refine receive_ends traced.1 ?_ ?_ ?_ ?_
  · intro _ smooth
    have after := (stands smooth).shrinks
      (.closeConnection server.core connection) (by simp) (by simp)
      (show ∀ observation ∈ [], Obs.Plain observation by simp)
    rwa [List.append_nil] at after
  · intro none smooth
    have free : (seen server.core connection).autoID.Free := smooth.next
    obtain ⟨autoId, after, constructed⟩ :=
      free.construct (stands smooth.of_append).counted
    rw [none] at constructed
    exact absurd constructed (by simp)
  · exact fun entered obs entering _ => enters entered obs entering
  · intro entered obs me entering isOpen session _
    have tracedAfter := (recalled_invariant env).enters traced isOpen entering
    exact (enters entered obs entering).reads tracedAfter.2 session
      (entering.isOpen isOpen) data

/-- Whatever happens. -/
theorem Stands.reacts
    (stands : Stands env server past)
    (traced : OutcomeInvariant.Traced (Recalled env) server past)
    (event : Event) :
    ((react env event).run server).Ends past
      (fun _ => Stands env) fun _ _ after => ¬ SmoothPast env after := by
  have shrinks : ∀ (reached : Core) (obs : List Obs),
      Shrinks server.core reached →
      reached.nextUser = server.core.nextUser →
      reached.autoID = server.core.autoID →
      (∀ observation ∈ obs, observation.Plain) →
      Stands env { server with core := reached } (past ++ obs) :=
    fun reached obs shrinks nextUser autoID plain smooth =>
      (stands smooth.of_append).shrinks shrinks nextUser autoID plain
  cases event with
  | accept =>
      rw [react, inServer, Prog.run_zoom, run_acceptConnection]
      exact shrinks _ _ (.accepted traced.1) rfl rfl (by simp [Obs.Plain])
  | packet connection data => exact stands.receives traced connection data
  | closeRequest connection =>
      rw [react, inServer, Prog.run_zoom, Prog.run_modify, Run.ends_ok]
      exact shrinks _ _ (.closeConnection server.core connection) (by simp)
        (by simp) (by simp)
  | closeTask connection pendingWrite =>
      obtain ⟨obs, ran, plain⟩ :=
        run_closeConnectionTask connection pendingWrite server.core
      obtain ⟨users, protocols, connections, eq, -⟩ :=
        @closedDown_eq server.core connection pendingWrite
      rw [react, inServer, Prog.run_zoom, ran]
      refine shrinks _ _ (.closedDown connection pendingWrite traced.1) ?_ ?_
        plain
      · rw [eq]
      · rw [eq]
  | deleteProtocol protocol =>
      rw [react, inServer, Prog.run_zoom, run_deleteProtocolTask, Run.ends_ok]
      refine shrinks _ _ (.deleted server.core protocol) ?_ ?_ (by simp)
      · unfold deleted
        split <;> rfl
      · unfold deleted
        split <;> rfl

end Events

/-! ## Runs -/

/-- As long as nothing keeps session code from returning, the server is up and
its sessions can read on. -/
def World.StaysUp (env : Env) (world : World) : Prop :=
  OutcomeInvariant.Traced (Recalled env) world.server world.trace ∧
    (SmoothPast env world.trace →
      world.down = none ∧ Healthy world.server world.trace)

/-- One event leaves the server up. -/
theorem World.staysUp_step
    {env : Env}
    {world : World}
    (up : world.StaysUp env)
    (event : Event) : (world.step env event).StaysUp env := by
  obtain ⟨traced, stands⟩ := up
  unfold World.step
  split
  · exact ⟨traced, stands⟩
  · have reacts := ((recalled_invariant env).reacts event traced).and
      (Stands.reacts (fun smooth => (stands smooth).2) traced event)
    simp only
    generalize (react env event).run world.server = ran at reacts ⊢
    obtain ⟨abort | value, server, obs⟩ := ran
    · exact ⟨reacts.1, fun smooth => absurd smooth reacts.2⟩
    · exact ⟨reacts.1, fun smooth => ⟨rfl, reacts.2 smooth⟩⟩

/-- The server is up at the start. -/
theorem World.staysUp_start (env : Env) (rows : List Database.Row) :
    (World.start rows).StaysUp env := by
  refine ⟨⟨linked_start rows, (recalled_invariant env).start rows⟩,
    fun _ => ⟨rfl, ?_⟩⟩
  have counted : AutoID.Counted {} := ⟨by decide, by decide⟩
  refine ⟨fun user joined => absurd joined (Nat.not_lt_zero user), counted,
    fun _ _ => ?_, fun _ _ => ⟨rfl, rfl⟩⟩
  exact ⟨Nat.le_refl _, Nat.two_pow_pos 31⟩

theorem World.staysUp_after
    (env : Env)
    (rows : List Database.Row)
    (events : List Event) : (World.after env rows events).StaysUp env :=
  World.after_keeps (World.StaysUp env) (World.staysUp_start env rows)
    (fun event up => World.staysUp_step up event) events

/-! ## What is printed -/

/-- No name is longer than the name entry allows. -/
def ShortNamed (credentials : Credentials) : Prop :=
  credentials.name.length ≤ maxUsernameLen

theorem shortNamed_invariant (env : Env) :
    CredentialInvariant env (fun _ => True) ShortNamed where
  fresh := Nat.zero_le _
  joins := Nat.zero_le _
  notices short := short
  line := by
    intro handed after _ becomes short
    cases becomes with
    | names entered => exact (properName_length handed.line).le.trans entered.2.2
    | stays => exact short
    | retries => exact short
    | chooses => exact short
    | throws => exact short
    | admits => exact short
    | confirms => exact short
    | parses => exact short

/-- In every run in which nothing is observed that keeps session code from
returning, every packet returns: nothing but the stages, which
`Telnet::parsePacket` catches, is thrown.  What a client makes session code
print can be counted, so that `stringFormat` does not throw either; the other
texts are made of constants, names, numbers and the configuration. -/
theorem packets_return
    (env : Env)
    (rows : List Database.Row)
    (events : List Event)
    (smooth : SmoothPast env (World.after env rows events).trace) :
    (World.after env rows events).down = none ∧
      ∀ observation ∈ (World.after env rows events).trace,
        observation.Prints := by
  refine ⟨((World.staysUp_after env rows events).2 smooth).1,
    fun observation inside => ?_⟩
  obtain ⟨-, -, recorded⟩ :=
    (shortNamed_invariant env).server.recorded.after rows events
  obtain ⟨before, after, split⟩ := List.append_of_mem inside
  rw [split] at smooth
  refine smooth.next.prints fun line isLine => ?_
  have handedOver : line ∈ handedIn (World.after env rows events).trace := by
    rw [split, isLine]
    simp [handedIn]
  obtain ⟨earlier, later, lines⟩ := List.append_of_mem handedOver
  exact (recorded earlier line later lines).2 (fun _ _ => trivial) line.user

/-- Ann registers, is at the command line and speaks. -/
def annSpeaks : List Event :=
  [.accept, .packet 0 (lit "ann\rsecret\rsecret\r\r"),
    .packet 0 (lit "say hi\r")]

/-- All her packets return. -/
theorem packets_return_ann :
    (World.after (Env.testing []) [] annSpeaks).down = none :=
  (packets_return (Env.testing []) [] annSpeaks (by decide +kernel)).1

/-- Ann registers, quits and comes back with her password. -/
def annComesBack : List Event :=
  [.accept, .packet 0 (lit "ann\rsecret\rsecret\r\r"), .packet 0 (lit "quit\r"),
    .accept, .packet 1 (lit "ann\rsecret\r")]

/-- Ann registers and types a long word before she speaks. -/
def annTypesBefore : List Event :=
  [.accept, .packet 0 (lit "ann\rsecret\rsecret\r\r"),
    .packet 0 (lit "aaaaaaaaaa bb\r"), .packet 0 (lit "say hi\r")]

/-- The exceptions of a level that is looked up, and of an offset that an
earlier line has recorded, are caught by nobody. -/
theorem exceptions_escape :
    (World.after (Env.testing []) [] annComesBack).down =
        some .enumConversion ∧
      (World.after (Env.testing []) [] annTypesBefore).down =
        some .outOfRange := by
  decide +kernel

end Network
end Lotospp
