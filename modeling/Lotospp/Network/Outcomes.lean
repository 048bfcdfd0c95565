import Lotospp.Common.Credentials
import Lotospp.Network.Invariant

/-!
# Invariants that know the outcomes of lines

`ServerInvariant` knows what a line can do, but not which of it the line did.
`OutcomeInvariant` is for properties of the credentials, of the users that
have not joined yet and of the lines handed over, when they are to be kept by
the outcome itself of every line.
-/

namespace Lotospp
namespace Network

open Text Effect Common Commands

/-- The states agree in the credentials of all users and in who joins next. -/
structure SameSessions (core reached : Core) : Prop where
  /-- The same user joins next. -/
  nextUser : reached.nextUser = core.nextUser
  /-- The users have the same credentials. -/
  credentials : ∀ user,
    (reached.users user).credentials = (core.users user).credentials

namespace SameSessions

variable {core reached : Core}

theorem of_shrinks
    (shrinks : Shrinks core reached)
    (nextUser : reached.nextUser = core.nextUser) :
    SameSessions core reached := by
  refine ⟨nextUser, fun user => ?_⟩
  obtain ⟨alive, client, same, -⟩ := shrinks.users user
  rw [same]
  rfl

theorem setUser
    {change : User → User}
    (same : ∀ user, (change user).credentials = user.credentials)
    (core : Core)
    (me : Nat) : SameSessions core (core.setUser me change) := by
  refine ⟨rfl, fun user => ?_⟩
  rw [Core.users_setUser]
  split
  · next isMe => rw [same, isMe]
  · rfl

theorem edits
    {me : Nat}
    (edits : core.Edits reached me) : SameSessions core reached := by
  obtain ⟨textBuffer, tbpos, -, rfl⟩ := edits
  exact setUser (fun _ => by rfl) core me

theorem negotiates
    {change : User → User}
    (negotiates : User.Negotiates change)
    (core : Core)
    (me : Nat) : SameSessions core (core.setUser me change) := by
  apply setUser
  intro user
  obtain ⟨cols, rows, type, flags, same, -⟩ := negotiates user
  rw [same]
  rfl

theorem destroyed (core : Core) (me : Nat) :
    SameSessions core (Network.destroyed core me) :=
  of_shrinks (.destroyed core me) (destroyed_rest core me).2.1

/-- The handler ends a session that has abandoned the login. -/
theorem abandoned (core : Core) (me : Nat) :
    SameSessions core (Network.abandoned core me) := by
  have ended := destroyed (core.disconnected me) me
  obtain ⟨connections, eq⟩ := core.disconnected_eq me
  refine ⟨ended.nextUser.trans ?_, fun user =>
    (ended.credentials user).trans ?_⟩
  · rw [eq]
  · rw [Core.users_disconnected]

end SameSessions

/-- A property of the credentials and of the lines handed over so far that
every outcome keeps. -/
structure OutcomeInvariant
    (env : Env)
    (inv : Core → List Handed → Prop) : Prop where
  /-- It holds at the start. -/
  start : ∀ rows, inv (World.start rows).server.core []
  /-- It depends on the credentials and on who joins next. -/
  same : ∀ {core reached past}, SameSessions core reached →
    inv core past → inv reached past
  /-- It survives a new session. -/
  joins : ∀ {core past} connection autoId autoID, inv core past →
    inv (joined core connection autoId autoID) past
  /-- It survives the end of the negotiation. -/
  notices : ∀ {core past me connection}, Session core me connection →
    inv core past → inv (core.setUser me User.noticed) past
  /-- It survives a line. -/
  line : ∀ {handed past connection},
    Session handed.core handed.user connection → inv handed.core past →
    inv (lineOutcome env handed.user handed.line handed.core).2
      (past ++ [handed])

namespace OutcomeInvariant

variable {env : Env} {inv : Core → List Handed → Prop}

/-- An ordinary byte keeps the property. -/
theorem takes
    {me connection : Nat}
    {core : Core}
    {past : List Handed}
    (invariant : OutcomeInvariant env inv)
    (session : Session core me connection)
    (byte : UInt8)
    (rest : Bytes)
    (holds : inv core past) :
    inv (byteOutcome env me byte core).2
      (past ++ (handedOf me byte rest core).toList) := by
  cases complete : handedOf me byte rest core with
  | none =>
      rw [Option.toList_none, List.append_nil]
      exact invariant.same (.edits (byteOutcome_edits env complete)) holds
  | some handed =>
      obtain ⟨-, line, eq, outcome⟩ := byteOutcome_line env complete
      have isMe : handed.user = me := congrArg Handed.user eq
      have state : handed.core = core.ended me handed.line :=
        congrArg Handed.core eq
      have edits : core.Edits handed.core me := by
        rw [state]
        exact Core.edits_ended line
      rw [outcome, ← isMe]
      exact invariant.line (isMe ▸ session.edits edits)
        (invariant.same (.edits edits) holds)

/-- The property is an invariant of a session that reads. -/
theorem reads
    (invariant : OutcomeInvariant env inv)
    (me connection : Nat) :
    ReadInvariant env me
      (fun core past => Session core me connection ∧ inv core past)
      (fun abort core past =>
        Left (fun _ => True) (fun _ => True) me connection abort core ∧
          inv core past) where
  negotiates := by
    rintro core past change changes ⟨session, holds⟩
    exact ⟨session.setUser changes.keeps,
      invariant.same (.negotiates changes core me) holds⟩
  notices := by
    rintro core past - ⟨session, holds⟩
    exact ⟨session.setUser fun _ => by rfl, invariant.notices session holds⟩
  faults := by
    rintro abort core past fault ⟨session, holds⟩
    have left := @ReadInvariant.faults env me _ _
      ((linked_invariant env).reads me connection) abort core past fault
      ⟨session, trivial⟩
    exact ⟨left, holds⟩
  takes := by
    rintro byte rest core past ⟨session, holds⟩
    have after := invariant.takes session byte rest holds
    have linked := @ReadInvariant.takes env me _ _
      ((linked_invariant env).reads me connection) byte rest core past
      ⟨session, trivial⟩
    generalize byteOutcome env me byte core = outcome at after linked ⊢
    obtain ⟨abort | value, reached⟩ := outcome
    · exact ⟨linked, after⟩
    · exact ⟨linked.1, after⟩

/-! ## Events -/

/-- The pointers are in order and the property holds. -/
def Traced
    (inv : Core → List Handed → Prop)
    (server : Server)
    (past : List Obs) : Prop :=
  Linked server.core ∧ inv server.core (handedIn past)

section Events

variable {server : Server} {past : List Obs}

/-- Sessions may have ended, with some output. -/
theorem shrinks
    {reached : Core}
    {obs : List Obs}
    (invariant : OutcomeInvariant env inv)
    (traced : Traced inv server past)
    (linked : Linked reached)
    (shrinks : Shrinks server.core reached)
    (nextUser : reached.nextUser = server.core.nextUser)
    (plain : ∀ observation ∈ obs, observation.Plain) :
    Traced inv { server with core := reached } (past ++ obs) := by
  refine ⟨linked, ?_⟩
  rw [handedIn_append, handedIn_of_plain plain, List.append_nil]
  exact invariant.same (.of_shrinks shrinks nextUser) traced.2

/-- Whoever enters keeps the property. -/
theorem enters
    {connection : Nat}
    {entered : Core}
    {obs : List Obs}
    (invariant : OutcomeInvariant env inv)
    (traced : Traced inv server past)
    (isOpen : (server.core.connections connection).state = .open)
    (enters : Enters connection server.core entered obs) :
    Traced inv { server with core := entered } (past ++ obs) := by
  refine ⟨traced.1.enters isOpen enters, ?_⟩
  rw [handedIn_append, handedIn_of_plain enters.plain, List.append_nil]
  cases enters with
  | known => exact traced.2
  | first new constructed =>
      apply invariant.joins
      exact invariant.same
        (.of_shrinks (.seen server.core connection) rfl) traced.2

/-- The handler deals with what a session has thrown. -/
theorem catches
    {me connection : Nat}
    {abort : Abort}
    {reader : Reader}
    (invariant : OutcomeInvariant env inv)
    (left : Left (fun _ => True) (fun _ => True) me connection abort
      reader.core)
    (holds : inv reader.core (handedIn past)) :
    ((catchStage connection abort).run reader.core).Ends past
      (fun _ core => Traced inv (server.read me ⟨core, reader.buffer⟩))
      fun _ core => Traced inv (server.read me ⟨core, reader.buffer⟩) := by
  rcases left with ⟨session, -, stages⟩ |
    ⟨rfl, before, other, session, found, -, same⟩
  · by_cases isStage : ∃ stage, abort = .stage stage
    · obtain ⟨stage, rfl⟩ := isStage
      obtain rfl := stages stage rfl
      rw [run_catchStage_disconnect session, Run.ends_ok, List.append_nil]
      exact ⟨session.abandoned.1,
        invariant.same (.abandoned reader.core me) holds⟩
    · rw [run_catchStage_other (not_exists.mp isStage), Run.ends_error,
        List.append_nil]
      exact ⟨session.linked, holds⟩
  · rw [same] at holds ⊢
    rw [run_catchStage_swapped session found, Run.ends_ok, List.append_nil]
    exact ⟨(session.swapped found).1,
      invariant.same (.destroyed _ other) holds⟩

/-- A packet arrives. -/
theorem receives
    (invariant : OutcomeInvariant env inv)
    (connection : Nat)
    (data : Bytes)
    (traced : Traced inv server past) :
    ((receive env connection data).run server).Ends past
      (fun _ => Traced inv) fun _ => Traced inv := by
  refine receive_ends traced.1 ?_ ?_ ?_ ?_
  · intro _
    have after := @shrinks env inv server past _ [] invariant traced
      (traced.1.closeConnection connection)
      (.closeConnection server.core connection) (by simp) (by simp)
    rwa [List.append_nil] at after
  · intro _
    exact invariant.shrinks traced (traced.1.seen connection)
      (.seen server.core connection) rfl (by simp [Obs.Plain])
  · exact fun entered obs enters isOpen =>
      invariant.enters traced isOpen enters
  · intro entered obs me enters isOpen session nonempty
    have holds := (invariant.enters traced isOpen enters).2
    have read := (invariant.reads me connection).uRead data
      ⟨entered, server.buffers me⟩ (past ++ obs) ⟨session, holds⟩
    refine read.mono (fun _ reader past after =>
      ⟨after.1.linked, after.2⟩) fun abort reader past left => ?_
    exact invariant.catches left.1 left.2

/-- Whatever happens. -/
theorem reacts
    (invariant : OutcomeInvariant env inv)
    (event : Event)
    (traced : Traced inv server past) :
    ((react env event).run server).Ends past
      (fun _ => Traced inv) fun _ => Traced inv := by
  cases event with
  | accept =>
      rw [react, inServer, Prog.run_zoom, run_acceptConnection]
      exact invariant.shrinks traced traced.1.accepted (.accepted traced.1) rfl
        (by simp [Obs.Plain])
  | packet connection data => exact invariant.receives connection data traced
  | closeRequest connection =>
      rw [react, inServer, Prog.run_zoom, Prog.run_modify, Run.ends_ok]
      exact invariant.shrinks traced (traced.1.closeConnection connection)
        (.closeConnection server.core connection) (by simp) (by simp)
  | closeTask connection pendingWrite =>
      obtain ⟨obs, ran, plain⟩ :=
        run_closeConnectionTask connection pendingWrite server.core
      rw [react, inServer, Prog.run_zoom, ran]
      refine invariant.shrinks traced
        (traced.1.closedDown connection pendingWrite)
        (.closedDown connection pendingWrite traced.1) ?_ plain
      obtain ⟨users, protocols, connections, eq, -⟩ :=
        @closedDown_eq server.core connection pendingWrite
      rw [eq]
  | deleteProtocol protocol =>
      rw [react, inServer, Prog.run_zoom, run_deleteProtocolTask, Run.ends_ok]
      refine invariant.shrinks traced (traced.1.deleted protocol)
        (.deleted server.core protocol) ?_ (by simp)
      unfold deleted
      split <;> rfl

end Events

/-- The property holds in every state of a run. -/
theorem after
    (invariant : OutcomeInvariant env inv)
    (rows : List Database.Row)
    (events : List Event) :
    Traced inv (World.after env rows events).server
      (World.after env rows events).trace := by
  have traced : Traced inv (World.start rows).server
      (World.start rows).trace := ⟨linked_start rows, invariant.start rows⟩
  exact World.after_keeps
    (fun world => Traced inv world.server world.trace) traced
    (fun event held => World.step_keeps held (invariant.reacts event held))
    events

/-- A property that always holds has held at every line. -/
theorem recorded (invariant : OutcomeInvariant env inv) :
    OutcomeInvariant env fun core past =>
      inv core past ∧ Recorded (fun _ => inv) past where
  start rows := ⟨invariant.start rows, .nil⟩
  same same holds := ⟨invariant.same same holds.1, holds.2⟩
  joins connection autoId autoID holds :=
    ⟨invariant.joins connection autoId autoID holds.1, holds.2⟩
  notices session holds := ⟨invariant.notices session holds.1, holds.2⟩
  line session holds :=
    ⟨invariant.line session holds.1, holds.2.append ⟨_, session⟩ holds.1⟩

end OutcomeInvariant

end Network
end Lotospp
