import Lotospp.Network.Linked

/-!
# Connections that come and go

What the server does outside the sessions: it accepts, closes and releases
connections, creates users and destroys them.  Each of these steps keeps the
pointers, and no session gains anything by them.
-/

namespace Lotospp
namespace Network

open Text Effect Common

/-- Sessions may have ended: a user may have lost its client or been
destroyed, and connections may have been closed. -/
structure Shrinks (core reached : Core) : Prop where
  /-- The users are the same but for being alive and having a client. -/
  users : ∀ user, ∃ alive client,
    reached.users user =
        { core.users user with alive := alive, client := client } ∧
      (alive = true → (core.users user).alive = true)
  /-- No user has a new client. -/
  clients : ∀ user connection,
    (reached.users user).client = some connection →
      (core.users user).client = some connection
  /-- The connection of a client does not open again. -/
  active : ∀ user connection,
    (reached.users user).client = some connection →
      (reached.connections connection).state = .open →
        (core.connections connection).state = .open
  /-- The database is the same. -/
  db : reached.db = core.db
  /-- Users leave the list, but none joins it. -/
  listed : reached.listUser.Sublist core.listUser

namespace Shrinks

variable {core middle reached : Core}

theorem trans
    (first : Shrinks core middle)
    (second : Shrinks middle reached) : Shrinks core reached where
  users user := by
    obtain ⟨alive, client, same, lives⟩ := first.users user
    obtain ⟨aliveToo, clientToo, sameToo, livesToo⟩ := second.users user
    refine ⟨aliveToo, clientToo, by rw [sameToo, same], fun isAlive => ?_⟩
    have before := livesToo isAlive
    rw [same] at before
    exact lives before
  clients user connection client :=
    first.clients user connection (second.clients user connection client)
  active user connection client isOpen :=
    first.active user connection (second.clients user connection client)
      (second.active user connection client isOpen)
  db := second.db.trans first.db
  listed := second.listed.trans first.listed

/-- The users are the same, and no client's connection opens. -/
theorem of_users
    (users : reached.users = core.users)
    (active : ∀ user connection,
      (core.users user).client = some connection →
        (reached.connections connection).state = .open →
          (core.connections connection).state = .open)
    (db : reached.db = core.db)
    (listed : reached.listUser = core.listUser) : Shrinks core reached where
  users user := ⟨(core.users user).alive, (core.users user).client,
    by rw [users], fun isAlive => isAlive⟩
  clients user connection client := by rwa [users] at client
  active user connection client := by
    rw [users] at client
    exact active user connection client
  db := db
  listed := by rw [listed]

theorem refl (core : Core) : Shrinks core core :=
  of_users rfl (fun _ _ _ isOpen => isOpen) rfl rfl

/-- A connection is closed. -/
theorem closeConnection (core : Core) (connection : Nat) :
    Shrinks core (core.closeConnection connection) := by
  refine of_users (by simp) (fun user other _ isOpen => ?_) (by simp) (by simp)
  by_contra closed
  exact core.closing_closeConnection connection closed isOpen

end Shrinks

/-! ## Accepting a connection -/

/-- A connection has been accepted. -/
def accepted (core : Core) : Core :=
  { core with
    nextConnection := core.nextConnection + 1
    connections := Function.update core.connections core.nextConnection
      { state := .open, hasProtocol := true }
    protocols := Function.update core.protocols core.nextConnection
      { connected := true } }

theorem run_acceptConnection (env : Env) (core : Core) :
    (acceptConnection env).run core =
      ⟨.ok (), accepted core,
        [.wrote core.nextConnection (greeting env core.nextConnection)]⟩ := by
  rw [acceptConnection, Prog.run_get_bind, Prog.run_modify_bind]
  change (send _ _).run (accepted core) = _
  simp [sendObs, accepted]

/-- The connection accepted next is nobody's client. -/
theorem Linked.client_ne_next
    {core : Core}
    (linked : Linked core)
    {user connection : Nat}
    (client : (core.users user).client = some connection) :
    connection ≠ core.nextConnection := by
  rintro rfl
  have attached := (linked.attached user _ client).user
  rw [(linked.nextConnection _ (le_refl _)).2] at attached
  exact absurd attached (by simp)

theorem Linked.accepted
    {core : Core}
    (linked : Linked core) : Linked (Network.accepted core) where
  __ := linked.toRegistered
  attached user connection client := by
    have different := linked.client_ne_next client
    obtain ⟨-, hasUser, connected⟩ := linked.attached user connection client
    exact ⟨client, by simpa [Network.accepted, different] using hasUser,
      by simpa [Network.accepted, different] using connected⟩
  alive := linked.alive
  hasProtocol user connection client := by
    have different := linked.client_ne_next client
    simpa [Network.accepted, different] using
      linked.hasProtocol user connection client
  receivedFirst user connection client := by
    have different := linked.client_ne_next client
    simpa [Network.accepted, different] using
      linked.receivedFirst user connection client
  opens user connection isOpen hasUser := by
    by_cases same : connection = core.nextConnection
    · simp [Network.accepted, same] at hasUser
    · simp only [Network.accepted, ne_eq, same, not_false_eq_true,
        Function.update_of_ne] at isOpen hasUser
      exact linked.opens user connection isOpen hasUser
  connects connection isOpen := by
    by_cases same : connection = core.nextConnection
    · simp [Network.accepted, same]
    · simp only [Network.accepted, ne_eq, same, not_false_eq_true,
        Function.update_of_ne] at isOpen ⊢
      exact linked.connects connection isOpen
  online user connection isOpen client := by
    have different := linked.client_ne_next client
    simp only [Network.accepted, ne_eq, different, not_false_eq_true,
      Function.update_of_ne] at isOpen
    exact linked.online user connection isOpen client
  nextConnection connection fresh := by
    have later : core.nextConnection + 1 ≤ connection := fresh
    have different : connection ≠ core.nextConnection := by omega
    simpa [Network.accepted, different] using
      linked.nextConnection connection (by omega)

theorem Shrinks.accepted
    {core : Core}
    (linked : Linked core) : Shrinks core (Network.accepted core) := by
  refine .of_users rfl (fun user connection client isOpen => ?_) rfl rfl
  have different := linked.client_ne_next client
  simpa [Network.accepted, different] using isOpen

/-! ## The first packet -/

/-- The first packet of a connection has been seen. -/
def seen (core : Core) (connection : Nat) : Core :=
  core.setConnection connection fun state =>
    { state with receivedFirst := true }

theorem state_seen (core : Core) (connection other : Nat) :
    ((seen core connection).connections other).state =
      (core.connections other).state := by
  simp only [seen, Core.setConnection, Function.update_apply]
  split
  · rename_i same
    rw [same]
  · rfl

theorem hasProtocol_seen (core : Core) (connection other : Nat) :
    ((seen core connection).connections other).hasProtocol =
      (core.connections other).hasProtocol := by
  simp only [seen, Core.setConnection, Function.update_apply]
  split
  · rename_i same
    rw [same]
  · rfl

theorem receivedFirst_seen
    {core : Core}
    {other : Nat}
    (received : (core.connections other).receivedFirst)
    (connection : Nat) :
    ((seen core connection).connections other).receivedFirst := by
  simp only [seen, Core.setConnection, Function.update_apply]
  split
  · rfl
  · exact received

theorem Linked.seen
    {core : Core}
    (linked : Linked core)
    (connection : Nat) : Linked (Network.seen core connection) where
  __ := linked.toRegistered
  attached user other client := by
    obtain ⟨-, hasUser, connected⟩ := linked.attached user other client
    exact ⟨client, hasUser, connected⟩
  alive := linked.alive
  hasProtocol user other client := by
    rw [hasProtocol_seen]
    exact linked.hasProtocol user other client
  receivedFirst user other client :=
    receivedFirst_seen (linked.receivedFirst user other client) connection
  opens user other isOpen hasUser := by
    rw [state_seen] at isOpen
    exact linked.opens user other isOpen hasUser
  connects other isOpen := by
    rw [state_seen] at isOpen
    rw [hasProtocol_seen]
    exact linked.connects other isOpen
  online user other isOpen client := by
    rw [state_seen] at isOpen
    exact linked.online user other isOpen client
  nextConnection other fresh := by
    rw [state_seen]
    exact linked.nextConnection other fresh

theorem Shrinks.seen (core : Core) (connection : Nat) :
    Shrinks core (Network.seen core connection) := by
  refine .of_users rfl (fun user other _ isOpen => ?_) rfl rfl
  rwa [state_seen] at isOpen

/-- A user that has just been created for a connection. -/
def newUser (autoId connection : Nat) : User :=
  { alive := true, autoId := autoId, id := autoId ||| idRange
    client := some connection, stage := .loginId }

/-- The user of a connection has been created. -/
def joined (core : Core) (connection autoId : Nat) (autoID : AutoID) : Core :=
  { core with
    autoID := autoID
    nextUser := core.nextUser + 1
    users := Function.update core.users core.nextUser
      (newUser autoId connection)
    listUser := Core.insertKey (autoId ||| idRange) core.nextUser core.listUser
    protocols := Function.update core.protocols connection
      { core.protocols connection with
        user := some core.nextUser, acceptPackets := true } }

theorem run_parseFirstPacket (connection : Nat) (core : Core) :
    (parseFirstPacket connection).run core =
      match core.autoID.construct with
      | none => ⟨.error .hang, core, [.draw core.autoID]⟩
      | some (autoId, autoID) =>
          ⟨.ok (), joined core connection autoId autoID,
            [.draw core.autoID]⟩ := by
  rw [parseFirstPacket, Prog.run_get_bind, Prog.run_emit_bind]
  cases core.autoID.construct with
  | none => rfl
  | some answer =>
      simp only [Prog.run_modify_bind, Prog.run_modify, Run.prepend_mk,
        List.append_nil]
      simp [joined, newUser, Core.addList, Core.setProtocol]

theorem Core.mem_insertKey
    {key value : Nat}
    {list : List (Nat × Nat)}
    {entry : Nat × Nat}
    (inside : entry ∈ Core.insertKey key value list) :
    entry = (key, value) ∨ entry ∈ list := by
  induction list with
  | nil => exact .inl (by simpa [Core.insertKey] using inside)
  | cons first rest inductionHypothesis =>
      unfold Core.insertKey at inside
      split at inside
      · rcases List.mem_cons.mp inside with same | inside
        · exact .inl same
        · exact .inr inside
      · split at inside
        · rcases List.mem_cons.mp inside with same | inside
          · exact .inl same
          · exact .inr (List.mem_cons_of_mem _ inside)
        · rcases List.mem_cons.mp inside with same | inside
          · exact .inr (by simp [same])
          · rcases inductionHypothesis inside with same | inside
            · exact .inl same
            · exact .inr (List.mem_cons_of_mem _ inside)

theorem Core.mem_insertKey_self (key value : Nat) (list : List (Nat × Nat)) :
    (key, value) ∈ Core.insertKey key value list := by
  induction list with
  | nil => simp [Core.insertKey]
  | cons first rest inductionHypothesis =>
      unfold Core.insertKey
      split
      · exact List.mem_cons_self ..
      · split
        · exact List.mem_cons_self ..
        · exact List.mem_cons_of_mem _ inductionHypothesis

theorem Core.mem_insertKey_of_ne
    {key value : Nat}
    {list : List (Nat × Nat)}
    {entry : Nat × Nat}
    (inside : entry ∈ list)
    (different : entry.1 ≠ key) :
    entry ∈ Core.insertKey key value list := by
  induction list with
  | nil => exact absurd inside (by simp)
  | cons first rest inductionHypothesis =>
      unfold Core.insertKey
      split
      · exact List.mem_cons_of_mem _ inside
      · split
        · rename_i same
          rcases List.mem_cons.mp inside with rfl | inside
          · exact absurd same.symm different
          · exact List.mem_cons_of_mem _ inside
        · rcases List.mem_cons.mp inside with rfl | inside
          · exact List.mem_cons_self ..
          · exact List.mem_cons_of_mem _ (inductionHypothesis inside)

section Joined

variable {core : Core} {connection autoId : Nat} {autoID : AutoID}

theorem users_joined (user : Nat) :
    (joined core connection autoId autoID).users user =
      if user = core.nextUser then newUser autoId connection
      else core.users user := by
  simp [joined, Function.update_apply]

/-- A live user is older than the new one. -/
theorem Linked.ne_nextUser
    (linked : Linked core)
    {user : Nat}
    (alive : (core.users user).alive) : user ≠ core.nextUser := by
  rintro rfl
  rw [linked.nextUser _ (le_refl _)] at alive
  exact absurd alive (by simp)

theorem Registered.joined
    (registered : Registered core)
    (constructed : core.autoID.construct = some (autoId, autoID)) :
    Registered (joined core connection autoId autoID) := by
  obtain ⟨fresh, small⟩ := AutoID.construct_fresh constructed
  have list := AutoID.construct_list constructed
  have older : ∀ user, (core.users user).alive →
      user ≠ core.nextUser := by
    rintro user alive rfl
    rw [registered.nextUser _ (le_refl _)] at alive
    exact absurd alive (by simp)
  have drawn : ∀ user, (core.users user).alive →
      (core.users user).autoId ≠ autoId := by
    rintro user alive rfl
    exact fresh (registered.drawn user alive)
  refine ⟨?_, ?_, ?_, ?_, ?_⟩
  · intro entry inside
    rw [users_joined]
    rcases Core.mem_insertKey inside with rfl | inside
    · simp [newUser]
    · obtain ⟨alive, id⟩ := registered.listed entry inside
      rw [if_neg (older _ alive)]
      exact ⟨alive, id⟩
  · intro user later
    have newer : core.nextUser + 1 ≤ user := later
    rw [users_joined, if_neg (by omega)]
    exact registered.nextUser user (by omega)
  · intro user
    rw [users_joined]
    change _ → _ ∈ autoID.list
    rw [list]
    split
    · simp [newUser]
    · exact fun alive => List.mem_cons_of_mem _ (registered.drawn user alive)
  · intro user other
    rw [users_joined, users_joined]
    split
    · rename_i isNew
      split
      · rename_i isNewToo
        exact fun _ _ _ => isNew.trans isNewToo.symm
      · exact fun _ alive same => absurd same.symm (drawn other alive)
    · split
      · exact fun alive _ same => absurd same (drawn user alive)
      · exact registered.unique user other
  · intro user
    rw [users_joined]
    split
    · exact fun _ => ⟨small, rfl⟩
    · exact registered.ids user

/-- A connection whose first packet arrives now gets its own user. -/
theorem Linked.joined
    (linked : Linked core)
    (constructed : core.autoID.construct = some (autoId, autoID))
    (isOpen : (core.connections connection).state = .open)
    (unused : ∀ user, (core.users user).client ≠ some connection)
    (received : (core.connections connection).receivedFirst) :
    Linked (joined core connection autoId autoID) := by
  obtain ⟨fresh, small⟩ := AutoID.construct_fresh constructed
  obtain ⟨connected, hasProtocol⟩ := linked.connects connection isOpen
  have protocols : ∀ other, other ≠ connection →
      (Network.joined core connection autoId autoID).protocols other =
        core.protocols other := by
    intro other different
    simp [Network.joined, different]
  have clients : ∀ user other,
      ((Network.joined core connection autoId autoID).users user).client =
          some other →
        (user = core.nextUser ∧ other = connection) ∨
          (user ≠ core.nextUser ∧ other ≠ connection ∧
            (core.users user).client = some other) := by
    intro user other
    rw [users_joined]
    split
    · rename_i isNew
      exact fun same => .inl ⟨isNew, (Option.some.inj same).symm⟩
    · rename_i notNew
      intro client
      refine .inr ⟨notNew, ?_, client⟩
      rintro rfl
      exact unused user client
  refine
    { linked.toRegistered.joined constructed with
      attached := ?_, alive := ?_, hasProtocol := ?_, receivedFirst := ?_,
      opens := ?_, connects := ?_, online := ?_, nextConnection := ?_ }
  · intro user other client
    rcases clients user other client with ⟨rfl, rfl⟩ | ⟨-, different, before⟩
    · exact ⟨client, by simp [Network.joined],
        by simpa [Network.joined] using connected⟩
    · obtain ⟨-, hasUser, isConnected⟩ := linked.attached user other before
      exact ⟨client, by rw [protocols other different, hasUser],
        by rw [protocols other different, isConnected]⟩
  · intro user other client
    rw [users_joined]
    rcases clients user other client with ⟨rfl, rfl⟩ | ⟨notNew, -, before⟩
    · simp [newUser]
    · rw [if_neg notNew]
      exact linked.alive user other before
  · intro user other client
    rcases clients user other client with ⟨rfl, rfl⟩ | ⟨-, -, before⟩
    · exact hasProtocol
    · exact linked.hasProtocol user other before
  · intro user other client
    rcases clients user other client with ⟨rfl, rfl⟩ | ⟨-, -, before⟩
    · exact received
    · exact linked.receivedFirst user other before
  · intro user other isOpenToo hasUser
    rw [users_joined]
    by_cases same : other = connection
    · subst same
      have isNew : user = core.nextUser := by
        simpa [Network.joined, eq_comm] using hasUser
      simp [isNew, newUser]
    · rw [protocols other same] at hasUser
      have client := linked.opens user other isOpenToo hasUser
      rw [if_neg (linked.ne_nextUser (linked.alive user other client)), client]
  · intro other isOpenToo
    obtain ⟨isConnected, has⟩ := linked.connects other isOpenToo
    refine ⟨?_, has⟩
    by_cases same : other = connection
    · subst same
      simpa [Network.joined] using isConnected
    · rw [protocols other same, isConnected]
  · intro user other isOpenToo client
    rw [users_joined]
    rcases clients user other client with ⟨rfl, rfl⟩ | ⟨notNew, -, before⟩
    · rw [if_pos rfl]
      exact Core.mem_insertKey_self ..
    · rw [if_neg notNew]
      have alive := linked.alive user other before
      refine Core.mem_insertKey_of_ne
        (linked.online user other isOpenToo before) ?_
      obtain ⟨bound, id⟩ := linked.ids user alive
      rw [id]
      intro same
      rw [← idRange_injective bound small same] at fresh
      exact fresh (linked.drawn user alive)
  · intro other later
    obtain ⟨closed, noUser⟩ := linked.nextConnection other later
    refine ⟨closed, ?_⟩
    rw [protocols, noUser]
    rintro rfl
    exact closed isOpen

end Joined

/-! ## Releasing a protocol -/

/-- The protocol of a connection has been released. -/
def released (core : Core) (connection : Nat) : Core :=
  let core := core.setProtocol connection fun protocol =>
    { protocol with connected := false }
  match (core.protocols connection).user with
  | none => core
  | some me =>
      if (core.users me).client = some connection then
        core.setUser me fun user => { user with client := none }
      else core

/-- `Connection::closeConnectionTask` has run for a connection. -/
def closedDown (core : Core) (connection : Nat) (pendingWrite : Bool) : Core :=
  if (core.connections connection).state = .requestClose then
    (if (core.connections connection).hasProtocol then
      released core connection else core).setConnection connection
        fun state =>
          { state with
            hasProtocol := false
            state := if pendingWrite then .closing else .closed }
  else core

theorem run_releaseProtocol (connection : Nat) (core : Core) :
    ∃ obs, (releaseProtocol connection).run core =
        ⟨.ok (), released core connection, obs⟩ ∧
      ∀ observation ∈ obs, observation.Plain := by
  rw [releaseProtocol, Prog.run_modify_bind, Prog.run_get_bind, released]
  generalize core.setProtocol connection (fun protocol =>
    { protocol with connected := false }) = parted
  cases (parted.protocols connection).user with
  | none => exact ⟨[], rfl, by simp⟩
  | some me =>
      simp only
      rw [run_deref_bind, Prog.run_when]
      refine ⟨derefObs parted me, ?_, ?_⟩
      · split <;> simp
      · unfold derefObs
        split <;> simp [Obs.Plain]

theorem run_closeConnectionTask
    (connection : Nat)
    (pendingWrite : Bool)
    (core : Core) :
    ∃ obs, (closeConnectionTask connection pendingWrite).run core =
        ⟨.ok (), closedDown core connection pendingWrite, obs⟩ ∧
      ∀ observation ∈ obs, observation.Plain := by
  rw [closeConnectionTask, Prog.run_get_bind, closedDown]
  simp only [Prog.run_when]
  by_cases requested : (core.connections connection).state = .requestClose
  · simp only [requested, if_true]
    by_cases has : (core.connections connection).hasProtocol
    · obtain ⟨obs, ran, plain⟩ := run_releaseProtocol connection core
      simp only [has, if_true, Prog.when]
      rw [Prog.run_bind_ok ran]
      exact ⟨obs, by simp, plain⟩
    · simp only [has, Prog.when]
      exact ⟨[], rfl, by simp⟩
  · simp only [requested, if_false]
    exact ⟨[], rfl, by simp⟩

/-- The user of a released protocol has lost its client, and nobody else. -/
theorem users_released
    {core : Core}
    (linked : Linked core)
    (connection user : Nat) :
    (released core connection).users user =
      if (core.users user).client = some connection then
        { core.users user with client := none }
      else core.users user := by
  unfold released
  simp only
  split
  · rename_i noUser
    have noClient : ¬ (core.users user).client = some connection := by
      intro client
      have attached := (linked.attached user connection client).user
      simp only [Core.setProtocol, Function.update_self] at noUser
      rw [noUser] at attached
      exact absurd attached (by simp)
    rw [if_neg noClient]
    rfl
  · rename_i me hasUser
    simp only [Core.setProtocol, Function.update_self] at hasUser
    have isMe : ∀ user, (core.users user).client = some connection →
        user = me := by
      intro user client
      have attached := (linked.attached user connection client).user
      rw [hasUser] at attached
      exact (Option.some.inj attached).symm
    split
    · rename_i client
      rw [Core.users_setUser]
      split
      · rename_i same
        subst same
        have clientBefore : (core.users user).client = some connection :=
          client
        rw [if_pos clientBefore]
        rfl
      · rename_i different
        have noClient : ¬ (core.users user).client = some connection :=
          fun clientToo => different (isMe user clientToo)
        rw [if_neg noClient]
        rfl
    · rename_i noClient
      have noClientToo : ¬ (core.users user).client = some connection := by
        intro client
        rw [isMe user client] at client
        exact noClient client
      rw [if_neg noClientToo]
      rfl

theorem released_eq (core : Core) (connection : Nat) :
    ∃ users, released core connection =
      { core.setProtocol connection fun protocol =>
          { protocol with connected := false } with users := users } := by
  unfold released
  simp only
  split
  · exact ⟨core.users, rfl⟩
  · split
    · exact ⟨_, rfl⟩
    · exact ⟨core.users, rfl⟩

section ClosedDown

variable {core : Core} (connection : Nat) (pendingWrite : Bool)

/-- A connection that is torn down is nobody's client any more. -/
theorem users_closedDown (linked : Linked core) (user : Nat) :
    (closedDown core connection pendingWrite).users user =
      if (core.connections connection).state = .requestClose ∧
          (core.users user).client = some connection then
        { core.users user with client := none }
      else core.users user := by
  unfold closedDown
  by_cases requested : (core.connections connection).state = .requestClose
  · simp only [requested, if_true, true_and]
    split
    · exact users_released linked connection user
    · rename_i noProtocol
      have noClient : ¬ (core.users user).client = some connection :=
        fun client => noProtocol (linked.hasProtocol user connection client)
      rw [if_neg noClient]
      rfl
  · simp [requested]

theorem state_closedDown (other : Nat) :
    ((closedDown core connection pendingWrite).connections other).state =
      if (core.connections connection).state = .requestClose ∧
          other = connection then
        if pendingWrite then .closing else .closed
      else (core.connections other).state := by
  unfold closedDown
  obtain ⟨users, eq⟩ := released_eq core connection
  by_cases requested : (core.connections connection).state = .requestClose
  · by_cases same : other = connection
    · simp [requested, same, Core.setConnection]
    · simp only [requested, same, if_true, and_false, if_false]
      split
      · rw [eq]
        simp [Core.setConnection, Core.setProtocol, same]
      · simp [Core.setConnection, same]
  · simp [requested]

/-- What else of the server a torn down connection changes. -/
theorem closedDown_eq :
    ∃ users protocols connections,
      closedDown core connection pendingWrite =
          { core with
            users := users
            protocols := protocols
            connections := connections } ∧
        (∀ other, (protocols other).user = (core.protocols other).user) ∧
        (∀ other, other ≠ connection →
          protocols other = core.protocols other ∧
            connections other = core.connections other) ∧
        ∀ other, (connections other).receivedFirst =
          (core.connections other).receivedFirst := by
  unfold closedDown
  split
  · split
    · obtain ⟨users, eq⟩ := released_eq core connection
      rw [eq]
      refine ⟨users, _, _, rfl, ?_, ?_, ?_⟩
      · intro other
        simp only [Core.setProtocol, Function.update_apply]
        split
        · rename_i same
          rw [same]
        · rfl
      · intro other different
        simp [Core.setProtocol, different]
      · intro other
        simp only [Core.setProtocol, Function.update_apply]
        split
        · rename_i same
          rw [same]
        · rfl
    · refine ⟨core.users, core.protocols, _, rfl, fun _ => rfl, ?_, ?_⟩
      · intro other different
        simp [different]
      · intro other
        simp only [Function.update_apply]
        split
        · rename_i same
          rw [same]
        · rfl
  · exact ⟨core.users, core.protocols, core.connections, rfl, fun _ => rfl,
      fun _ _ => ⟨rfl, rfl⟩, fun _ => rfl⟩

/-- A user keeps everything but its client. -/
theorem client_closedDown
    (linked : Linked core)
    (user : Nat) :
    ∃ client, (closedDown core connection pendingWrite).users user =
        { core.users user with client := client } ∧
      ∀ other, client = some other →
        (core.users user).client = some other ∧
          ((core.connections connection).state = .requestClose →
            other ≠ connection) := by
  rw [users_closedDown connection pendingWrite linked user]
  split
  · exact ⟨none, rfl, by simp⟩
  · rename_i kept
    refine ⟨(core.users user).client, rfl, fun other client => ⟨client, ?_⟩⟩
    rintro requested rfl
    exact kept ⟨requested, client⟩

theorem Shrinks.closedDown (linked : Linked core) :
    Shrinks core (Network.closedDown core connection pendingWrite) where
  users user := by
    obtain ⟨client, eq, -⟩ :=
      client_closedDown connection pendingWrite linked user
    exact ⟨(core.users user).alive, client, eq, fun isAlive => isAlive⟩
  clients user other holds := by
    obtain ⟨client, eq, kept⟩ :=
      client_closedDown connection pendingWrite linked user
    rw [eq] at holds
    exact (kept other holds).1
  active user other _ isOpen := by
    rw [state_closedDown] at isOpen
    split at isOpen
    · split at isOpen <;> exact absurd isOpen (by simp)
    · exact isOpen
  db := by
    obtain ⟨users, protocols, connections, eq, -⟩ :=
      @closedDown_eq core connection pendingWrite
    rw [eq]
  listed := by
    obtain ⟨users, protocols, connections, eq, -⟩ :=
      @closedDown_eq core connection pendingWrite
    rw [eq]

theorem Linked.closedDown (linked : Linked core) :
    Linked (Network.closedDown core connection pendingWrite) := by
  have users := client_closedDown connection pendingWrite linked
  have state := @state_closedDown core connection pendingWrite
  by_cases requested : (core.connections connection).state = .requestClose
  · obtain ⟨newUsers, protocols, connections, eq, user_eq, others, received⟩ :=
      @closedDown_eq core connection pendingWrite
    rw [eq] at users state ⊢
    simp only [requested, true_and, forall_const] at users state
    have opened : ∀ other, (connections other).state = .open →
        other ≠ connection ∧ (core.connections other).state = .open := by
      intro other isOpen
      rw [state] at isOpen
      split at isOpen
      · split at isOpen <;> exact absurd isOpen (by simp)
      · exact ⟨‹_›, isOpen⟩
    have clients : ∀ user other, (newUsers user).client = some other →
        (core.users user).client = some other ∧ other ≠ connection := by
      intro user other client
      obtain ⟨kept, same, rest⟩ := users user
      rw [same] at client
      exact rest other client
    have kept : ∀ user, (newUsers user).alive = (core.users user).alive ∧
        (newUsers user).id = (core.users user).id ∧
        (newUsers user).autoId = (core.users user).autoId := by
      intro user
      obtain ⟨client, same, -⟩ := users user
      rw [same]
      exact ⟨rfl, rfl, rfl⟩
    refine ⟨⟨?_, ?_, ?_, ?_, ?_⟩, ?_, ?_, ?_, ?_, ?_, ?_, ?_, ?_⟩
    · intro entry inside
      rw [(kept _).1, (kept _).2.1]
      exact linked.listed entry inside
    · intro user fresh
      rw [(kept _).1]
      exact linked.nextUser user fresh
    · intro user
      rw [(kept _).1, (kept _).2.2]
      exact linked.drawn user
    · intro user other
      rw [(kept _).1, (kept _).1, (kept _).2.2, (kept _).2.2]
      exact linked.unique user other
    · intro user
      rw [(kept _).1, (kept _).2.1, (kept _).2.2]
      exact linked.ids user
    · intro user other client
      obtain ⟨before, different⟩ := clients user other client
      obtain ⟨-, hasUser, connected⟩ := linked.attached user other before
      have same := (others other different).1
      exact ⟨client, (congrArg Protocol.user same).trans hasUser,
        (congrArg Protocol.connected same).trans connected⟩
    · intro user other client
      rw [(kept _).1]
      exact linked.alive user other (clients user other client).1
    · intro user other client
      obtain ⟨before, different⟩ := clients user other client
      have same := (others other different).2
      exact (congrArg Connection.hasProtocol same).trans
        (linked.hasProtocol user other before)
    · intro user other client
      rw [received]
      exact linked.receivedFirst user other (clients user other client).1
    · intro user other isOpen hasUser
      obtain ⟨different, wasOpen⟩ := opened other isOpen
      rw [user_eq] at hasUser
      have client := linked.opens user other wasOpen hasUser
      have stays := users_closedDown connection pendingWrite linked user
      rw [eq, if_neg] at stays
      · rw [stays, client]
      · rintro ⟨-, gone⟩
        rw [client] at gone
        exact different (Option.some.inj gone)
    · intro other isOpen
      obtain ⟨different, wasOpen⟩ := opened other isOpen
      obtain ⟨sameProtocol, same⟩ := others other different
      change (protocols other).connected ∧ (connections other).hasProtocol
      rw [sameProtocol, same]
      exact linked.connects other wasOpen
    · intro user other isOpen client
      change ((newUsers user).id, user) ∈ core.listUser
      rw [(kept _).2.1]
      exact linked.online user other (opened other isOpen).2
        (clients user other client).1
    · intro other fresh
      obtain ⟨closed, noUser⟩ := linked.nextConnection other fresh
      refine ⟨fun isOpen => closed (opened other isOpen).2, ?_⟩
      rw [user_eq, noUser]
  · rw [Network.closedDown, if_neg requested]
    exact linked

end ClosedDown

/-! ## Deleting a protocol -/

/-- `Telnet::deleteProtocolTask` has run for a protocol. -/
def deleted (core : Core) (protocol : Nat) : Core :=
  if (core.connections protocol).hasProtocol then core
  else core.setProtocol protocol fun _ =>
    { user := none, connected := false, acceptPackets := false }

theorem run_deleteProtocolTask (protocol : Nat) (core : Core) :
    (deleteProtocolTask protocol).run core =
      ⟨.ok (), deleted core protocol, []⟩ := by
  rw [deleteProtocolTask, Prog.run_get_bind, deleted, Prog.run_when]
  by_cases has : (core.connections protocol).hasProtocol <;> simp [has]

theorem Linked.deleted
    {core : Core}
    (linked : Linked core)
    (protocol : Nat) : Linked (Network.deleted core protocol) := by
  unfold Network.deleted
  split
  · exact linked
  · rename_i noProtocol
    have kept : ∀ other, (core.connections other).hasProtocol →
        (core.setProtocol protocol fun _ =>
            { user := none, connected := false, acceptPackets := false
              }).protocols other = core.protocols other := by
      intro other has
      have different : other ≠ protocol := by
        rintro rfl
        exact noProtocol has
      simp [Core.setProtocol, different]
    refine ⟨⟨linked.listed, linked.nextUser, linked.drawn, linked.unique,
      linked.ids⟩, ?_, linked.alive, linked.hasProtocol,
      linked.receivedFirst, ?_, ?_, linked.online, ?_⟩
    · intro user other client
      obtain ⟨-, hasUser, connected⟩ := linked.attached user other client
      have same := kept other (linked.hasProtocol user other client)
      exact ⟨client, by rw [same, hasUser], by rw [same, connected]⟩
    · intro user other isOpen hasUser
      rw [kept other (linked.connects other isOpen).2] at hasUser
      exact linked.opens user other isOpen hasUser
    · intro other isOpen
      have connects := linked.connects other isOpen
      rw [kept other connects.2]
      exact connects
    · intro other fresh
      obtain ⟨closed, noUser⟩ := linked.nextConnection other fresh
      refine ⟨closed, ?_⟩
      simp only [Core.setProtocol, Function.update_apply]
      split
      · rfl
      · exact noUser

theorem Shrinks.deleted (core : Core) (protocol : Nat) :
    Shrinks core (Network.deleted core protocol) := by
  unfold Network.deleted
  split
  · exact .refl core
  · exact .of_users rfl (fun _ _ _ isOpen => isOpen) rfl rfl

/-! ## Destroying a user -/

section Destroyed

variable {core : Core} {me : Nat}

/-- All that the end of a user changes. -/
theorem destroyed_eq (core : Core) (me : Nat) :
    destroyed core me =
      { core with
        users := Function.update core.users me
          { core.users me with alive := false, client := none }
        listUser := (core.removeList me).listUser
        protocols := fun protocol =>
          if (core.users me).client = some protocol then
            { core.protocols protocol with user := none }
          else core.protocols protocol
        autoID := core.autoID.destruct (core.users me).autoId } := by
  unfold destroyed
  simp only
  split
  · rename_i noClient
    simp [Core.removeList, Core.setUser, noClient]
  · rename_i held client
    have protocols : Function.update core.protocols held
          { core.protocols held with user := none } =
        fun protocol => if (core.users me).client = some protocol then
          { core.protocols protocol with user := none }
        else core.protocols protocol := by
      funext protocol
      rw [client, Function.update_apply]
      by_cases same : protocol = held
      · simp [same]
      · have different : ¬ held = protocol := fun eq => same eq.symm
        simp [same, different]
    rw [← protocols]
    simp [Core.removeList, Core.setUser, setProtocolUser, Core.setProtocol]

theorem users_destroyed (core : Core) (me user : Nat) :
    (destroyed core me).users user =
      if user = me then
        { core.users me with alive := false, client := none }
      else core.users user := by
  rw [destroyed_eq]
  exact Function.update_apply ..

theorem listUser_destroyed (core : Core) (me : Nat) :
    (destroyed core me).listUser = (core.removeList me).listUser := by
  rw [destroyed_eq]

theorem protocols_destroyed (core : Core) (me protocol : Nat) :
    (destroyed core me).protocols protocol =
      if (core.users me).client = some protocol then
        { core.protocols protocol with user := none }
      else core.protocols protocol := by
  rw [destroyed_eq]

/-- What else of the server the end of a user changes. -/
theorem destroyed_rest (core : Core) (me : Nat) :
    (destroyed core me).connections = core.connections ∧
      (destroyed core me).nextUser = core.nextUser ∧
      (destroyed core me).nextConnection = core.nextConnection ∧
      (destroyed core me).db = core.db ∧
      (destroyed core me).autoID =
        core.autoID.destruct (core.users me).autoId := by
  rw [destroyed_eq]
  exact ⟨rfl, rfl, rfl, rfl, rfl⟩

theorem Shrinks.destroyed (core : Core) (me : Nat) :
    Shrinks core (Network.destroyed core me) := by
  obtain ⟨connections, -, -, db, -⟩ := destroyed_rest core me
  refine ⟨fun user => ?_, fun user connection => ?_, fun _ _ _ isOpen => ?_,
    db, ?_⟩
  · rw [users_destroyed]
    split
    · rename_i same
      subst same
      exact ⟨false, none, rfl, by simp⟩
    · exact ⟨_, _, rfl, fun isAlive => isAlive⟩
  · rw [users_destroyed]
    split
    · simp
    · exact fun client => client
  · rwa [connections] at isOpen
  · rw [listUser_destroyed]
    exact List.filter_sublist

theorem Linked.destroyed
    (linked : Linked core)
    (alive : (core.users me).alive) : Linked (Network.destroyed core me) := by
  obtain ⟨connections, nextUser, nextConnection, -, autoID⟩ :=
    destroyed_rest core me
  have users := users_destroyed core me
  have others : ∀ user, ((Network.destroyed core me).users user).alive →
      user ≠ me ∧ (core.users user).alive ∧
        (Network.destroyed core me).users user = core.users user := by
    intro user isAlive
    rw [users] at isAlive ⊢
    split at isAlive
    · exact absurd isAlive (by simp)
    · rename_i different
      exact ⟨different, isAlive, if_neg different⟩
  have clients : ∀ user connection,
      ((Network.destroyed core me).users user).client = some connection →
        user ≠ me ∧ (core.users user).client = some connection ∧
          (core.users me).client ≠ some connection := by
    intro user connection
    rw [users]
    split
    · simp
    · rename_i different
      intro client
      refine ⟨different, client, fun clientMe => different ?_⟩
      exact linked.same_of_client client clientMe
  refine ⟨⟨?_, ?_, ?_, ?_, ?_⟩, ?_, ?_, ?_, ?_, ?_, ?_, ?_, ?_⟩
  · intro entry inside
    rw [listUser_destroyed] at inside
    have different := linked.ne_of_mem_removeList inside
    rw [users, if_neg different]
    exact linked.listed entry (List.mem_of_mem_filter inside)
  · intro user fresh
    rw [nextUser] at fresh
    rw [users]
    split
    · rfl
    · exact linked.nextUser user fresh
  · intro user isAlive
    obtain ⟨different, aliveBefore, same⟩ := others user isAlive
    rw [same, autoID]
    refine (List.mem_erase_of_ne fun eq => ?_).mpr
      (linked.drawn user aliveBefore)
    exact different (linked.unique user me aliveBefore alive eq)
  · intro user other isAlive isAliveToo
    obtain ⟨-, before, same⟩ := others user isAlive
    obtain ⟨-, beforeToo, sameToo⟩ := others other isAliveToo
    rw [same, sameToo]
    exact linked.unique user other before beforeToo
  · intro user isAlive
    obtain ⟨-, before, same⟩ := others user isAlive
    rw [same]
    exact linked.ids user before
  · intro user connection client
    obtain ⟨-, before, notMine⟩ := clients user connection client
    obtain ⟨-, hasUser, connected⟩ := linked.attached user connection before
    have same := protocols_destroyed core me connection
    rw [if_neg notMine] at same
    exact ⟨client, by rw [same, hasUser], by rw [same, connected]⟩
  · intro user connection client
    obtain ⟨different, before, -⟩ := clients user connection client
    rw [users, if_neg different]
    exact linked.alive user connection before
  · intro user connection client
    rw [connections]
    exact linked.hasProtocol user connection (clients user connection client).2.1
  · intro user connection client
    rw [connections]
    exact linked.receivedFirst user connection
      (clients user connection client).2.1
  · intro user connection isOpen hasUser
    rw [connections] at isOpen
    rw [protocols_destroyed] at hasUser
    split at hasUser
    · exact absurd hasUser (by simp)
    · rename_i notMine
      have client := linked.opens user connection isOpen hasUser
      have different : user ≠ me := by
        rintro rfl
        exact notMine client
      rw [users, if_neg different, client]
  · intro connection isOpen
    rw [connections] at isOpen ⊢
    obtain ⟨connected, has⟩ := linked.connects connection isOpen
    refine ⟨?_, has⟩
    rw [protocols_destroyed]
    split <;> exact connected
  · intro user connection isOpen client
    rw [connections] at isOpen
    obtain ⟨different, before, -⟩ := clients user connection client
    rw [users, if_neg different, listUser_destroyed]
    exact linked.mem_removeList (linked.alive user connection before) alive
      different (linked.online user connection isOpen before)
  · intro connection fresh
    rw [nextConnection] at fresh
    obtain ⟨closed, noUser⟩ := linked.nextConnection connection fresh
    rw [connections]
    refine ⟨closed, ?_⟩
    rw [protocols_destroyed]
    split
    · rfl
    · exact noUser

end Destroyed

end Network
end Lotospp
