import Lotospp.Network.Sessions

/-!
# Users with an open connection

Most of what ends a session takes the user off the list with it.  `Tidies`
says so of a step: whoever is listed afterwards has not lost its connection.
The request to close the connection of a session is the exception, for it
leaves the user in the list.
-/

namespace Lotospp
namespace Network

open Text Effect Common Commands

/-- The user has an open connection. -/
def Online (core : Core) (user : Nat) : Prop :=
  ∃ connection, (core.users user).client = some connection ∧
    (core.connections connection).state = .open

/-- The users that are still listed have kept their open connections. -/
def StaysOnline (core reached : Core) : Prop :=
  reached.listUser ⊆ core.listUser ∧
    ∀ entry ∈ reached.listUser, Online core entry.2 → Online reached entry.2

namespace StaysOnline

variable {core middle reached : Core} {me connection : Nat}

theorem refl (core : Core) : StaysOnline core core :=
  ⟨fun _ inside => inside, fun _ _ online => online⟩

theorem trans
    (first : StaysOnline core middle)
    (second : StaysOnline middle reached) : StaysOnline core reached :=
  ⟨fun _ inside => first.1 (second.1 inside), fun entry inside online =>
    second.2 entry inside (first.2 entry (second.1 inside) online)⟩

/-- The list and the clients are the same, and clients' connections stay
open. -/
theorem of_clients
    (listUser : reached.listUser = core.listUser)
    (clients : ∀ user, (reached.users user).client =
      (core.users user).client)
    (opens : ∀ user connection, (core.users user).client = some connection →
      (core.connections connection).state = .open →
        (reached.connections connection).state = .open) :
    StaysOnline core reached := by
  refine ⟨fun _ inside => listUser ▸ inside, ?_⟩
  rintro entry - ⟨connection, client, isOpen⟩
  exact ⟨connection, (clients entry.2).trans client,
    opens entry.2 connection client isOpen⟩

/-- Nothing has happened to the connections. -/
theorem of_rest
    (listUser : reached.listUser = core.listUser)
    (clients : ∀ user, (reached.users user).client =
      (core.users user).client)
    (connections : reached.connections = core.connections) :
    StaysOnline core reached :=
  of_clients listUser clients fun _ _ _ isOpen => by rwa [connections]

theorem setUser
    {change : User → User}
    (keeps : User.Keeps change)
    (core : Core)
    (me : Nat) : StaysOnline core (core.setUser me change) := by
  refine of_rest rfl (fun user => ?_) rfl
  rw [Core.users_setUser]
  split
  · rename_i isMe
    rw [isMe]
    exact congrArg (fun identity => identity.2.2.2) (keeps (core.users me))
  · rfl

/-- The connection of a session has been closed, and the session unlisted. -/
theorem of_unlisted
    (session : Session core me connection)
    (listed : reached.listUser = (core.removeList me).listUser)
    (clients : ∀ user, user ≠ me →
      (reached.users user).client = (core.users user).client)
    (opens : ∀ other, other ≠ connection →
      (core.connections other).state = .open →
        (reached.connections other).state = .open) :
    StaysOnline core reached := by
  rw [StaysOnline, listed]
  refine ⟨fun _ inside => List.mem_of_mem_filter inside, ?_⟩
  rintro entry inside ⟨other, client, isOpen⟩
  have different := session.linked.ne_of_mem_removeList inside
  refine ⟨other, (clients entry.2 different).trans client,
    opens other ?_ isOpen⟩
  rintro rfl
  exact different (session.linked.same_of_client client session.client)

end StaysOnline

theorem Core.open_closeConnection
    {core : Core}
    {connection other : Nat}
    (different : other ≠ connection)
    (isOpen : (core.connections other).state = .open) :
    ((core.closeConnection connection).connections other).state = .open := by
  rw [Core.state_closeConnection, if_neg, isOpen]
  exact fun closes => different closes.1

/-- Disconnecting a user closes no connection but its own. -/
theorem Core.open_disconnected
    {core : Core}
    {user other : Nat}
    (different : (core.users user).client ≠ some other)
    (isOpen : (core.connections other).state = .open) :
    ((core.disconnected user).connections other).state = .open := by
  unfold Core.disconnected
  split
  · exact isOpen
  · rename_i connection client
    split
    · refine Core.open_closeConnection ?_ isOpen
      rintro rfl
      exact different client
    · exact isOpen

/-- Kicking a user closes no connection but its own. -/
theorem Core.open_kicked
    {core : Core}
    {user other : Nat}
    (different : (core.users user).client ≠ some other)
    (isOpen : (core.connections other).state = .open) :
    ((core.kicked user).connections other).state = .open := by
  unfold Core.kicked
  split
  · exact isOpen
  · rename_i connection client
    split
    · exact isOpen
    · split
      · refine Core.open_closeConnection ?_ isOpen
        rintro rfl
        exact different client
      · exact isOpen

/-- The event is a request to close the open connection of a session. -/
def Event.CutsOff (core : Core) : Event → Prop
  | .closeRequest connection =>
      (core.connections connection).state = .open ∧
        (core.protocols connection).user ≠ none
  | _ => False

/-- Sessions may have ended, and with them their places in the list. -/
structure Tidies (core reached : Core) : Prop
    extends Shrinks core reached where
  /-- Who is still listed has kept its open connection. -/
  online : ∀ entry ∈ reached.listUser,
    Online core entry.2 → Online reached entry.2

namespace Tidies

variable {core reached : Core} {me connection : Nat}

theorem of_staysOnline
    (shrinks : Shrinks core reached)
    (stays : StaysOnline core reached) : Tidies core reached :=
  ⟨shrinks, stays.2⟩

theorem accepted (linked : Linked core) :
    Tidies core (Network.accepted core) := by
  refine of_staysOnline (.accepted linked)
    (.of_clients rfl (fun _ => rfl) fun user other client isOpen => ?_)
  have different := linked.client_ne_next client
  simpa [Network.accepted, different] using isOpen

theorem seen (core : Core) (connection : Nat) :
    Tidies core (Network.seen core connection) := by
  refine of_staysOnline (.seen core connection)
    (.of_clients rfl (fun _ => rfl) fun user other _ isOpen => ?_)
  rwa [state_seen]

theorem deleted (core : Core) (protocol : Nat) :
    Tidies core (Network.deleted core protocol) := by
  apply of_staysOnline (.deleted core protocol)
  unfold Network.deleted
  split
  · exact .refl core
  · exact .of_rest rfl (fun _ => rfl) rfl

/-- The request to close a connection without a session. -/
theorem closeConnection
    (linked : Linked core)
    (noSession : ¬ ((core.connections connection).state = .open ∧
      (core.protocols connection).user ≠ none)) :
    Tidies core (core.closeConnection connection) := by
  refine of_staysOnline (.closeConnection core connection)
    (.of_clients (by simp) (by simp) fun user other client isOpen => ?_)
  refine Core.open_closeConnection ?_ isOpen
  rintro rfl
  have hasUser := (linked.attached user other client).user
  exact noSession ⟨isOpen, by simp [hasUser]⟩

theorem closedDown
    (pendingWrite : Bool)
    (linked : Linked core) :
    Tidies core (Network.closedDown core connection pendingWrite) := by
  refine ⟨.closedDown connection pendingWrite linked, ?_⟩
  rintro entry - ⟨other, client, isOpen⟩
  have different : ¬ ((core.connections connection).state = .requestClose ∧
      other = connection) := by
    rintro ⟨requested, rfl⟩
    rw [requested] at isOpen
    exact absurd isOpen (by simp)
  refine ⟨other, ?_, ?_⟩
  · rw [users_closedDown connection pendingWrite linked, if_neg, client]
    rintro ⟨requested, same⟩
    rw [client] at same
    exact different ⟨requested, Option.some.inj same⟩
  · rw [state_closedDown, if_neg different, isOpen]

/-- An abandoned login leaves the list. -/
theorem abandoned (session : Session core me connection) :
    Tidies core (Network.abandoned core me) := by
  obtain ⟨connections, -, -, -, -⟩ := destroyed_rest (core.disconnected me) me
  refine of_staysOnline session.abandoned.2
    (.of_unlisted session ?_ ?_ ?_)
  · rw [Network.abandoned, listUser_destroyed]
    simp [Core.removeList]
  · intro user different
    rw [Network.abandoned, users_destroyed, if_neg different,
      Core.users_disconnected]
  · intro other different isOpen
    rw [Network.abandoned, connections]
    refine Core.open_disconnected ?_ isOpen
    rw [session.client]
    exact fun same => different (Option.some.inj same).symm

/-- After a takeover neither session is listed. -/
theorem swapped
    {other : Nat}
    (session : Session core me connection)
    (found : core.findSession me = some other) :
    Tidies core (Network.swapped core me other connection) := by
  obtain ⟨different, -, -⟩ := Core.findSession_some found
  have users := core.users_takenOver connection different
  have taken := session.linked.takenOver session.client found
  obtain ⟨connections, -, -, -, -⟩ :=
    destroyed_rest (core.takenOver me other connection) other
  refine ⟨(session.swapped found).2, ?_⟩
  rintro entry inside ⟨held, client, isOpen⟩
  rw [Network.swapped, listUser_destroyed] at inside
  have notOther := taken.ne_of_mem_removeList inside
  have isListed := List.mem_of_mem_filter inside
  rw [core.listUser_takenOver connection different] at isListed
  have notMe := session.linked.ne_of_mem_removeList isListed
  refine ⟨held, ?_, ?_⟩
  · rw [Network.swapped, users_destroyed, if_neg notOther, users,
      if_neg notMe, if_neg notOther, client]
  · rw [Network.swapped, connections, Core.connections_takenOver]
    refine Core.open_disconnected (fun holds => notOther ?_) isOpen
    exact session.linked.same_of_client client holds

end Tidies

/-! ## Nobody comes back -/

namespace Online

variable {core reached : Core} {me user connection : Nat}

/-- Sessions do not come back. -/
theorem of_shrinks
    (shrinks : Shrinks core reached)
    (online : Online reached user) : Online core user := by
  obtain ⟨connection, client, isOpen⟩ := online
  exact ⟨connection, shrinks.clients user connection client,
    shrinks.active user connection client isOpen⟩

/-- What a session does to itself brings nobody online. -/
theorem of_near
    (stays : core.Near reached me)
    (online : Online reached user) : Online core user := by
  obtain ⟨connection, client, isOpen⟩ := online
  refine ⟨connection, ?_, ?_⟩
  · by_cases isMe : user = me
    · rw [← client, isMe, stays.client]
    · rw [← client, stays.others user isMe]
  · by_contra closed
    exact stays.closing connection closed isOpen

/-- A takeover opens no connection, but the old session has a new one. -/
theorem of_takenOver
    {other : Nat}
    (apart : other ≠ me)
    (notMe : user ≠ me)
    (notOther : user ≠ other)
    (online : Online (core.takenOver me other connection) user) :
    Online core user := by
  obtain ⟨held, client, isOpen⟩ := online
  rw [core.users_takenOver connection apart, if_neg notMe, if_neg notOther]
    at client
  refine ⟨held, client, ?_⟩
  by_contra closed
  exact core.closing_disconnected other closed isOpen

end Online

/-! ## Those who stay in the list -/

/-- A session whose connection is closed under it stays in the list. -/
theorem ghost_of_cutsOff
    {core : Core}
    {me connection : Nat}
    (linked : Linked core)
    (isOpen : (core.connections connection).state = .open)
    (hasUser : (core.protocols connection).user = some me) :
    ((core.users me).id, me) ∈ (core.closeConnection connection).listUser ∧
      ¬ Online (core.closeConnection connection) me := by
  have client := linked.opens me connection isOpen hasUser
  rw [Core.listUser_closeConnection]
  refine ⟨linked.online me connection isOpen client, ?_⟩
  rintro ⟨other, clientToo, isOpenStill⟩
  rw [Core.users_closeConnection, client] at clientToo
  obtain rfl := Option.some.inj clientToo
  exact core.closeConnection_closes connection isOpenStill

/-- Clearing closes the connections of the sessions that hang. -/
theorem Core.closed_cleared
    {core : Core}
    {me other connection : Nat}
    (attached : core.Attached other connection)
    (inside : other ∈ core.listUser.map Prod.snd)
    (hangs : core.Hangs me (core.users me).name other) :
    ((core.cleared me).connections connection).state ≠ .open := by
  have fold : ∀ (list : List Nat) (now : Core),
      now.users = core.users → now.protocols = core.protocols →
      (now.connections connection).state ≠ .open ∨ other ∈ list →
      ((list.foldl (fun now other =>
        if now.Hangs me (core.users me).name other then now.kicked other
        else now) now).connections connection).state ≠ .open := by
    intro list
    induction list with
    | nil => exact fun now _ _ closed => closed.resolve_right List.not_mem_nil
    | cons first rest inductionHypothesis =>
        intro now users protocols closed
        have hangsNow : now.Hangs me (core.users me).name other := by
          rwa [Core.Hangs, users]
        have attachedNow : now.Attached other connection :=
          ⟨by rw [users, attached.client], by rw [protocols, attached.user],
            by rw [protocols, attached.connected]⟩
        rw [List.foldl_cons]
        split
        · apply inductionHypothesis _ (by simp [users]) (by simp [protocols])
          rcases closed with closed | inside
          · exact .inl (now.closing_kicked first closed)
          · rcases List.mem_cons.mp inside with rfl | inRest
            · exact .inl (Core.closed_kicked attachedNow)
            · exact .inr inRest
        · rename_i calm
          apply inductionHypothesis _ users protocols
          rcases closed with closed | inside
          · exact .inl closed
          · rcases List.mem_cons.mp inside with rfl | inRest
            · exact absurd hangsNow calm
            · exact .inr inRest
  exact fold _ core rfl rfl (.inr inside)

/-- The other sessions stay in the list. -/
theorem Session.mem_listUser
    {core reached : Core}
    {me connection : Nat}
    {entry : Nat × Nat}
    (session : Session core me connection)
    (stays : core.Local reached me)
    (different : entry.2 ≠ me)
    (inside : entry ∈ core.listUser) : entry ∈ reached.listUser := by
  obtain ⟨alive, key⟩ := session.linked.listed entry inside
  rcases stays.listed with same | ⟨removed, -⟩
  · rwa [same]
  · rw [removed, ← Prod.eta entry, key]
    exact session.linked.mem_removeList alive session.alive different
      (key ▸ inside)

/-- A session that is kicked for its name stays in the list. -/
theorem ghost_of_hangs
    {core : Core}
    {me connection : Nat}
    {entry : Nat × Nat}
    (env : Env)
    (line : Bytes)
    (session : Session core me connection)
    (inside : entry ∈ core.listUser)
    (hangs : core.Hangs me (properName line) entry.2) :
    entry ∈ (core.named env me line).listUser ∧
      ¬ Online (core.named env me line) entry.2 := by
  have different : entry.2 ≠ me := hangs.2.1
  have named := Core.Local.named env me line core
  refine ⟨session.mem_listUser named different inside, ?_⟩
  rintro ⟨held, client, isOpen⟩
  rw [named.others entry.2 different] at client
  obtain ⟨-, hasUser, connected⟩ := session.linked.attached entry.2 held client
  have entered : core.Local ((core.rejected me line).setUser me fun user =>
      { user with name := properName line }) me :=
    (Core.Local.rejected core me line).trans (.setUser (fun _ => by rfl) _ me)
  have name : (((core.rejected me line).setUser me fun user =>
      { user with name := properName line }).users me).name =
        properName line := by simp
  rw [Core.named] at isOpen
  generalize (core.rejected me line).setUser me (fun user =>
    { user with name := properName line }) = renamed at entered name isOpen
  have others := entered.others entry.2 different
  have attached : renamed.Attached entry.2 held :=
    ⟨by rw [others, client], by rw [entered.protocols, hasUser],
      by rw [entered.protocols, connected]⟩
  have closed := Core.closed_cleared attached
    (List.mem_map_of_mem (session.mem_listUser entered different inside))
    (by rwa [name, Core.Hangs, others])
  exact (Core.Local.load env me line true _).closing held closed isOpen

end Network
end Lotospp
