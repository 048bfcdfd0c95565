import Lotospp.Common.Local
import Lotospp.Network.Server

/-!
# Users, protocols and connections that point to each other

`Linked` says which pointers agree in every state of a run: a user's client
has that user, a listed user is alive, and an open connection has the session
that was created for it.  Everything the server does keeps it.
-/

namespace Lotospp
namespace Network

open Text Effect Common

/-- The list of users and their identifiers are in order. -/
structure Registered (core : Core) : Prop where
  /-- A listed user is alive, and listed by its identifier. -/
  listed : ∀ entry ∈ core.listUser,
    (core.users entry.2).alive ∧ entry.1 = (core.users entry.2).id
  /-- A user that has not been created is not alive. -/
  nextUser : ∀ user, core.nextUser ≤ user → (core.users user).alive = false
  /-- The identifiers of live users are taken. -/
  drawn : ∀ user, (core.users user).alive →
    (core.users user).autoId ∈ core.autoID.list
  /-- No two live users have the same identifier. -/
  unique : ∀ user other, (core.users user).alive →
    (core.users other).alive →
      (core.users user).autoId = (core.users other).autoId → user = other
  /-- The identifier in the list is that of the object, in its range. -/
  ids : ∀ user, (core.users user).alive →
    (core.users user).autoId ≤ AutoID.last ∧
      (core.users user).id = (core.users user).autoId ||| idRange

/-- The pointers between users, protocols and connections agree. -/
structure Linked (core : Core) : Prop extends Registered core where
  /-- A user's client has this user and a connection. -/
  attached : ∀ user connection,
    (core.users user).client = some connection →
      core.Attached user connection
  /-- A user with a client is alive. -/
  alive : ∀ user connection,
    (core.users user).client = some connection → (core.users user).alive
  /-- The connection of a client has its protocol. -/
  hasProtocol : ∀ user connection,
    (core.users user).client = some connection →
      (core.connections connection).hasProtocol
  /-- The connection of a client has received a packet. -/
  receivedFirst : ∀ user connection,
    (core.users user).client = some connection →
      (core.connections connection).receivedFirst
  /-- The user of an open connection has it as its client. -/
  opens : ∀ user connection,
    (core.connections connection).state = .open →
      (core.protocols connection).user = some user →
        (core.users user).client = some connection
  /-- An open connection is connected and has a protocol. -/
  connects : ∀ connection, (core.connections connection).state = .open →
    (core.protocols connection).connected ∧
      (core.connections connection).hasProtocol
  /-- The user of an open connection is listed. -/
  online : ∀ user connection,
    (core.connections connection).state = .open →
      (core.users user).client = some connection →
        ((core.users user).id, user) ∈ core.listUser
  /-- A connection that has not been accepted is not open. -/
  nextConnection : ∀ connection, core.nextConnection ≤ connection →
    (core.connections connection).state ≠ .open ∧
      (core.protocols connection).user = none

/-- The identifiers by which users are listed differ as those they have
drawn. -/
theorem idRange_injective
    {left right : Nat}
    (leftSmall : left ≤ AutoID.last)
    (rightSmall : right ≤ AutoID.last)
    (same : left ||| idRange = right ||| idRange) : left = right := by
  have sum : ∀ autoId, autoId ≤ AutoID.last →
      autoId ||| idRange = autoId + idRange := by
    intro autoId small
    have bound : autoId < 2 ^ 28 := by
      unfold AutoID.last at small
      omega
    have power : idRange = 2 ^ 28 * 1 := rfl
    rw [Nat.or_comm, power, ← Nat.two_pow_add_eq_or_of_lt bound, Nat.add_comm]
  rw [sum left leftSmall, sum right rightSmall] at same
  omega

namespace Linked

variable {core reached : Core} {me connection : Nat}

/-- Two live users listed by the same identifier are one. -/
theorem same_of_id
    (linked : Linked core)
    {user other : Nat}
    (alive : (core.users user).alive)
    (aliveToo : (core.users other).alive)
    (same : (core.users user).id = (core.users other).id) : user = other := by
  obtain ⟨small, id⟩ := linked.ids user alive
  obtain ⟨smallToo, idToo⟩ := linked.ids other aliveToo
  rw [id, idToo] at same
  exact linked.unique user other alive aliveToo
    (idRange_injective small smallToo same)

/-- A connection is the client of one user only. -/
theorem same_of_client
    (linked : Linked core)
    {user other : Nat}
    (client : (core.users user).client = some connection)
    (clientToo : (core.users other).client = some connection) :
    user = other := by
  have attached := (linked.attached user connection client).user
  rw [(linked.attached other connection clientToo).user] at attached
  exact (Option.some.inj attached).symm

/-- Every pointer that session code follows is good. -/
theorem safe (linked : Linked core) : core.Safe where
  connected user connection client :=
    (linked.attached user connection client).connected
  alive entry inside := (linked.listed entry inside).1

end Linked

/-! ## Steps of a session -/

/-- Session code keeps the list in order. -/
theorem Registered.follows
    {core reached : Core}
    {obs : List Obs}
    (registered : Registered core)
    (follows : Follows core obs reached) : Registered reached where
  listed entry inside := by
    rw [follows.alive, follows.id]
    exact registered.listed entry (follows.listed.subset inside)
  nextUser user fresh := by
    rw [follows.alive]
    rw [follows.nextUser] at fresh
    exact registered.nextUser user fresh
  drawn user alive := by
    rw [follows.alive] at alive
    rw [follows.autoId]
    exact follows.drawn _ (registered.drawn user alive)
  unique user other alive aliveToo same := by
    rw [follows.alive] at alive aliveToo
    rw [follows.autoId, follows.autoId] at same
    exact registered.unique user other alive aliveToo same
  ids user alive := by
    rw [follows.alive] at alive
    rw [follows.autoId, follows.id]
    exact registered.ids user alive

namespace Linked

variable {core reached : Core} {me connection : Nat}

/-- Code that leaves users and protocols linked as they are, and closes
connections, keeps the pointers. -/
theorem follows
    {obs : List Obs}
    (linked : Linked core)
    (follows : Follows core obs reached)
    (clients : ∀ user, (reached.users user).client =
      (core.users user).client)
    (protocols : reached.protocols = core.protocols)
    (stays : ∀ user connection,
      (reached.connections connection).state = .open →
        (core.users user).client = some connection →
          ((core.users user).id, user) ∈ core.listUser →
            ((core.users user).id, user) ∈ reached.listUser) :
    Linked reached := by
  have opened : ∀ connection,
      (reached.connections connection).state = .open →
        (core.connections connection).state = .open := by
    intro connection isOpen
    by_contra closed
    exact follows.closing connection closed isOpen
  refine
    { linked.toRegistered.follows follows with
      attached := ?_, alive := ?_, hasProtocol := ?_, receivedFirst := ?_,
      opens := ?_, connects := ?_, online := ?_, nextConnection := ?_ }
  · intro user connection client
    rw [clients] at client
    obtain ⟨-, hasUser, connected⟩ := linked.attached user connection client
    exact ⟨by rw [clients, client], by rw [protocols, hasUser],
      by rw [protocols, connected]⟩
  · intro user connection client
    rw [follows.alive]
    rw [clients] at client
    exact linked.alive user connection client
  · intro user connection client
    rw [follows.hasProtocol]
    rw [clients] at client
    exact linked.hasProtocol user connection client
  · intro user connection client
    rw [follows.receivedFirst]
    rw [clients] at client
    exact linked.receivedFirst user connection client
  · intro user connection isOpen hasUser
    rw [clients]
    rw [protocols] at hasUser
    exact linked.opens user connection (opened connection isOpen) hasUser
  · intro connection isOpen
    rw [protocols, follows.hasProtocol]
    exact linked.connects connection (opened connection isOpen)
  · intro user connection isOpen client
    rw [clients] at client
    rw [follows.id]
    exact stays user connection isOpen client
      (linked.online user connection (opened connection isOpen) client)
  · intro connection fresh
    rw [follows.nextConnection] at fresh
    obtain ⟨closed, noUser⟩ := linked.nextConnection connection fresh
    exact ⟨follows.closing connection closed, by rw [protocols, noUser]⟩

/-- An entry of another live user survives the removal of a user. -/
theorem mem_removeList
    (linked : Linked core)
    {user : Nat}
    (alive : (core.users user).alive)
    (aliveMe : (core.users me).alive)
    (different : user ≠ me)
    (inside : ((core.users user).id, user) ∈ core.listUser) :
    ((core.users user).id, user) ∈ (core.removeList me).listUser := by
  refine List.mem_filter.mpr ⟨inside, ?_⟩
  simp only [ne_eq, decide_not, Bool.not_eq_true', decide_eq_false_iff_not]
  intro same
  exact different (linked.same_of_id alive aliveMe same)

/-- A user that has been removed is not listed. -/
theorem ne_of_mem_removeList
    (linked : Linked core)
    {entry : Nat × Nat}
    (inside : entry ∈ (core.removeList me).listUser) : entry.2 ≠ me := by
  obtain ⟨isListed, kept⟩ := List.mem_filter.mp inside
  rintro rfl
  rw [(linked.listed entry isListed).2] at kept
  simp at kept

/-- Session code that only concerns its own session keeps the pointers. -/
theorem near_step
    {obs : List Obs}
    (linked : Linked core)
    (client : (core.users me).client = some connection)
    (followed : Follows core obs reached)
    (stays : core.Near reached me) : Linked reached := by
  refine linked.follows followed ?_ stays.protocols ?_
  · intro user
    by_cases same : user = me
    · rw [same, stays.client]
    · rw [stays.others user same]
  · intro user other isOpen holds inside
    rcases stays.listed with same | ⟨removed, closes⟩
    · rw [same]
      exact inside
    · rw [removed]
      refine linked.mem_removeList (linked.alive user other holds)
        (linked.alive me connection client) ?_ inside
      rintro rfl
      exact closes other (linked.attached user other holds) isOpen

/-- A connection is closed. -/
theorem closeConnection
    (linked : Linked core)
    (connection : Nat) : Linked (core.closeConnection connection) := by
  have followed : Follows core [] (core.closeConnection connection) :=
    .closeConnection (by simp)
  exact linked.follows followed (by simp) (by simp)
    fun _ _ _ _ inside => by simpa using inside

/-- A takeover keeps the pointers: the old connection is no longer open. -/
theorem takenOver
    {other : Nat}
    (linked : Linked core)
    (client : (core.users me).client = some connection)
    (found : core.findSession me = some other) :
    Linked (core.takenOver me other connection) := by
  obtain ⟨different, isListed, -⟩ := Core.findSession_some found
  obtain ⟨entry, inList, rfl⟩ := List.mem_map.mp isListed
  obtain ⟨alive, id⟩ := linked.listed entry inList
  obtain ⟨obs, -, disconnects⟩ := Runs.disconnect core entry.2
  have follows := disconnects.trans (Follows.takenOver core client entry.2)
  have users := core.users_takenOver connection different
  have protocols := core.protocols_takenOver connection me entry.2
  have opened : ∀ protocol, ((core.takenOver me entry.2 connection).connections
      protocol).state = .open → (core.connections protocol).state = .open := by
    intro protocol isOpen
    by_contra closed
    exact follows.closing protocol closed isOpen
  -- the clients after the takeover
  have clients : ∀ user protocol,
      ((core.takenOver me entry.2 connection).users user).client =
          some protocol →
        (user = entry.2 ∧ protocol = connection) ∨
          (user ≠ me ∧ user ≠ entry.2 ∧ protocol ≠ connection ∧
            (core.users user).client = some protocol) := by
    intro user protocol
    rw [users]
    split
    · simp
    · rename_i notMe
      split
      · rename_i isOther
        intro same
        exact .inl ⟨isOther, (Option.some.inj same).symm⟩
      · rename_i notOther
        intro same
        refine .inr ⟨notMe, notOther, ?_, same⟩
        rintro rfl
        exact notMe (linked.same_of_client same client)
  refine
    { linked.toRegistered.follows follows with
      attached := ?_, alive := ?_, hasProtocol := ?_, receivedFirst := ?_,
      opens := ?_, connects := ?_, online := ?_, nextConnection := ?_ }
  · intro user protocol holds
    have connected := follows.connected protocol
    rcases clients user protocol holds with ⟨rfl, rfl⟩ | ⟨-, -, other, before⟩
    · refine ⟨holds, by simp [protocols], ?_⟩
      rw [connected]
      exact (linked.attached me protocol client).connected
    · obtain ⟨-, hasUser, isConnected⟩ := linked.attached user protocol before
      exact ⟨holds, by rw [protocols, if_neg other, hasUser],
        by rw [connected, isConnected]⟩
  · intro user protocol holds
    rw [follows.alive]
    rcases clients user protocol holds with ⟨rfl, rfl⟩ | ⟨-, -, -, before⟩
    · exact alive
    · exact linked.alive user protocol before
  · intro user protocol holds
    rw [follows.hasProtocol]
    rcases clients user protocol holds with ⟨rfl, rfl⟩ | ⟨-, -, -, before⟩
    · exact linked.hasProtocol me protocol client
    · exact linked.hasProtocol user protocol before
  · intro user protocol holds
    rw [follows.receivedFirst]
    rcases clients user protocol holds with ⟨rfl, rfl⟩ | ⟨-, -, -, before⟩
    · exact linked.receivedFirst me protocol client
    · exact linked.receivedFirst user protocol before
  · intro user protocol isOpen hasUser
    rw [protocols] at hasUser
    split at hasUser
    · rename_i same
      have isOther := Option.some.inj hasUser
      subst same isOther
      simp [users, different]
    · rename_i otherProtocol
      have before := linked.opens user protocol (opened protocol isOpen) hasUser
      have notMe : user ≠ me := by
        rintro rfl
        rw [client] at before
        exact otherProtocol (Option.some.inj before).symm
      have notOther : user ≠ entry.2 := by
        rintro rfl
        exact Core.closed_disconnected
          (linked.attached entry.2 protocol before) isOpen
      rw [users, if_neg notMe, if_neg notOther, before]
  · intro protocol isOpen
    rw [follows.connected, follows.hasProtocol]
    exact linked.connects protocol (opened protocol isOpen)
  · intro user protocol isOpen holds
    rw [follows.id, core.listUser_takenOver connection different]
    have aliveMe := linked.alive me connection client
    rcases clients user protocol holds with
      ⟨rfl, rfl⟩ | ⟨notMe, -, -, before⟩
    · exact linked.mem_removeList alive aliveMe different (id ▸ inList)
    · exact linked.mem_removeList (linked.alive user protocol before) aliveMe
        notMe (linked.online user protocol (opened protocol isOpen) before)
  · intro protocol fresh
    rw [follows.nextConnection] at fresh
    obtain ⟨closed, noUser⟩ := linked.nextConnection protocol fresh
    refine ⟨follows.closing protocol closed, ?_⟩
    rw [protocols, if_neg, noUser]
    rintro rfl
    rw [(linked.attached me protocol client).user] at noUser
    exact absurd noUser (by simp)

end Linked

end Network
end Lotospp
