import Lotospp.Common.ReadRule
import Lotospp.Network.Steps

/-!
# Sessions

What a packet of a session does to the server as a whole: the session reads it
with the pointers in order, and when it throws a stage, `Telnet::parsePacket`
ends a session.  `ServerInvariant` lists what has to be checked for a property
of the sessions to hold in every state of a run.
-/

namespace Lotospp
namespace Network

open Text Effect Common Commands

/-- The user of an open or closing connection, with the pointers in order. -/
structure Session (core : Core) (me connection : Nat) : Prop where
  /-- The pointers agree. -/
  linked : Linked core
  /-- The connection is the user's client. -/
  client : (core.users me).client = some connection

/-- A user has abandoned the login. -/
def abandoned (core : Core) (me : Nat) : Core :=
  destroyed (core.disconnected me) me

/-- A session has been taken over, and the handler has destroyed it. -/
def swapped (core : Core) (me other connection : Nat) : Core :=
  destroyed (core.takenOver me other connection) other

/-- A session has been taken over, in a state that some property holds of, or
another one holds once the handler has destroyed the session. -/
def Swapped
    (inv ended : Core → Prop)
    (me connection : Nat)
    (core : Core) : Prop :=
  ∃ before other, Session before me connection ∧
    before.findSession me = some other ∧
    (inv before ∨ ended (swapped before me other connection)) ∧
    core = before.takenOver me other connection

/-- How a session that some property holds of leaves a line: the property is
kept, unless the session has been swapped for an old one. -/
def Left
    (inv ended : Core → Prop)
    (me connection : Nat)
    (abort : Abort)
    (core : Core) : Prop :=
  (Session core me connection ∧ inv core ∧
      ∀ stage, abort = .stage stage → stage = .disconnect) ∨
    abort = .stage .swapped ∧ Swapped inv ended me connection core

namespace Session

variable {env : Env} {core reached : Core} {me connection : Nat}

theorem attached (session : Session core me connection) :
    core.Attached me connection :=
  session.linked.attached me connection session.client

theorem alive (session : Session core me connection) :
    (core.users me).alive :=
  session.linked.alive me connection session.client

/-- The user of a session has joined. -/
theorem joined (session : Session core me connection) : me < core.nextUser := by
  by_contra later
  have alive := session.alive
  rw [session.linked.nextUser me (not_lt.mp later)] at alive
  exact absurd alive (by simp)

/-- Code that only concerns its own session keeps it. -/
theorem near
    {obs : List Obs}
    (session : Session core me connection)
    (follows : Follows core obs reached)
    (stays : core.Near reached me) : Session reached me connection where
  linked := session.linked.near_step session.client follows stays
  client := stays.client.trans session.client

theorem setUser
    {change : User → User}
    (session : Session core me connection)
    (keeps : User.Keeps change) :
    Session (core.setUser me change) me connection :=
  session.near (.setUser keeps core me) (.setUser keeps core me)

/-- An account is loaded. -/
theorem loaded
    (session : Session core me connection)
    {userName : Bytes}
    {preload : Bool}
    {val : Except Abort Bool}
    (loaded : loadOutcome env me userName preload core = (val, reached)) :
    Session reached me connection := by
  have stays := Core.Local.load env me userName preload core
  obtain ⟨obs, -, follows⟩ := Runs.load env me userName preload core
  rw [loaded] at stays follows
  exact session.near follows stays.toNear

theorem edits
    (session : Session core me connection)
    (edits : core.Edits reached me) : Session reached me connection := by
  obtain ⟨textBuffer, tbpos, -, rfl⟩ := edits
  exact session.setUser fun _ => by rfl

/-- A line leaves the session as it is, ends it, or takes an old session
over. -/
theorem line
    (session : Session core me connection)
    {line : Bytes}
    {outcome : Except Abort Unit × Core}
    (effect : LineEffect env me line core outcome)
    {obs : List Obs}
    (follows : Follows core obs outcome.2) :
    (Session outcome.2 me connection ∧
        ∀ stage, outcome.1 = .error (.stage stage) → stage = .disconnect) ∨
      outcome.1 = .error (.stage .swapped) ∧
        Swapped (fun _ => True) (fun _ => True) me connection
          outcome.2 := by
  rcases effect.concerns with ⟨stays, stages⟩ |
    ⟨before, other, held, stays, ⟨seen, followed⟩, client, found, rfl⟩
  · exact .inl ⟨session.near follows stays.toNear,
      fun stage raised => (stages stage raised).1⟩
  · refine .inr ⟨rfl, before, other, session.near followed stays.toNear, found,
      .inl trivial, ?_⟩
    have same := stays.client
    rw [client, session.client] at same
    rw [Option.some.inj same]

end Session

/-! ## The handler of `Telnet::parsePacket` -/

theorem setProtocolUser_none
    {core : Core}
    {protocol : Nat}
    (noUser : (core.protocols protocol).user = none) :
    setProtocolUser core protocol none = core := by
  have same : { core.protocols protocol with user := none } =
      core.protocols protocol := by
    rw [← noUser]
  simp [setProtocolUser, Core.setProtocol, same]

section Handler

variable {core : Core} {me connection : Nat}

theorem Session.disconnected
    (session : Session core me connection)
    (other : Nat) : Session (core.disconnected other) me connection := by
  obtain ⟨obs, -, follows⟩ := Runs.disconnect core other
  refine ⟨session.linked.follows follows (by simp) (by simp)
    fun _ _ _ _ inside => by simpa using inside, ?_⟩
  rw [Core.users_disconnected]
  exact session.client

theorem Shrinks.disconnected (core : Core) (me : Nat) :
    Shrinks core (core.disconnected me) := by
  refine .of_users (by simp) (fun user other _ isOpen => ?_) (by simp) (by simp)
  by_contra closed
  exact core.closing_disconnected me closed isOpen

theorem Session.abandoned (session : Session core me connection) :
    Linked (Network.abandoned core me) ∧
      Shrinks core (Network.abandoned core me) :=
  ⟨(session.disconnected me).linked.destroyed (session.disconnected me).alive,
    (Shrinks.disconnected core me).trans (.destroyed _ me)⟩

/-- The handler of an abandoned login. -/
theorem run_catchStage_disconnect (session : Session core me connection) :
    (catchStage connection (.stage .disconnect)).run core =
      ⟨.ok (), abandoned core me, []⟩ := by
  have alive := session.alive
  have quiet : derefObs core me = [] := by simp [derefObs, alive]
  have quietToo : derefObs (core.disconnected me) me = [] := by
    simp [derefObs, alive]
  have noUser :
      ((abandoned core me).protocols connection).user = none := by
    rw [abandoned, protocols_destroyed, if_pos]
    exact (session.disconnected me).client
  have disconnects : (disconnect me).run core =
      ⟨.ok (), core.disconnected me, []⟩ := by
    rw [disconnect, Prog.run_get_bind, session.client]
    simp [Core.disconnected, session.client, session.attached.connected]
  have ends : (destroy me).run (core.disconnected me) =
      ⟨.ok (), abandoned core me, []⟩ := by
    rw [destroy, run_deref_bind, quietToo]
    rfl
  rw [catchStage, Prog.run_get_bind, session.attached.user]
  simp only
  rw [run_deref_bind, quiet, Prog.run_bind_ok disconnects,
    Prog.run_bind_ok ends, Prog.run_modify, setProtocolUser_none noUser]
  rfl

/-- The pointers after a takeover and its handler, and what has become of the
sessions. -/
theorem Session.swapped
    {other : Nat}
    (session : Session core me connection)
    (found : core.findSession me = some other) :
    Linked (Network.swapped core me other connection) ∧
      Shrinks core (Network.swapped core me other connection) := by
  obtain ⟨different, isListed, -⟩ := Core.findSession_some found
  have taken := session.linked.takenOver session.client found
  have users := core.users_takenOver connection different
  have alive : ((core.takenOver me other connection).users other).alive := by
    rw [users, if_neg different, if_pos rfl]
    exact session.linked.safe.alive_of_mem isListed
  obtain ⟨connections, -, -, db, -⟩ :=
    destroyed_rest (core.takenOver me other connection) other
  refine ⟨taken.destroyed alive, fun user => ?_, fun user protocol => ?_,
    fun user protocol _ isOpen => ?_, ?_, ?_⟩
  · rw [Network.swapped, users_destroyed]
    split
    · rename_i isOther
      subst isOther
      rw [users, if_neg different, if_pos rfl]
      exact ⟨false, none, rfl, by simp⟩
    · rename_i notOther
      rw [users, if_neg notOther]
      split
      · rename_i isMe
        subst isMe
        exact ⟨_, none, rfl, fun isAlive => isAlive⟩
      · exact ⟨_, _, rfl, fun isAlive => isAlive⟩
  · rw [Network.swapped, users_destroyed]
    split
    · simp
    · rename_i notOther
      rw [users, if_neg notOther]
      split
      · simp
      · exact fun client => client
  · rw [Network.swapped, connections, Core.connections_takenOver] at isOpen
    by_contra closed
    exact core.closing_disconnected other closed isOpen
  · rw [Network.swapped, db]
    simp [Core.takenOver, Core.removeList, Core.setProtocol]
  · rw [Network.swapped, listUser_destroyed]
    have rest : ((core.takenOver me other connection).removeList
        other).listUser.Sublist (core.removeList me).listUser := by
      rw [← core.listUser_takenOver connection different]
      exact List.filter_sublist
    exact rest.trans List.filter_sublist

/-- The handler of a takeover destroys the session that has been taken
over. -/
theorem run_catchStage_swapped
    {other : Nat}
    (session : Session core me connection)
    (found : core.findSession me = some other) :
    (catchStage connection (.stage .swapped)).run
        (core.takenOver me other connection) =
      ⟨.ok (), swapped core me other connection, []⟩ := by
  obtain ⟨different, isListed, -⟩ := Core.findSession_some found
  have users := core.users_takenOver connection different other
  rw [if_neg different, if_pos rfl] at users
  have alive : ((core.takenOver me other connection).users other).alive := by
    rw [users]
    exact session.linked.safe.alive_of_mem isListed
  have quiet : derefObs (core.takenOver me other connection) other = [] := by
    simp [derefObs, alive]
  have hasUser : ((core.takenOver me other connection).protocols
      connection).user = some other := by
    rw [Core.protocols_takenOver, if_pos rfl]
  have noUser : ((swapped core me other connection).protocols
      connection).user = none := by
    rw [swapped, protocols_destroyed, if_pos]
    rw [users]
  have ends : (destroy other).run (core.takenOver me other connection) =
      ⟨.ok (), swapped core me other connection, []⟩ := by
    rw [destroy, run_deref_bind, quiet]
    rfl
  rw [catchStage, Prog.run_get_bind, hasUser]
  simp only
  rw [Prog.run_bind_ok ends, Prog.run_modify, setProtocolUser_none noUser]
  rfl

/-- The handler passes other exceptions on. -/
theorem run_catchStage_other
    {abort : Abort}
    (noStage : ∀ stage, abort ≠ .stage stage)
    (connection : Nat)
    (core : Core) :
    (catchStage connection abort).run core = ⟨.error abort, core, []⟩ := by
  rw [catchStage, Prog.run_get_bind]
  cases abort with
  | stage stage => exact absurd rfl (noStage stage)
  | _ => simp

end Handler

end Network
end Lotospp
