import Lotospp.Common.LineEffect

/-!
# Whom a line concerns

A line changes the session that has sent it, and no other; the session keeps
its identity and its telnet flags, and leaves the list only when its
connection is closed.  The exception is a takeover, with which the line
ends.
-/

namespace Lotospp
namespace Common

open Text Effect Commands Strings

/-- What a line leaves alone of its user. -/
def User.ties (user : User) :
    (Bool × Nat × Nat × Option Nat) × TelnetFlags × Nat :=
  (user.identity, user.flagsTelnet, user.tbpos)

/-- The user and the protocol point to each other, and the protocol has a
connection. -/
structure Core.Attached (core : Core) (me connection : Nat) : Prop where
  /-- The protocol is the user's client. -/
  client : (core.users me).client = some connection
  /-- The user is the protocol's user. -/
  user : (core.protocols connection).user = some me
  /-- The protocol has a connection. -/
  connected : (core.protocols connection).connected

/-- The user has been removed from the list, and its connection closed. -/
def Core.Unlists (core reached : Core) (me : Nat) : Prop :=
  reached.listUser = (core.removeList me).listUser ∧
    ∀ connection, core.Attached me connection →
      (reached.connections connection).state ≠ .open

/-- Of the users only `me` has changed, and it has kept its identity. -/
structure Core.Near (core reached : Core) (me : Nat) : Prop where
  /-- The other users are as before. -/
  others : ∀ user, user ≠ me → reached.users user = core.users user
  /-- The identity is the same. -/
  identity : (reached.users me).identity = (core.users me).identity
  /-- The protocols are as before. -/
  protocols : reached.protocols = core.protocols
  /-- A connection that is not open does not open again. -/
  closing : ∀ connection, (core.connections connection).state ≠ .open →
    (reached.connections connection).state ≠ .open
  /-- The list is the same, or the user has left it. -/
  listed : reached.listUser = core.listUser ∨ core.Unlists reached me

/-- What a line does to the server, a takeover apart: the user has also kept
its telnet flags and its place in the line. -/
structure Core.Local (core reached : Core) (me : Nat) : Prop
    extends Core.Near core reached me where
  /-- The telnet flags are the same. -/
  flags : (reached.users me).flagsTelnet = (core.users me).flagsTelnet
  /-- The place in the line is the same. -/
  tbpos : (reached.users me).tbpos = (core.users me).tbpos

/-! ## Closing connections -/

namespace Core

theorem closing_closeConnection
    (core : Core)
    (connection : Nat)
    {other : Nat}
    (closed : (core.connections other).state ≠ .open) :
    ((core.closeConnection connection).connections other).state ≠ .open := by
  rw [state_closeConnection]
  split
  · simp
  · exact closed

theorem closing_kicked
    (core : Core)
    (user : Nat)
    {connection : Nat}
    (closed : (core.connections connection).state ≠ .open) :
    ((core.kicked user).connections connection).state ≠ .open := by
  unfold kicked
  split
  · exact closed
  · split
    · exact closed
    · split
      · exact core.closing_closeConnection _ closed
      · exact closed

/-- A kick closes the connection of the user. -/
theorem closed_kicked
    {core : Core}
    {user connection : Nat}
    (attached : core.Attached user connection) :
    ((core.kicked user).connections connection).state ≠ .open := by
  have hasUser : ¬ (core.protocols connection).user = none := by
    simp [attached.user]
  unfold kicked
  rw [attached.client]
  simp only [hasUser, if_false, attached.connected, if_true]
  exact core.closeConnection_closes connection

theorem closing_disconnected
    (core : Core)
    (user : Nat)
    {connection : Nat}
    (closed : (core.connections connection).state ≠ .open) :
    ((core.disconnected user).connections connection).state ≠ .open := by
  unfold disconnected
  split
  · exact closed
  · split
    · exact core.closing_closeConnection _ closed
    · exact closed

/-- Disconnecting a user closes its connection. -/
theorem closed_disconnected
    {core : Core}
    {user connection : Nat}
    (attached : core.Attached user connection) :
    ((core.disconnected user).connections connection).state ≠ .open := by
  unfold disconnected
  rw [attached.client]
  simp only [attached.connected, if_true]
  exact core.closeConnection_closes connection

theorem closing_cleared
    (core : Core)
    (me : Nat)
    {connection : Nat}
    (closed : (core.connections connection).state ≠ .open) :
    ((core.cleared me).connections connection).state ≠ .open := by
  apply @cleared_intro core me fun now =>
    (now.connections connection).state ≠ .open
  · exact closed
  · exact fun now other _ _ closed => now.closing_kicked other closed

end Core

namespace Core.Near

variable {core middle reached : Core} {me : Nat}

/-- The user keeps the identifier it is listed by. -/
theorem id (stays : core.Near reached me) :
    (reached.users me).id = (core.users me).id :=
  congrArg (fun identity => identity.2.1) stays.identity

theorem listUser_subset (stays : core.Near reached me) :
    reached.listUser ⊆ core.listUser := by
  rcases stays.listed with same | ⟨removed, -⟩
  · rw [same]
    exact List.Subset.refl _
  · rw [removed]
    exact List.filter_sublist.subset

theorem client (stays : core.Near reached me) :
    (reached.users me).client = (core.users me).client :=
  congrArg (fun identity => identity.2.2.2) stays.identity

theorem attached
    (stays : core.Near reached me)
    {connection : Nat}
    (attached : core.Attached me connection) :
    reached.Attached me connection where
  client := stays.client.trans attached.client
  user := by rw [stays.protocols, attached.user]
  connected := by rw [stays.protocols, attached.connected]

theorem trans
    (first : core.Near middle me)
    (second : middle.Near reached me) : core.Near reached me where
  others user different :=
    (second.others user different).trans (first.others user different)
  identity := second.identity.trans first.identity
  protocols := second.protocols.trans first.protocols
  closing connection closed :=
    second.closing connection (first.closing connection closed)
  listed := by
    have same := first.id
    rcases first.listed with stays | ⟨removed, closes⟩
    · rcases second.listed with staysToo | ⟨removed, closes⟩
      · exact .inl (staysToo.trans stays)
      · refine .inr ⟨?_, fun connection attached =>
          closes connection (first.attached attached)⟩
        rw [removed, Core.removeList, Core.removeList, stays, same]
    · right
      refine ⟨?_, fun connection attached =>
        second.closing connection (closes connection attached)⟩
      rcases second.listed with stays | ⟨removedToo, -⟩
      · rw [stays, removed]
      · rw [removedToo, Core.removeList, removed, Core.removeList, same,
          List.filter_filter]
        simp

theorem setUser
    {change : User → User}
    (keeps : User.Keeps change)
    (core : Core)
    (me : Nat) : core.Near (core.setUser me change) me where
  others user different := Core.users_setUser_of_ne core change different
  identity := by
    rw [Core.users_setUser_self]
    exact keeps _
  protocols := rfl
  closing _ closed := closed
  listed := .inl rfl

/-- A user that edits its line stays near. -/
theorem edits (edits : core.Edits reached me) : core.Near reached me := by
  obtain ⟨textBuffer, tbpos, -, rfl⟩ := edits
  exact setUser (fun _ => by rfl) core me

end Core.Near

namespace Core.Local

variable {core middle reached : Core} {me : Nat}

/-- Users and protocols are the same, and connections may be closed. -/
theorem of_users
    (users : reached.users = core.users)
    (protocols : reached.protocols = core.protocols)
    (closing : ∀ connection, (core.connections connection).state ≠ .open →
      (reached.connections connection).state ≠ .open)
    (listed : reached.listUser = core.listUser ∨ core.Unlists reached me) :
    core.Local reached me where
  others user _ := congrFun users user
  identity := by rw [users]
  protocols := protocols
  closing := closing
  listed := listed
  flags := by rw [users]
  tbpos := by rw [users]

/-- Only the database, the identifiers or the salts have changed. -/
theorem of_rest
    (users : reached.users = core.users)
    (protocols : reached.protocols = core.protocols)
    (connections : reached.connections = core.connections)
    (listed : reached.listUser = core.listUser) :
    core.Local reached me :=
  of_users users protocols (fun _ closed => by rwa [connections]) (.inl listed)

theorem refl (core : Core) (me : Nat) : core.Local core me :=
  of_rest rfl rfl rfl rfl

theorem trans
    (first : core.Local middle me)
    (second : middle.Local reached me) : core.Local reached me where
  __ := first.toNear.trans second.toNear
  flags := second.flags.trans first.flags
  tbpos := second.tbpos.trans first.tbpos

theorem setUser
    {change : User → User}
    (keeps : ∀ user, (change user).ties = user.ties)
    (core : Core)
    (me : Nat) : core.Local (core.setUser me change) me where
  __ := Near.setUser (fun user => congrArg Prod.fst (keeps user)) core me
  flags := by
    rw [Core.users_setUser_self]
    exact congrArg (fun ties => ties.2.1) (keeps _)
  tbpos := by
    rw [Core.users_setUser_self]
    exact congrArg (fun ties => ties.2.2) (keeps _)

/-- A kicked user is removed from the list. -/
theorem removed (core : Core) (me : Nat) :
    core.Local ((core.kicked me).removeList me) me := by
  refine of_users (by simp [Core.removeList]) (by simp [Core.removeList])
    (fun _ closed => core.closing_kicked me closed) (.inr ⟨?_, ?_⟩)
  · simp [Core.removeList]
  · exact fun _ attached => Core.closed_kicked attached

theorem attempted (core : Core) (me : Nat) :
    core.Local (core.attempted me) me := by
  have counted : core.Local (core.counted me) me :=
    setUser (fun _ => by rfl) core me
  unfold Core.attempted
  simp only
  split
  · exact counted.trans (removed _ me)
  · exact counted.trans (setUser (fun _ => by rfl) _ me)

theorem rejected (core : Core) (me : Nat) (inpstr : Bytes) :
    core.Local (core.rejected me inpstr) me := by
  apply @Core.rejected_intro core me inpstr fun now => core.Local now me
  · exact refl core me
  · exact fun now stays => stays.trans (attempted now me)

theorem copied (core : Core) (me : Nat) (row : Database.Row) :
    core.Local (core.copied me row) me :=
  setUser (fun _ => by rfl) core me

theorem load
    (env : Env)
    (me : Nat)
    (userName : Bytes)
    (preload : Bool)
    (core : Core) :
    core.Local (loadOutcome env me userName preload core).2 me := by
  apply @loadOutcome_intro env me userName preload core
    fun now => core.Local now me
  · exact of_rest rfl rfl rfl rfl
  · exact fun now row queried => queried.trans (copied now me row)
  · exact fun now level queried =>
      queried.trans (setUser (fun _ => by rfl) now me)

theorem cleared (core : Core) (me : Nat) : core.Local (core.cleared me) me :=
  of_users (by simp) (by simp) (fun _ closed => core.closing_cleared me closed)
    (.inl (by simp))

theorem named (env : Env) (me : Nat) (inpstr : Bytes) (core : Core) :
    core.Local (core.named env me inpstr) me := by
  rw [Core.named]
  have renamed : core.Local ((core.rejected me inpstr).setUser me fun user =>
      { user with name := properName inpstr }) me :=
    trans (rejected core me inpstr) (setUser (fun _ => by rfl) _ me)
  generalize (core.rejected me inpstr).setUser me (fun user =>
    { user with name := properName inpstr }) = entered at renamed ⊢
  have loaded := load env me inpstr true (entered.cleared me)
  generalize (loadOutcome env me inpstr true (entered.cleared me)).2 = found
    at loaded ⊢
  exact renamed.trans ((cleared entered me).trans (loaded.trans
    (setUser (fun _ => by rfl) found me)))

theorem chosen (env : Env) (me : Nat) (inpstr : Bytes) (core : Core) :
    core.Local (core.chosen env me inpstr) me := by
  rw [Core.chosen]
  have hashed : core.Local (core.setUser me fun user =>
      { user with password := some (env.cryptFresh core.salts inpstr) }) me :=
    setUser (fun _ => by rfl) core me
  generalize core.setUser me (fun user =>
    { user with password := some (env.cryptFresh core.salts inpstr) }) =
      entered at hashed ⊢
  have drawn : entered.Local { entered with salts := core.salts + 1 } me :=
    of_rest rfl rfl rfl rfl
  exact hashed.trans (drawn.trans (setUser (fun _ => by rfl) _ me))

theorem registered
    (me guid : Nat)
    (db : Database.Users)
    (core : Core) : core.Local (core.registered me guid db) me := by
  rw [Core.registered]
  have raised : core.Local (core.setUser me fun user =>
      { user with level := .novice }) me :=
    setUser (fun _ => by rfl) core me
  generalize core.setUser me (fun user => { user with level := .novice }) =
    entered at raised ⊢
  have stored : entered.Local { entered with db := db } me :=
    of_rest rfl rfl rfl rfl
  generalize { entered with db := db } = created at stored ⊢
  have kept : created.Local (created.setUser me fun user =>
      { user with guid := guid % 2 ^ 32, password := none }) me :=
    setUser (fun _ => by rfl) created me
  exact raised.trans (stored.trans (kept.trans
    (setUser (fun _ => by rfl) _ me)))

theorem admitted (core : Core) (me : Nat) :
    core.Local (core.admitted me) me :=
  setUser (fun _ => by rfl) core me

theorem drawn (core : Core) (me : Nat) : core.Local (drawOutcome core).2 me := by
  unfold drawOutcome
  split <;> exact of_rest rfl rfl rfl rfl

theorem run (me : Nat) (core : Core) :
    core.Local (runOutcome me core).2 me := by
  have drawn := drawn core me
  apply @runOutcome_intro me core fun now => core.Local now me
  · exact refl core me
  · exact drawn
  · exact drawn.trans (removed _ me)

theorem dispatched (me : Nat) (stage : UserStage) (core : Core) :
    core.Local (dispatchOutcome me stage core).2 me := by
  unfold dispatchOutcome
  split
  · exact run me core
  · have staged : core.Local (core.setUser me fun user =>
        { user with stage := .cmdLine }) me :=
      setUser (fun _ => by rfl) core me
    exact staged

theorem parsed (me : Nat) (core : Core) :
    core.Local (parseOutcome me core).2 me := by
  have cleaned : core.Local (core.setUser me fun user =>
      user.setText (cleanString user.text)) me :=
    setUser (fun _ => by rfl) core me
  apply @parseOutcome_intro me core _ (fun now => core.Local now me) rfl cleaned
  · intro com
    generalize core.setUser me (fun user =>
      user.setText (cleanString user.text)) = entered at cleaned ⊢
    have held : entered.Local (entered.setUser me fun user =>
        { user with com := com }) me :=
      setUser (fun _ => by rfl) entered me
    exact cleaned.trans (held.trans (dispatched me _ _))
  · exact fun now stays => stays.trans (setUser (fun _ => by rfl) now me)

end Core.Local

/-! ## Aborts of a line -/

/-- A load aborts in one way only. -/
theorem loadOutcome_error
    {env : Env}
    {me : Nat}
    {userName : Bytes}
    {preload : Bool}
    {core : Core}
    {abort : Abort}
    (failed : (loadOutcome env me userName preload core).1 = .error abort) :
    abort = .enumConversion := by
  unfold loadOutcome at failed
  simp only at failed
  split at failed
  · exact absurd failed (by simp)
  · split at failed
    · exact absurd failed (by simp)
    · split at failed
      · simpa using failed.symm
      · exact absurd failed (by simp)

/-- A command throws no stage. -/
theorem runOutcome_noStage
    {me : Nat}
    {core : Core}
    {stage : UserStage} :
    (runOutcome me core).1 ≠ .error (.stage stage) := by
  have drawn : (drawOutcome core).1 ≠ .error (.stage stage) := by
    unfold drawOutcome
    split <;> simp
  unfold runOutcome
  split
  · simp
  · simp
  · split
    · simp
    · split
      · split
        · rename_i failed
          rw [failed] at drawn
          simpa using drawn
        · unfold sayOutcome
          split
          · simp
          · split
            · simp
            · rename_i fault _
              cases fault <;> simp [Abort.ofFault]
      · split
        · split
          · rename_i failed
            rw [failed] at drawn
            simpa using drawn
          · simp
        · simp

theorem parseOutcome_noStage
    {me : Nat}
    {core : Core}
    {stage : UserStage} :
    (parseOutcome me core).1 ≠ .error (.stage stage) := by
  unfold parseOutcome
  simp only
  split
  · rename_i fault _
    cases fault <;> simp [Abort.ofFault]
  · split
    · rename_i failed
      intro raised
      simp only at raised
      rw [dispatchOutcome] at failed
      split at failed
      · exact runOutcome_noStage ((congrArg Prod.fst failed).trans raised)
      · exact absurd failed (by simp)
    · simp

/-! ## Takeovers -/

/-- The session that is found is another one, and listed. -/
theorem Core.findSession_some
    {core : Core}
    {me other : Nat}
    (found : core.findSession me = some other) :
    other ≠ me ∧ other ∈ core.listUser.map Prod.snd ∧
      (core.users me).name = (core.users other).name := by
  have same := List.find?_some found
  simp only [ne_eq, decide_eq_true_eq] at same
  exact ⟨same.1, List.mem_of_find?_eq_some found, same.2⟩

section TakenOver

variable (core : Core) {me other : Nat} (connection : Nat)

theorem Core.users_takenOver (different : other ≠ me) (user : Nat) :
    (core.takenOver me other connection).users user =
      if user = me then { core.users me with client := none }
      else if user = other then
        { core.users other with client := some connection }
      else core.users user := by
  unfold Core.takenOver
  by_cases isMe : user = me
  · subst isMe
    simp [Core.removeList, Core.setProtocol, different.symm]
  · by_cases isOther : user = other
    · subst isOther
      simp [Core.removeList, Core.setProtocol, isMe]
    · simp [Core.removeList, Core.setProtocol, isMe, isOther]

theorem Core.protocols_takenOver (me other protocol : Nat) :
    (core.takenOver me other connection).protocols protocol =
      if protocol = connection then
        { core.protocols connection with user := some other }
      else core.protocols protocol := by
  simp [Core.takenOver, Core.removeList, Core.setProtocol,
    Function.update_apply]

theorem Core.connections_takenOver (me other : Nat) :
    (core.takenOver me other connection).connections =
      (core.disconnected other).connections := rfl

theorem Core.listUser_takenOver (different : other ≠ me) :
    (core.takenOver me other connection).listUser =
      (core.removeList me).listUser := by
  simp [Core.takenOver, Core.removeList, Core.setProtocol, different.symm]

end TakenOver

/-- A line ends in a takeover of another session. -/
def TakesOver
    (core : Core)
    (me : Nat)
    (outcome : Except Abort Unit × Core) : Prop :=
  ∃ before other connection,
    core.Local before me ∧ (∃ obs, Follows core obs before) ∧
      (before.users me).client = some connection ∧
      before.findSession me = some other ∧
      outcome = (.error (.stage .swapped),
        before.takenOver me other connection)

/-- Entering the command line concerns only the session, or ends in a
takeover. -/
theorem connectOutcome_local
    {core middle : Core}
    {me : Nat}
    {obs : List Obs}
    (follows : Follows core obs middle)
    (stays : core.Local middle me) :
    (core.Local (connectOutcome me middle).2 me ∧
        ∀ stage, (connectOutcome me middle).1 ≠ .error (.stage stage)) ∨
      TakesOver core me (connectOutcome me middle) := by
  unfold connectOutcome
  split
  · exact .inl ⟨stays, by simp⟩
  · rename_i other found
    split
    · exact .inl ⟨stays.trans (.of_users (by simp) (by simp)
        (fun _ closed => middle.closing_disconnected other closed)
        (.inl (by simp))), by simp⟩
    · rename_i connection client
      exact .inr ⟨middle, other, connection, stays, ⟨obs, follows⟩, client,
        found, rfl⟩

/-- A line concerns its own session, or ends in a takeover. -/
theorem LineEffect.concerns
    {env : Env}
    {me : Nat}
    {line : Bytes}
    {core : Core}
    {outcome : Except Abort Unit × Core}
    (effect : LineEffect env me line core outcome) :
    (core.Local outcome.2 me ∧
        ∀ stage, outcome.1 = .error (.stage stage) →
          stage = .disconnect ∧ outcome.2 = core) ∨
      TakesOver core me outcome := by
  cases effect with
  | answers => exact .inl ⟨.refl core me, by simp⟩
  | abandons => exact .inl ⟨.refl core me, by simp⟩
  | fails => exact .inl ⟨.attempted core me, by simp⟩
  | names => exact .inl ⟨.named env me line core, by simp⟩
  | chooses => exact .inl ⟨.chosen env me line core, by simp⟩
  | throws right loaded =>
      have stays := Core.Local.load env me (core.users me).name false core
      rw [loaded] at stays
      have throws := loadOutcome_error (congrArg Prod.fst loaded)
      exact .inl ⟨stays, by simp [throws]⟩
  | @admits right found reached loaded =>
      have stays := Core.Local.load env me (core.users me).name false core
      obtain ⟨obs, -, follows⟩ :=
        Runs.load env me (core.users me).name false core
      rw [loaded] at stays follows
      have admits : Follows reached [] (reached.admitted me) :=
        .setUser (fun _ => by rfl) reached me
      rcases connectOutcome_local (follows.trans admits)
        (stays.trans (.admitted reached me)) with
        ⟨staysToo, noStage⟩ | takesOver
      · exact .inl ⟨staysToo, fun stage raised => absurd raised (noStage stage)⟩
      · exact .inr takesOver
  | confirms => exact .inl ⟨.registered me _ _ core, by simp⟩
  | stumbles => exact .inl ⟨.refl core me, by simp⟩
  | parses =>
      exact .inl ⟨.parsed me core,
        fun stage raised => absurd raised parseOutcome_noStage⟩

/-- A line enters no NUL for the other users. -/
theorem LineEffect.noNul_others
    {env : Env}
    {me : Nat}
    {line : Bytes}
    {core : Core}
    {outcome : Except Abort Unit × Core}
    (effect : LineEffect env me line core outcome)
    {user : Nat}
    (different : user ≠ me)
    (noNul : (core.users user).NoNul) : (outcome.2.users user).NoNul := by
  rcases effect.concerns with ⟨stays, -⟩ |
    ⟨before, other, connection, stays, -, client, found, rfl⟩
  · rw [stays.others user different]
    exact noNul
  · have apart := (Core.findSession_some found).1
    rw [before.users_takenOver connection apart, if_neg different]
    split
    · rename_i isOther
      rw [← isOther, stays.others user different]
      exact noNul
    · rw [stays.others user different]
      exact noNul

end Common
end Lotospp
