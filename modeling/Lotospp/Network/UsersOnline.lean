import Lotospp.Network.Say

/-!
# The number of users online

`Talker::getUsersOnline` counts the list of users.  It is right as long as
users leave the list with their connections: that is so of a quit, of the
last attempt, of an abandoned login and of a takeover.  A connection that is
closed under its session, and a session that is kicked when another one enters
its name, leave a user in the list that nobody takes off again.
-/

namespace Lotospp
namespace Network

open Text Effect Common Commands Strings

/-- `Talker::getUsersOnline`, of 32 bits. -/
def getUsersOnline (core : Core) : Nat :=
  core.listUser.length % 2 ^ 32

/-- The open connections that have a user. -/
def seated (core : Core) : List Nat :=
  (List.range core.nextConnection).filter fun connection =>
    (core.connections connection).state = .open ∧
      (core.protocols connection).user ≠ none

/-- No connection waits to be torn down, and no protocol to be deleted. -/
def Quiescent (core : Core) : Prop :=
  ∀ connection < core.nextConnection,
    (core.connections connection).state ≠ .requestClose ∧
      ((core.connections connection).hasProtocol ∨
        (core.protocols connection).user = none)

instance (core : Core) : Decidable (Quiescent core) :=
  inferInstanceAs (Decidable (∀ connection < _, _))

/-- Every listed user has an open connection. -/
def AllOnline (core : Core) : Prop :=
  ∀ entry ∈ core.listUser, Online core entry.2

theorem AllOnline.stays
    {core reached : Core}
    (all : AllOnline core)
    (stays : StaysOnline core reached) : AllOnline reached :=
  fun entry inside => stays.2 entry inside (all entry (stays.1 inside))

/-! ## What a line does to the list -/

/-- Nobody is kicked when no session hangs. -/
theorem Core.cleared_of_noneHangs
    {core : Core}
    {me : Nat}
    (noneHangs : ∀ entry ∈ core.listUser,
      ¬ core.Hangs me (core.users me).name entry.2) :
    core.cleared me = core := by
  apply @Core.cleared_intro core me fun now => now = core
  · rfl
  · rintro now other inside hangs rfl
    obtain ⟨entry, isListed, rfl⟩ := List.mem_map.mp inside
    exact absurd hangs (noneHangs entry isListed)

namespace StaysOnline

variable {core reached : Core} {me connection : Nat}

/-- The session has changed, but neither the list nor the connections. -/
theorem of_local
    (stays : core.Local reached me)
    (listUser : reached.listUser = core.listUser)
    (connections : reached.connections = core.connections) :
    StaysOnline core reached := by
  refine of_rest listUser (fun user => ?_) connections
  by_cases isMe : user = me
  · rw [isMe]
    exact stays.client
  · rw [stays.others user isMe]

/-- A kicked user is removed from the list. -/
theorem removed (session : Session core me connection) :
    StaysOnline core ((core.kicked me).removeList me) := by
  refine of_unlisted session ?_ ?_ ?_
  · simp [Core.removeList]
  · intro user _
    simp [Core.removeList]
  · intro other different isOpen
    refine Core.open_kicked ?_ isOpen
    rw [session.client]
    exact fun same => different (Option.some.inj same).symm

theorem attempted (session : Session core me connection) :
    StaysOnline core (core.attempted me) := by
  have counted : StaysOnline core (core.counted me) :=
    setUser (fun _ => by rfl) core me
  have sessionCounted : Session (core.counted me) me connection :=
    session.setUser fun _ => by rfl
  unfold Core.attempted
  simp only
  split
  · exact counted.trans (removed sessionCounted)
  · exact counted.trans (setUser (fun _ => by rfl) _ me)

theorem rejected
    (session : Session core me connection)
    (line : Bytes) : StaysOnline core (core.rejected me line) := by
  have both : StaysOnline core (core.rejected me line) ∧
      Session (core.rejected me line) me connection := by
    apply @Core.rejected_intro core me line fun now =>
      StaysOnline core now ∧ Session now me connection
    · exact ⟨refl core, session⟩
    · rintro now ⟨stays, sessionNow⟩
      obtain ⟨obs, -, follows⟩ := Runs.attempt now me
      exact ⟨stays.trans (attempted sessionNow),
        sessionNow.near follows (Core.Local.attempted now me).toNear⟩
  exact both.1

/-- Loading an account leaves the list and the connections. -/
theorem load
    (env : Env)
    (me : Nat)
    (userName : Bytes)
    (preload : Bool)
    (core : Core) :
    StaysOnline core (loadOutcome env me userName preload core).2 := by
  have same : (loadOutcome env me userName preload core).2.listUser =
        core.listUser ∧
      (loadOutcome env me userName preload core).2.connections =
        core.connections := by
    apply @loadOutcome_intro env me userName preload core fun now =>
      now.listUser = core.listUser ∧ now.connections = core.connections
    · exact ⟨rfl, rfl⟩
    · exact fun _ _ same => same
    · exact fun _ _ same => same
  exact of_local (.load env me userName preload core) same.1 same.2

theorem named
    {env : Env}
    {line : Bytes}
    (session : Session core me connection)
    (noneHangs : ∀ entry ∈ core.listUser,
      ¬ core.Hangs me (properName line) entry.2) :
    StaysOnline core (core.named env me line) := by
  have rejected := rejected session line
  have near := Core.Local.rejected core me line
  rw [Core.named]
  generalize core.rejected me line = refused at rejected near ⊢
  have renamed : StaysOnline refused (refused.setUser me fun user =>
      { user with name := properName line }) :=
    setUser (fun _ => by rfl) refused me
  have cleared : (refused.setUser me fun user =>
      { user with name := properName line }).cleared me =
        refused.setUser me fun user =>
          { user with name := properName line } := by
    refine Core.cleared_of_noneHangs fun entry inside => ?_
    rw [Core.users_setUser_self]
    rintro ⟨level, different, equal⟩
    rw [Core.users_setUser_of_ne _ _ different,
      near.others entry.2 different] at level equal
    exact noneHangs entry (rejected.1 inside) ⟨level, different, equal⟩
  rw [cleared]
  exact rejected.trans (renamed.trans ((load env me line true _).trans
    (setUser (fun _ => by rfl) _ me)))

/-- Drawing an identifier leaves the list and the connections. -/
theorem drawn (core : Core) : StaysOnline core (drawOutcome core).2 := by
  unfold drawOutcome
  split <;> exact of_rest rfl (fun _ => rfl) rfl

theorem run (session : Session core me connection) :
    StaysOnline core (runOutcome me core).2 := by
  obtain ⟨val, ⟨obs, -, follows⟩, -⟩ := Runs.drawID core
  have near := (Core.Local.drawn core me).toNear
  have sessionDrawn := session.near follows near
  apply @runOutcome_intro me core (StaysOnline core)
  · exact refl core
  · exact drawn core
  · exact (drawn core).trans (removed sessionDrawn)

theorem parsed (session : Session core me connection) :
    StaysOnline core (parseOutcome me core).2 := by
  have cleaned : StaysOnline core (core.setUser me fun user =>
      user.setText (cleanString user.text)) :=
    setUser (fun _ => by rfl) core me
  have sessionCleaned : Session (core.setUser me fun user =>
      user.setText (cleanString user.text)) me connection :=
    session.setUser fun _ => by rfl
  apply @parseOutcome_intro me core _ (StaysOnline core) rfl cleaned
  · intro com
    generalize core.setUser me (fun user =>
      user.setText (cleanString user.text)) = entered
        at cleaned sessionCleaned ⊢
    have held : StaysOnline entered (entered.setUser me fun user =>
        { user with com := com }) :=
      setUser (fun _ => by rfl) entered me
    have sessionHeld : Session (entered.setUser me fun user =>
        { user with com := com }) me connection :=
      sessionCleaned.setUser fun _ => by rfl
    apply (cleaned.trans held).trans
    unfold dispatchOutcome
    split
    · exact run sessionHeld
    · exact setUser (fun _ => by rfl) _ me
  · exact fun now stays => stays.trans (setUser (fun _ => by rfl) now me)

end StaysOnline

/-- The line, if it is taken for a name, is not the name under which another
listed session hangs in the login. -/
def Gentle (env : Env) (handed : Handed) : Prop :=
  EntersName env handed.user handed.line handed.core →
    ∀ entry ∈ handed.core.listUser,
      ¬ handed.core.Hangs handed.user (properName handed.line) entry.2

instance (env : Env) (handed : Handed) : Decidable (Gentle env handed) :=
  inferInstanceAs (Decidable (_ → ∀ entry ∈ _, _))

/-- A line leaves nobody in the list without a connection, unless a session
that hangs is kicked. -/
theorem AllOnline.line
    {env : Env}
    {me connection : Nat}
    {line : Bytes}
    {core : Core}
    {outcome : Except Abort Unit × Core}
    (session : Session core me connection)
    (effect : LineEffect env me line core outcome)
    (gentle : EntersName env me line core → ∀ entry ∈ core.listUser,
      ¬ core.Hangs me (properName line) entry.2)
    (all : AllOnline core) :
    Kept AllOnline AllOnline me connection outcome := by
  cases effect with
  | answers => exact .inl ⟨by simp, all⟩
  | abandons => exact .inl ⟨by simp, all⟩
  | fails => exact .inl ⟨by simp, all.stays (.attempted session)⟩
  | names entered =>
      exact .inl ⟨by simp, all.stays (.named session (gentle entered))⟩
  | chooses =>
      exact .inl ⟨by simp,
        all.stays (.of_local (.chosen env me line core) rfl rfl)⟩
  | throws right loaded =>
      have stays := StaysOnline.load env me (core.users me).name false core
      rw [loaded] at stays
      have throws := loadOutcome_error (congrArg Prod.fst loaded)
      exact .inl ⟨by simp [throws], all.stays stays⟩
  | @admits right found reached loaded =>
      have stays := StaysOnline.load env me (core.users me).name false core
      rw [loaded] at stays
      have sessionAfter : Session (reached.admitted me) me connection :=
        (session.loaded loaded).setUser fun _ => by rfl
      have allAfter : AllOnline (reached.admitted me) :=
        all.stays (stays.trans (.setUser (fun _ => by rfl) reached me))
      exact .connected sessionAfter allAfter
  | confirms =>
      exact .inl ⟨by simp,
        all.stays (.of_local (.registered me _ _ core) rfl rfl)⟩
  | stumbles => exact .inl ⟨by simp, all⟩
  | parses =>
      exact .inl ⟨parseOutcome_noStage, all.stays (.parsed session)⟩

/-- As long as nobody is kicked, everybody in the list is online. -/
theorem online_invariant (env : Env) :
    PacketInvariant env fun _ core past =>
      (∀ handed ∈ past, Gentle env handed) → AllOnline core where
  shrinks _ tidies all gentle := (all gentle).stays ⟨tidies.listed.subset,
    tidies.online⟩
  joins := by
    intro core past connection autoId autoID linked isOpen _ all gentle entry
      inside
    rcases Core.mem_insertKey inside with rfl | isListed
    · refine ⟨connection, ?_, isOpen⟩
      rw [users_joined, if_pos rfl]
      rfl
    · obtain ⟨held, client, isOpen⟩ := all gentle entry isListed
      refine ⟨held, ?_, isOpen⟩
      rw [users_joined, if_neg (linked.ne_nextUser
        (linked.alive entry.2 held client)), client]
  enters _ _ all := all
  leaves all := all
  negotiates := by
    intro core past me connection change session changes all gentle
    exact (all gentle).stays (.setUser changes.keeps core me)
  notices _ _ all gentle := (all gentle).stays (.setUser (fun _ => by rfl) _ _)
  edits := by
    rintro core reached past me connection _ ⟨textBuffer, tbpos, -, rfl⟩ all gentle
    exact (all gentle).stays (.setUser (fun _ => by rfl) core me)
  line := by
    intro core past me connection line rest outcome session effect all
    by_cases gentle : ∀ handed ∈ past ++
        [{ user := me, core := core, line := line, rest := rest }],
        Gentle env handed
    · have last : Gentle env
          { user := me, core := core, line := line, rest := rest } :=
        gentle _ (by simp)
      have kept := AllOnline.line session effect last
        (all fun handed inside => gentle handed (List.mem_append_left _ inside))
      exact kept.imp (fun _ after _ => after) fun _ after _ => after
    · exact .of_local session effect fun _ _ lines => absurd lines gentle

/-! ## Counting -/

section Counting

variable {core : Core}

/-- The identifiers of the list are those of live users. -/
theorem Linked.key_lt
    (linked : Linked core)
    {entry : Nat × Nat}
    (inside : entry ∈ core.listUser) : entry.1 < 2 ^ 29 := by
  obtain ⟨alive, key⟩ := linked.listed entry inside
  obtain ⟨bound, id⟩ := linked.ids entry.2 alive
  rw [key, id]
  refine Nat.or_lt_two_pow ?_ (by decide)
  unfold AutoID.last at bound
  omega

/-- The list is short enough to be counted with 32 bits. -/
theorem Linked.length_listUser
    (linked : Linked core)
    (ordered : Ordered core) : core.listUser.length ≤ 2 ^ 29 := by
  have keys : (core.listUser.map Prod.fst).Nodup :=
    List.pairwise_map.mpr (ordered.imp fun below => below.ne)
  have range : core.listUser.map Prod.fst ⊆ List.range (2 ^ 29) := by
    intro key inside
    obtain ⟨entry, isListed, rfl⟩ := List.mem_map.mp inside
    exact List.mem_range.mpr (linked.key_lt isListed)
  have bounded := (keys.subperm range).length_le
  rwa [List.length_map, List.length_range] at bounded

/-- The listed users and the open connections with a user belong together. -/
theorem AllOnline.length_seated
    (all : AllOnline core)
    (linked : Linked core)
    (ordered : Ordered core) :
    core.listUser.length = (seated core).length := by
  have clients : (core.listUser.map fun entry =>
      (core.users entry.2).client).Nodup := by
    refine List.pairwise_map.mpr (ordered.imp_of_mem ?_)
    intro left right isLeft isRight below same
    obtain ⟨connection, client, -⟩ := all left isLeft
    have users := linked.same_of_client client (same ▸ client)
    have keys : left.1 = right.1 := by
      rw [(linked.listed left isLeft).2, (linked.listed right isRight).2, users]
    exact absurd keys below.ne
  have connections : ((seated core).map some).Nodup :=
    (List.nodup_range.filter _).map (Option.some_injective _)
  have members : ∀ client,
      (client ∈ core.listUser.map fun entry => (core.users entry.2).client) ↔
        client ∈ (seated core).map some := by
    intro client
    simp only [List.mem_map, seated, List.mem_filter, List.mem_range,
      decide_eq_true_eq]
    constructor
    · rintro ⟨entry, isListed, rfl⟩
      obtain ⟨connection, client, isOpen⟩ := all entry isListed
      have hasUser := (linked.attached entry.2 connection client).user
      refine ⟨connection, ⟨?_, isOpen, by simp [hasUser]⟩, client.symm⟩
      by_contra late
      exact (linked.nextConnection connection (not_lt.mp late)).1 isOpen
    · rintro ⟨connection, ⟨-, isOpen, hasUser⟩, rfl⟩
      obtain ⟨user, isUser⟩ := Option.ne_none_iff_exists'.mp hasUser
      have client := linked.opens user connection isOpen isUser
      exact ⟨_, linked.online user connection isOpen client, client⟩
  have same := ((List.perm_ext_iff_of_nodup clients connections).mpr
    members).length_eq
  rwa [List.length_map, List.length_map] at same

end Counting

/-- In every run in which no connection is closed under its session, and no
name is entered under which another session hangs in the login, the number of
users online is the number of open connections with a user, and every listed
user has such a connection. -/
theorem getUsersOnline_eq
    (env : Env)
    (rows : List Database.Row)
    (events : List Event)
    (attached : (World.start rows).Attached env events)
    (gentle : ∀ handed ∈ handedIn (World.after env rows events).trace,
      Gentle env handed) :
    getUsersOnline (World.after env rows events).server.core =
        (seated (World.after env rows events).server.core).length ∧
      AllOnline (World.after env rows events).server.core := by
  have all : AllOnline (World.after env rows events).server.core :=
    ((online_invariant env).after attached ⟨linked_start rows,
      fun _ entry inside => absurd inside List.not_mem_nil⟩).2 gentle
  obtain ⟨linked, ordered⟩ := (ordered_invariant env).after rows events
  refine ⟨?_, all⟩
  have short := linked.length_listUser ordered
  rw [getUsersOnline, Nat.mod_eq_of_lt (by omega)]
  exact all.length_seated linked ordered

/-- Ann logs in, a connection without a session is closed, and Bob quits. -/
def annStays : List Event :=
  [.accept, .accept, .accept, .packet 0 (lit "ann\rsecret\rsecret\r"),
    .closeRequest 1, .closeTask 1 false, .packet 2 (lit "quit\r"),
    .closeTask 2 false, .deleteProtocol 2]

/-- Ann is the only user online. -/
theorem getUsersOnline_ann :
    getUsersOnline (World.after (Env.testing []) [] annStays).server.core =
        (seated (World.after (Env.testing []) []
          annStays).server.core).length ∧
      AllOnline (World.after (Env.testing []) [] annStays).server.core :=
  getUsersOnline_eq (Env.testing []) [] annStays (by decide +kernel)
    (by decide +kernel)

/-- A client that disconnects stays in the list of users. -/
theorem disconnected_listed :
    ¬ ∀ env rows events,
      Quiescent (World.after env rows events).server.core →
        getUsersOnline (World.after env rows events).server.core =
          (seated (World.after env rows events).server.core).length := by
  intro always
  have counted := always (Env.testing []) []
    [.accept, .packet 0 (lit "x"), .closeRequest 0, .closeTask 0 false,
      .deleteProtocol 0] (by decide +kernel)
  exact absurd counted (by decide +kernel)

end Network
end Lotospp
