import Lotospp.Database.Durable
import Lotospp.Network.Evidence
import Lotospp.Network.Outcomes

/-!
# Where accounts and levels come from

Whichever queries fail, the accounts that there were at the start and those
that have been committed stay as they are; every other account has been
registered by a session that chose and confirmed its password; and a session
is logged in with the level of a new account when it has chosen and confirmed
a password itself, unless the level that is stored for its name is none of the
table.
-/

namespace Lotospp
namespace Network

open Text Effect Common Commands Database

/-- A line of this user with this name has chosen a password. -/
structure Handed.Chose
    (handed : Handed)
    (user : Nat)
    (name : Bytes) : Prop where
  /-- The line is one of the user. -/
  user : handed.user = user
  /-- The user has the name. -/
  name : (handed.core.users handed.user).name = name
  /-- The line chooses a password. -/
  chooses : ChoosesPassword handed.user handed.line handed.core

/-- A line has confirmed the password that an earlier one of the same session
has chosen under the same name. -/
structure Handed.Confirmed
    (env : Env)
    (past : List Handed)
    (chosen confirmed : Handed)
    (name : Bytes) : Prop where
  /-- One line came after the other. -/
  inOrder : [chosen, confirmed].Sublist past
  /-- The first one chooses the password. -/
  chose : Handed.Chose chosen confirmed.user name
  /-- The second one confirms it. -/
  confirms : Confirms env confirmed.user confirmed.line confirmed.core
  /-- The user still has the name. -/
  name : (confirmed.core.users confirmed.user).name = name

/-- A password has been chosen and confirmed, and the row is the account that
was made of it. -/
def RegisteredBy (env : Env) (past : List Handed) (row : Row) : Prop :=
  ∃ chosen confirmed, Handed.Confirmed env past chosen confirmed row.login ∧
    row.password = Handed.hash env chosen ∧
    row.level = UserLevel.novice.value.toNat

/-- A row has been there from the start or was registered. -/
def Genuine
    (env : Env)
    (rows : List Row)
    (past : List Handed)
    (row : Row) : Prop :=
  row ∈ rows ∨ RegisteredBy env past row

/-- A session is not logged in, or it is with the level of a new account and
has chosen and confirmed the password of one itself, or with what stands behind
the table of levels and the level that was stored for its name at the start is
none of the table. -/
def LevelGranted
    (env : Env)
    (rows : List Row)
    (past : List Handed)
    (user : Nat)
    (credentials : Credentials) : Prop :=
  credentials.level = .login ∨
    (credentials.level = .novice ∧ ∃ chosen confirmed,
      Handed.Confirmed env past chosen confirmed credentials.name ∧
        confirmed.user = user) ∨
    credentials.level = ⟨env.userLevelEnd⟩ ∧
      ∃ row ∈ rows, iequals row.login credentials.name ∧
        (row.level : Int) ∉ UserLevel.table

/-- What the credentials of a session go back to. -/
structure Founded
    (env : Env)
    (rows : List Row)
    (past : List Handed)
    (user : Nat)
    (credentials : Credentials) : Prop where
  /-- A session that awaits the confirmation has chosen its password. -/
  chosen : credentials.level = .login →
    credentials.stage = .loginReenterPwd →
      ∃ chosen ∈ past, Handed.Chose chosen user credentials.name ∧
        credentials.password = some (Handed.hash env chosen)
  /-- The level has been granted. -/
  level : LevelGranted env rows past user credentials

/-- All accounts and all credentials go back to something. -/
structure Provenance
    (env : Env)
    (rows base : List Row)
    (core : Core)
    (past : List Handed) : Prop where
  /-- The table. -/
  table : core.db.Grown base (Genuine env rows past)
  /-- The sessions. -/
  sessions : ∀ user,
    Founded env rows past user (core.users user).credentials

section Single

variable {env : Env} {rows base : List Row} {past : List Handed} {user : Nat}
variable {core reached : Core} {credentials : Credentials}

theorem Handed.Confirmed.mono
    {chosen confirmed : Handed}
    {name : Bytes}
    (confirms : Handed.Confirmed env past chosen confirmed name)
    (more : List Handed) :
    Handed.Confirmed env (past ++ more) chosen confirmed name :=
  { confirms with
    inOrder :=
      confirms.inOrder.trans (List.sublist_append_left past more) }

theorem Genuine.mono
    (more : List Handed)
    (row : Row)
    (genuine : Genuine env rows past row) :
    Genuine env rows (past ++ more) row := by
  rcases genuine with old | ⟨chosen, confirmed, confirms, account⟩
  · exact .inl old
  · exact .inr ⟨chosen, confirmed, confirms.mono more, account⟩

theorem LevelGranted.mono
    (granted : LevelGranted env rows past user credentials)
    (more : List Handed) :
    LevelGranted env rows (past ++ more) user credentials := by
  rcases granted with login | ⟨novice, chosen, confirmed, confirms, isUser⟩ | atEnd
  · exact .inl login
  · exact .inr (.inl ⟨novice, chosen, confirmed, confirms.mono more, isUser⟩)
  · exact .inr (.inr atEnd)

/-- Only the level and the name count. -/
theorem LevelGranted.of_same
    {after : Credentials}
    (granted : LevelGranted env rows past user credentials)
    (level : after.level = credentials.level)
    (name : after.name = credentials.name) :
    LevelGranted env rows past user after := by
  unfold LevelGranted
  rw [level, name]
  exact granted

theorem Founded.mono
    (founded : Founded env rows past user credentials)
    (more : List Handed) :
    Founded env rows (past ++ more) user credentials where
  chosen level stage := by
    obtain ⟨chosen, inside, chose⟩ := founded.chosen level stage
    exact ⟨chosen, List.mem_append_left more inside, chose⟩
  level := founded.level.mono more

/-- In another stage only the level and the name count. -/
theorem Founded.of_stage
    (stage : credentials.stage ≠ .loginReenterPwd)
    (level : LevelGranted env rows past user credentials) :
    Founded env rows past user credentials where
  chosen _ isReenter := absurd isReenter stage
  level := level

/-- One session has changed, and perhaps the table. -/
theorem Provenance.change
    {me : Nat}
    (provenance : Provenance env rows base core past)
    (more : List Handed)
    (others : ∀ user, user ≠ me →
      (reached.users user).credentials = (core.users user).credentials)
    (table : reached.db.Grown base (Genuine env rows (past ++ more)))
    (founded : Founded env rows (past ++ more) me
      (reached.users me).credentials) :
    Provenance env rows base reached (past ++ more) where
  table := table
  sessions user := by
    by_cases isMe : user = me
    · rw [isMe]
      exact founded
    · rw [others user isMe]
      exact (provenance.sessions user).mono more

/-- Nothing has changed but who is alive and connected. -/
theorem Provenance.same
    (provenance : Provenance env rows base core past)
    (more : List Handed)
    (credentials : ∀ user,
      (reached.users user).credentials = (core.users user).credentials)
    (table : SameTable core.db reached.db) :
    Provenance env rows base reached (past ++ more) where
  table := (provenance.table.table table).mono (Genuine.mono more)
  sessions user := by
    rw [credentials user]
    exact (provenance.sessions user).mono more

end Single

/-! ## Lines -/

section Lines

variable {env : Env} {rows base : List Row} {past : List Handed}
variable {me : Nat} {line : Bytes} {core : Core}

/-- What a session is that has just been let in. -/
theorem levelGranted_load
    {found : Bool}
    {reached : Core}
    (genuine : ∀ row ∈ core.db.rows, Genuine env rows past row)
    (login : (core.users me).level = .login)
    (loaded : loadOutcome env me (core.users me).name false core =
      (.ok found, reached)) :
    LevelGranted env rows past me
      { (core.users me).credentials with level := (reached.users me).level } := by
  unfold loadOutcome at loaded
  simp only at loaded
  split at loaded
  · rw [Prod.mk.injEq] at loaded
    rw [← loaded.2]
    exact .inl login
  · next row isRow =>
    rw [if_neg Bool.false_ne_true] at loaded
    split at loaded
    · exact absurd (congrArg Prod.fst loaded) (by simp)
    · next level converted =>
      obtain ⟨inside, same⟩ := Users.mem_of_lookup (Users.lookup_of_select isRow)
      have outside : (row.level : Int) ∉ UserLevel.table := by
        intro inTable
        simp [fromInteger, inTable] at converted
      have atEnd : env.userLevelEnd = level := by
        simpa [fromInteger, outside] using converted
      rw [Prod.mk.injEq] at loaded
      rw [← loaded.2, Core.users_setUser_self]
      rcases genuine row inside with old | registered
      · exact .inr (.inr ⟨by rw [atEnd], row, old, same, outside⟩)
      · obtain ⟨-, -, -, -, level⟩ := registered
        rw [level] at outside
        exact absurd (by decide) outside

/-- A registration adds a row for the session and its password. -/
theorem grown_created
    {password : Bytes}
    {genuine : Row → Prop}
    (grown : core.db.Grown base genuine)
    (added : ∀ id, genuine ⟨id, (core.users me).name, password,
      UserLevel.novice.value.toNat⟩) :
    (core.created env me password).2.Grown base genuine := by
  have begun := grown.beginTransaction env.dbFails
  have inserted := begun.insert env.dbFails (core.users me).name password
    UserLevel.novice.value.toNat (added _)
  rw [Core.created, createOutcome]
  simp only
  split
  · exact inserted.commit env.dbFails
  · exact inserted.rollback env.dbFails

theorem db_takenOver (other protocol : Nat) :
    (core.takenOver me other protocol).db = core.db :=
  Core.db_disconnected ..

theorem db_connected : (connectOutcome me core).2.db = core.db := by
  unfold connectOutcome
  split
  · rfl
  · split
    · exact Core.db_disconnected ..
    · exact db_takenOver ..

/-- A line leaves everything founded. -/
theorem Provenance.keeps
    {outcome : Except Abort Unit × Core}
    (rest : Bytes)
    (provenance : Provenance env rows base core past)
    (effect : LineEffect env me line core outcome) :
    Provenance env rows base outcome.2
      (past ++ [{ user := me, core := core, line := line, rest := rest }]) := by
  have others {user : Nat} (different : user ≠ me) :=
    effect.credentials_others different
  have unchanged := provenance.same
    [{ user := me, core := core, line := line, rest := rest }]
    (fun _ => rfl) (.refl core.db)
  have table := unchanged.table
  have mine := unchanged.sessions me
  cases effect with
  | answers | abandons | stumbles => exact unchanged
  | fails fails =>
      refine provenance.change _ (fun _ => others) ?_ ?_
      · rw [db_attempted]
        exact table
      · rw [credentials_attempted]
        split
        · exact mine
        · exact .of_stage (show UserStage.loginName ≠ .loginReenterPwd by decide)
            (.inl fails.level)
  | names entered =>
      refine provenance.change _ (fun _ => others)
        (table.table (table_named env me line core)) ?_
      rw [credentials_named]
      exact .of_stage (show UserStage.loginPwd ≠ .loginReenterPwd by decide)
        (.inl rfl)
  | chooses chosen =>
      refine provenance.change _ (fun _ => others) table ?_
      rw [credentials_chosen]
      refine ⟨fun _ _ => ?_, .inl chosen.1.1⟩
      exact ⟨_, List.mem_append_right past (List.mem_singleton_self _),
        ⟨rfl, rfl, chosen⟩, rfl⟩
  | throws right loaded =>
      have sameTable := table_load env me core (core.users me).name false
      obtain ⟨row, -, credentials⟩ := credentials_throws loaded
      rw [loaded] at sameTable
      refine provenance.change _ (fun _ => others) (table.table sameTable) ?_
      rw [credentials]
      refine .of_stage ?_ (.inl right.1.1)
      rw [show (core.users me).credentials.stage = .loginPwd from right.1.2]
      decide
  | @admits right found reached loaded =>
      have sameTable := table_load env me core (core.users me).name false
      have granted := levelGranted_load provenance.table.genuine right.1.1 loaded
      obtain ⟨password, level, credentials⟩ :=
        credentials_load env me core (core.users me).name false
      rw [loaded] at sameTable credentials
      have isLevel : (reached.users me).level = level :=
        congrArg Credentials.level credentials
      refine provenance.change _ (fun _ => others) ?_ ?_
      · rw [db_connected]
        exact table.table sameTable
      · rw [credentials_connected, credentials_admitted, credentials]
        refine .of_stage (show UserStage.cmdLine ≠ .loginReenterPwd by decide) ?_
        rw [isLevel] at granted
        exact (granted.mono _).of_same rfl rfl
  | @confirms confirmed client password cached =>
      obtain ⟨chosen, inside, chose, hash⟩ :=
        (provenance.sessions me).chosen confirmed.1.1 confirmed.1.2
      have isHash : password = Handed.hash env chosen :=
        Option.some.inj (cached.symm.trans hash)
      have confirms : Handed.Confirmed env
          (past ++ [{ user := me, core := core, line := line, rest := rest }])
          chosen { user := me, core := core, line := line, rest := rest }
          (core.users me).name :=
        ⟨(List.singleton_sublist.mpr inside).append (List.Sublist.refl [_]),
          chose, confirmed, rfl⟩
      refine provenance.change _ (fun _ => others) ?_ ?_
      · exact grown_created table fun _ =>
          .inr ⟨chosen, _, confirms, isHash, rfl⟩
      · rw [credentials_registered]
        exact .of_stage (show UserStage.loginPrompt ≠ .loginReenterPwd by decide)
          (.inr (.inl ⟨rfl, chosen, _, confirms, rfl⟩))
  | parses level =>
      refine provenance.change _ (fun _ => others) ?_ ?_
      · rw [db_parsed]
        exact table
      · rw [credentials_parsed]
        exact .of_stage (show UserStage.cmdLine ≠ .loginReenterPwd by decide)
          (mine.level.of_same rfl rfl)

end Lines

/-! ## Runs -/

/-- Everything stays founded, whichever queries fail. -/
theorem provenance_invariant (env : Env) (rows base : List Row) :
    EventInvariant env fun _ => Provenance env rows base where
  closes := by
    intro core past connection _ provenance
    rw [← List.append_nil past]
    exact provenance.same [] (by simp) (.of_eq (by simp))
  shrinks := by
    intro core reached past _ tidies provenance
    rw [← List.append_nil past]
    refine provenance.same [] (fun user => ?_) (.of_eq tidies.db)
    obtain ⟨alive, client, same, -⟩ := tidies.users user
    rw [same]
    rfl
  joins := by
    intro core past connection autoId autoID _ _ _ provenance
    have users := @users_joined core connection autoId autoID
    rw [← List.append_nil past]
    refine @Provenance.change env rows base past core _ core.nextUser provenance []
      (fun user different => ?_) (provenance.table.mono (Genuine.mono [])) ?_
    · rw [users, if_neg different]
    · rw [users, if_pos rfl]
      exact .of_stage (show UserStage.loginId ≠ .loginReenterPwd by decide)
        (.inl rfl)
  enters _ _ provenance := provenance
  leaves provenance := provenance
  negotiates := by
    intro core past me connection change _ changes provenance
    rw [← List.append_nil past]
    refine provenance.same [] (fun user => ?_) (.refl _)
    exact (SameSessions.negotiates changes core me).credentials user
  notices := by
    intro core past me connection _ _ provenance
    rw [← List.append_nil past]
    refine @Provenance.change env rows base past core _ me provenance []
      (fun user different => ?_) (provenance.table.mono (Genuine.mono [])) ?_
    · rw [core.users_setUser_of_ne _ different]
    · rw [Core.users_setUser_self]
      exact .of_stage (show UserStage.loginId ≠ .loginReenterPwd by decide)
        (((provenance.sessions me).level.mono []).of_same rfl rfl)
  edits := by
    intro core reached past me connection _ edits provenance
    rw [← List.append_nil past]
    refine provenance.same [] (SameSessions.edits edits).credentials ?_
    obtain ⟨textBuffer, tbpos, -, rfl⟩ := edits
    exact .refl _
  line := by
    intro core past me connection line rest outcome session effect provenance
    refine .of_after session effect ?_ (provenance.keeps rest effect)
    intro before other found after
    have credentials := credentials_takenOver found connection
    refine ⟨?_, fun user => ?_⟩
    · rw [← @db_takenOver me before other connection]
      exact after.table
    · rw [← credentials]
      exact after.sessions user

/-- At the start there are the accounts of the table, and no sessions. -/
theorem provenance_start (env : Env) (rows : List Row) :
    Provenance env rows rows (World.start rows).server.core [] where
  table := ⟨List.prefix_rfl, List.prefix_rfl, fun _ inside => .inl inside⟩
  sessions _ :=
    .of_stage (show UserStage.new ≠ .loginReenterPwd by decide) (.inl rfl)

section Runs

variable (env : Env) (rows : List Row) (events : List Event)

theorem provenance_after :
    PacketInvariant.Holds (fun _ => Provenance env rows rows)
      (World.after env rows events).server
      (World.after env rows events).trace :=
  (provenance_invariant env rows rows).after (provenance_start env rows) events

/-- Whichever queries fail, the accounts that there were at the start stay
committed, and all others have been registered by a session that chose the
password and confirmed it. -/
theorem accounts_registered :
    rows <+: (World.after env rows events).server.core.db.committed ∧
      ∀ row ∈ (World.after env rows events).server.core.db.rows,
        row ∈ rows ∨
          RegisteredBy env (handedIn (World.after env rows events).trace) row :=
  have table := (provenance_after env rows events).2.table
  ⟨table.stored, table.genuine⟩

/-- Whichever queries fail, an account that has been committed stays as it
is. -/
theorem committed_kept (more : List Event) :
    (World.after env rows events).server.core.db.committed <+:
      (World.after env rows (events ++ more)).server.core.db.committed := by
  obtain ⟨linked, provenance⟩ := provenance_after env rows events
  have rebased := (provenance_invariant env rows _).onwards
    ⟨linked, ⟨provenance.table.rebase, provenance.sessions⟩⟩ more
  have whole : World.after env rows (events ++ more) =
      more.foldl (World.step env) (World.after env rows events) :=
    List.foldl_append
  rw [whole]
  exact rebased.2.table.stored

/-- Whichever queries fail, a session is logged in with the level of a new
account only after it has chosen and confirmed the password of one, or with
what stands behind the table of levels, and then the level that is stored for
its name is none of the table. -/
theorem levels_granted (user : Nat) :
    LevelGranted env rows (handedIn (World.after env rows events).trace) user
      ((World.after env rows events).server.core.users user).credentials :=
  ((provenance_after env rows events).2.sessions user).level

end Runs

end Network
end Lotospp
