import Lotospp.Network.Accounts

/-!
# What a session has shown to be logged in

While the queries work, a connection whose session is logged in has entered
the password of the account, or registered the name.  The trace keeps the
evidence: the lines that were handed over, each with the state in which it
was.  An account whose stored hash is empty can be registered again.
-/

namespace Lotospp
namespace Network

open Text Effect Common Commands Database

/-! ## Evidence -/

/-- The line belongs to a session of this connection with this name. -/
structure Handed.By
    (handed : Handed)
    (connection : Nat)
    (name : Bytes) : Prop where
  /-- The connection is the client of the session. -/
  client : (handed.core.users handed.user).client = some connection
  /-- The session has the name. -/
  name : (handed.core.users handed.user).name = name

/-- There is no account of this name. -/
def Vacant (db : Users) (name : Bytes) : Prop :=
  db.lookup name = none

/-- There is no account of this name with a hash. -/
def Unprotected (db : Users) (name : Bytes) : Prop :=
  ∀ row ∈ db.lookup name, row.password = []

/-- The connection has entered this name, of which the table was so. -/
structure Names
    (env : Env)
    (table : Users → Bytes → Prop)
    (connection : Nat)
    (name : Bytes)
    (handed : Handed) : Prop where
  /-- The connection is the client of the session. -/
  client : (handed.core.users handed.user).client = some connection
  /-- The line is entered as a name. -/
  enters : EntersName env handed.user handed.line handed.core
  /-- It is this name. -/
  proper : properName handed.line = name
  /-- The table was so. -/
  holds : table handed.core.db name

/-- The connection has chosen a password for this name. -/
structure Chooses
    (connection : Nat)
    (name : Bytes)
    (handed : Handed) : Prop where
  /-- The line is one of this session. -/
  by_session : Handed.By handed connection name
  /-- It chooses a password. -/
  chooses : ChoosesPassword handed.user handed.line handed.core

/-- The hash of the password that a line has chosen. -/
def Handed.hash (env : Env) (handed : Handed) : Bytes :=
  env.cryptFresh handed.core.salts handed.line

/-- The connection has confirmed the password that another line has chosen. -/
structure ConfirmsChosen
    (env : Env)
    (connection : Nat)
    (name : Bytes)
    (chosen handed : Handed) : Prop where
  /-- The line is one of this session. -/
  by_session : Handed.By handed connection name
  /-- It matches a new hash. -/
  confirms : Confirms env handed.user handed.line handed.core
  /-- It is the hash of the chosen password. -/
  chosen : (handed.core.users handed.user).password =
    some (Handed.hash env chosen)

/-- While it waited for a password, the connection has handed over a line that
matches the hash stored for this name. -/
def EntersPassword
    (env : Env)
    (past : List Handed)
    (connection : Nat)
    (name : Bytes) : Prop :=
  ∃ handed ∈ past, Handed.By handed connection name ∧
    AwaitsPwd handed.user handed.core ∧
      ∃ row ∈ handed.core.db.lookup name,
        row.password = env.crypt handed.line row.password

/-- The connection has entered this name when the table was so, and then chosen
and confirmed a password. -/
def Registers
    (env : Env)
    (table : Users → Bytes → Prop)
    (past : List Handed)
    (connection : Nat)
    (name : Bytes) : Prop :=
  ∃ named chosen confirmed, [named, chosen, confirmed].Sublist past ∧
    Names env table connection name named ∧
    Chooses connection name chosen ∧
    ConfirmsChosen env connection name chosen confirmed

/-- What the connection of a session has shown of its credentials. -/
structure Shown
    (env : Env)
    (past : List Handed)
    (connection : Nat)
    (credentials : Credentials) : Prop where
  /-- A session that awaits a password without a hash has entered a name
  without one. -/
  named : credentials.level = .login → credentials.stage = .loginPwd →
    (∀ hash ∈ credentials.password, hash = []) →
      ∃ named ∈ past,
        Names env Unprotected connection credentials.name named
  /-- A session that awaits the confirmation has chosen a password. -/
  chosen : credentials.level = .login →
    credentials.stage = .loginReenterPwd →
      ∃ named chosen, [named, chosen].Sublist past ∧
        Names env Unprotected connection credentials.name named ∧
        Chooses connection credentials.name chosen ∧
        credentials.password = some (Handed.hash env chosen)
  /-- A session that is logged in has entered the password or registered. -/
  loggedIn : credentials.level ≠ .login →
    EntersPassword env past connection credentials.name ∨
      Registers env Unprotected past connection credentials.name

/-- The cached hash is that of the account, if there is one. -/
def Cached (db : Users) (credentials : Credentials) : Prop :=
  credentials.level = .login → credentials.stage = .loginPwd →
    ∀ row ∈ db.lookup credentials.name,
      credentials.password = some row.password

/-- Every connection has shown what its session's credentials rest on. -/
structure Evident
    (env : Env)
    (turn : Option Nat)
    (core : Core)
    (past : List Handed) : Prop where
  /-- Two active sessions do not await passwords under the same name. -/
  rivals : Unrivalled turn core
  /-- The hashes of active sessions are those of the accounts. -/
  cached : ∀ user, Active turn core user →
    Cached core.db (core.users user).credentials
  /-- Connections have shown what their sessions' credentials rest on. -/
  shown : ∀ user connection, (core.users user).client = some connection →
    Shown env past connection (core.users user).credentials

section Credentials

variable {env : Env} {past : List Handed} {connection : Nat}
variable {db after : Users} {credentials : Credentials}

/-- A session that awaits no password caches no hash. -/
theorem Cached.of_stage
    (stage : credentials.stage ≠ .loginPwd) : Cached db credentials :=
  fun _ isPwd => absurd isPwd stage

theorem Cached.table
    (cached : Cached db credentials)
    (table : SameTable db after) : Cached after credentials := by
  intro level stage row found
  rw [table.lookup] at found
  exact cached level stage row found

/-- What has been shown remains so. -/
theorem Shown.mono
    (shown : Shown env past connection credentials)
    (more : List Handed) :
    Shown env (past ++ more) connection credentials where
  named level stage noHash := by
    obtain ⟨named, inside, names⟩ := shown.named level stage noHash
    exact ⟨named, List.mem_append_left more inside, names⟩
  chosen level stage := by
    obtain ⟨named, chosen, inside, names, chooses, hash⟩ :=
      shown.chosen level stage
    exact ⟨named, chosen, inside.trans (List.sublist_append_left past more),
      names, chooses, hash⟩
  loggedIn level := by
    rcases shown.loggedIn level with
      ⟨handed, inside, enters⟩ | ⟨named, chosen, confirmed, inside, registers⟩
    · exact .inl ⟨handed, List.mem_append_left more inside, enters⟩
    · exact .inr ⟨named, chosen, confirmed,
        inside.trans (List.sublist_append_left past more), registers⟩

/-- A session in another stage of the login need not have shown anything. -/
theorem Shown.of_login
    (level : credentials.level = .login)
    (pwd : credentials.stage ≠ .loginPwd)
    (reenter : credentials.stage ≠ .loginReenterPwd) :
    Shown env past connection credentials where
  named _ stage := absurd stage pwd
  chosen _ stage := absurd stage reenter
  loggedIn notLogin := absurd level notLogin

end Credentials

/-! ## One session at a time -/

namespace Evident

variable {env : Env} {turn later : Option Nat} {core reached : Core}
variable {past : List Handed} {me : Nat}

/-- One session has changed, and the table has not. -/
theorem change
    (evident : Evident env turn core past)
    (more : List Handed)
    (others : ∀ user, user ≠ me →
      (reached.users user).credentials = (core.users user).credentials)
    (clients : ∀ user connection, user ≠ me →
      (reached.users user).client = some connection →
        (core.users user).client = some connection)
    (table : SameTable core.db reached.db)
    (active : ∀ user, user ≠ me → Active later reached user →
      Active turn core user)
    (unopposed : Unopposed later core reached me)
    (cached : Active later reached me →
      Cached core.db (reached.users me).credentials)
    (shown : ∀ connection, (reached.users me).client = some connection →
      Shown env (past ++ more) connection (reached.users me).credentials) :
    Evident env later reached (past ++ more) where
  rivals := evident.rivals.change others active unopposed
  cached := by
    intro user isActive
    by_cases isMe : user = me
    · subst isMe
      exact (cached isActive).table table
    · rw [others user isMe]
      exact (evident.cached user (active user isMe isActive)).table table
  shown := by
    intro user connection client
    by_cases isMe : user = me
    · subst isMe
      exact shown connection client
    · rw [others user isMe]
      exact (evident.shown user connection
        (clients user connection isMe client)).mono more

/-- No session has changed its credentials. -/
theorem same
    (evident : Evident env turn core past)
    (more : List Handed)
    (credentials : ∀ user,
      (reached.users user).credentials = (core.users user).credentials)
    (clients : ∀ user connection,
      (reached.users user).client = some connection →
        (core.users user).client = some connection)
    (table : SameTable core.db reached.db)
    (active : ∀ user, Active later reached user → Active turn core user) :
    Evident env later reached (past ++ more) := by
  have name : ∀ user, (reached.users user).name = (core.users user).name :=
    fun user => congrArg Credentials.name (credentials user)
  refine evident.change more (fun user _ => credentials user)
    (fun user connection _ => clients user connection) table
    (fun user _ => active user) (?_ : Unopposed later core reached 0)
    (fun isActive => ?_) fun connection client => ?_
  · rw [Unopposed, credentials, name]
    intro isActive pending other different isActiveToo
    exact evident.rivals 0 other (Ne.symm different) (active 0 isActive)
      (active other isActiveToo) pending
  · rw [credentials]
    exact evident.cached 0 (active 0 isActive)
  · rw [credentials]
    exact (evident.shown 0 connection (clients 0 connection client)).mono more

/-- Code has changed its own session only, and not the table. -/
theorem of_near
    {connection : Nat}
    (more : List Handed)
    (session : Session core me connection)
    (evident : Evident env (some me) core past)
    (stays : core.Near reached me)
    (table : SameTable core.db reached.db)
    (unopposed : Unopposed (some me) core reached me)
    (cached : Cached core.db (reached.users me).credentials)
    (shown : Shown env (past ++ more) connection
      (reached.users me).credentials) :
    Evident env (some me) reached (past ++ more) := by
  refine evident.change more (fun user different => ?_)
    (fun user held different client => ?_) table
    (fun _ _ => .of_near stays) unopposed (fun _ => cached)
    fun held client => ?_
  · rw [stays.others user different]
  · rwa [stays.others user different] at client
  · rw [stays.client, session.client] at client
    rwa [← Option.some.inj client]

/-- Code leaves the credentials. -/
theorem of_same
    (more : List Handed)
    (evident : Evident env (some me) core past)
    (stays : core.Near reached me)
    (table : SameTable core.db reached.db)
    (credentials : (reached.users me).credentials =
      (core.users me).credentials) :
    Evident env (some me) reached (past ++ more) := by
  refine evident.same more (fun user => ?_) (fun user held client => ?_)
    table fun user => .of_near stays
  · by_cases isMe : user = me
    · rw [isMe, credentials]
    · rw [stays.others user isMe]
  · by_cases isMe : user = me
    · rwa [isMe, stays.client, ← isMe] at client
    · rwa [stays.others user isMe] at client

/-- Afterwards the session awaits no password. -/
theorem of_calm
    {connection : Nat}
    (more : List Handed)
    (session : Session core me connection)
    (evident : Evident env (some me) core past)
    (stays : core.Near reached me)
    (table : SameTable core.db reached.db)
    (pwd : (reached.users me).credentials.stage ≠ .loginPwd)
    (reenter : (reached.users me).credentials.stage ≠ .loginReenterPwd)
    (shown : Shown env (past ++ more) connection
      (reached.users me).credentials) :
    Evident env (some me) reached (past ++ more) :=
  evident.of_near more session stays table
    (fun _ pending => absurd pending (Credentials.not_pending pwd reenter))
    (.of_stage pwd) shown

end Evident

/-! ## Lines -/

section Lines

variable {env : Env} {me connection : Nat} {line rest : Bytes} {core : Core}
variable {past : List Handed}

/-- A failed attempt. -/
theorem Evident.attempted
    (last : Handed)
    (session : Session core me connection)
    (fails : FailsAttempt env me line core)
    (evident : Evident env (some me) core past) :
    Evident env (some me) (core.attempted me) (past ++ [last]) := by
  have stays := Core.Local.attempted core me
  have table : SameTable core.db (core.attempted me).db :=
    .of_eq (db_attempted me core)
  have credentials := credentials_attempted me core
  split at credentials
  · exact evident.of_same [last] stays.toNear table credentials
  · refine evident.of_calm _ session stays.toNear table ?_ ?_ ?_
    · simp [credentials, Credentials.retried]
    · simp [credentials, Credentials.retried]
    · rw [credentials]
      exact .of_login fails.level (by simp [Credentials.retried])
        (by simp [Credentials.retried])

/-- A name is entered: the hash that is loaded is that of the account. -/
theorem Evident.named
    (works : ∀ number, env.dbFails number = false)
    (session : Session core me connection)
    (entered : EntersName env me line core)
    (evident : Evident env (some me) core past) :
    Evident env (some me) (core.named env me line)
      (past ++ [{ user := me, core := core, line := line, rest := rest }]) := by
  have stays := Core.Local.named env me line core
  have credentials := credentials_named env me line core
  have looks : core.db.lookup line = core.db.lookup (properName line) :=
    Users.lookup_congr (iequals_properName line)
  rw [db_rejected, Users.select_of_works (works _), looks] at credentials
  refine evident.of_near _ session stays.toNear (table_named env me line core)
    (Unopposed.named line session) ?_ ?_
  · rw [credentials]
    intro _ _ row found
    change row ∈ core.db.lookup (properName line) at found
    rw [found]
  · rw [credentials]
    refine ⟨fun _ _ noHash => ?_, fun _ stage => absurd stage (by simp),
      fun level => absurd rfl level⟩
    refine ⟨_, List.mem_append_right past (List.mem_singleton_self _),
      session.client, entered, rfl, ?_⟩
    intro row found
    rw [found] at noHash
    exact noHash row.password rfl

/-- A password is chosen. -/
theorem Evident.chosen
    (session : Session core me connection)
    (chosen : ChoosesPassword me line core)
    (evident : Evident env (some me) core past) :
    Evident env (some me) (core.chosen env me line)
      (past ++ [{ user := me, core := core, line := line, rest := rest }]) := by
  have stays := Core.Local.chosen env me line core
  have credentials := credentials_chosen env me line core
  obtain ⟨level, stage⟩ := chosen.1
  have levelAfter : ((core.chosen env me line).users me).credentials.level =
      .login := by
    rw [credentials]
    exact level
  refine evident.of_near _ session stays.toNear (.refl _)
    (evident.rivals.unopposed stays.toNear ⟨level, .inl stage⟩
      (congrArg Credentials.name credentials)) ?_ ⟨?_, ?_, absurd levelAfter⟩
  · rw [credentials]
    exact .of_stage (by simp)
  · rw [credentials]
    exact fun _ stage => absurd stage (by simp)
  · rw [credentials]
    intro _ _
    obtain ⟨named, inside, names⟩ :=
      (evident.shown me connection session.client).named level stage chosen.2.2
    refine ⟨named,
      { user := me, core := core, line := line, rest := rest }, ?_, names,
      ⟨⟨session.client, rfl⟩, chosen⟩, rfl⟩
    exact (List.singleton_sublist.mpr inside).append (List.Sublist.refl [_])

/-- A password has been confirmed, and the account added. -/
theorem Evident.registered
    {password : Bytes}
    (works : ∀ number, env.dbFails number = false)
    (session : Session core me connection)
    (confirmed : Confirms env me line core)
    (evident : Evident env (some me) core past) :
    Evident env (some me) (core.registered me (core.created env me password).1
        (core.created env me password).2)
      (past ++ [{ user := me, core := core, line := line, rest := rest }]) := by
  obtain ⟨rows, -⟩ := created_works
    ⟨fun _ => .inl (works _), fun _ => ⟨works _, works _⟩⟩ confirmed password
  have stays := Core.Local.registered me (core.created env me password).1
    (core.created env me password).2 core
  have credentials := credentials_registered me core
    (core.created env me password).1 (core.created env me password).2
  have db : (core.registered me (core.created env me password).1
      (core.created env me password).2).db =
        (core.created env me password).2 := rfl
  obtain ⟨level, stage⟩ := confirmed.1
  generalize core.registered me (core.created env me password).1
    (core.created env me password).2 = reached at stays credentials db ⊢
  rw [← db] at rows
  have calm : ¬ (reached.users me).credentials.Pending := by
    rw [credentials]
    exact Credentials.not_pending (by simp) (by simp)
  have shown := evident.shown me connection session.client
  refine ⟨?_, ?_, ?_⟩
  · refine evident.rivals.change (fun user different => ?_)
      (fun user _ => .of_near stays.toNear)
      fun _ isPending => absurd isPending calm
    rw [stays.others user different]
  · intro user isActive levelToo stageToo
    have notMe : user ≠ me := by
      rintro rfl
      exact calm ⟨levelToo, .inl stageToo⟩
    rw [stays.others user notMe] at levelToo stageToo ⊢
    have active := isActive.of_near stays.toNear
    have apart := evident.rivals me user (Ne.symm notMe) (.inl rfl) active
      ⟨level, .inr stage⟩ ⟨levelToo, .inl stageToo⟩
    have same : reached.db.lookup (core.users user).credentials.name =
        core.db.lookup (core.users user).credentials.name :=
      Users.lookup_append_of_ne rows apart
    rw [same]
    exact evident.cached user active levelToo stageToo
  · intro user held client
    by_cases isMe : user = me
    · subst isMe
      rw [stays.client, session.client] at client
      obtain rfl := Option.some.inj client
      rw [credentials]
      refine ⟨fun _ stage => absurd stage (by simp),
        fun _ stage => absurd stage (by simp), fun _ => .inr ?_⟩
      obtain ⟨named, chosen, inside, names, chooses, hash⟩ :=
        shown.chosen level stage
      exact ⟨named, chosen, _, inside.append (List.Sublist.refl [_]), names,
        chooses, ⟨⟨session.client, rfl⟩, confirmed, hash⟩⟩
    · rw [stays.others user isMe] at client ⊢
      exact (evident.shown user held client).mono _

/-- The password was right, but the level cannot be converted. -/
theorem Evident.thrown
    {abort : Abort}
    {reached : Core}
    (last : Handed)
    (right : RightPassword env me line core)
    (loaded : loadOutcome env me (core.users me).name false core =
      (.error abort, reached))
    (evident : Evident env (some me) core past) :
    Evident env (some me) reached (past ++ [last]) := by
  obtain ⟨⟨level, stage⟩, -, password, isCached, notEmpty, -⟩ := right
  have stays := Core.Local.load env me (core.users me).name false core
  have table := table_load env me core (core.users me).name false
  rw [loaded] at stays table
  obtain ⟨row, found, credentials⟩ := credentials_throws loaded
  have same := evident.cached me (.inl rfl) level stage row found
  apply evident.of_same [last] stays.toNear table
  rw [credentials, ← same]

/-- The password was right: if the session is logged in, the account has been
found, and the cached hash was its own. -/
theorem Evident.admitted
    {found : Bool}
    {reached : Core}
    (session : Session core me connection)
    (right : RightPassword env me line core)
    (loaded : loadOutcome env me (core.users me).name false core =
      (.ok found, reached))
    (evident : Evident env (some me) core past) :
    Evident env (some me) (reached.admitted me)
      (past ++ [{ user := me, core := core, line := line, rest := rest }]) := by
  have admits := admitsUser right loaded
  obtain ⟨level, credentials⟩ := admits.credentials
  have sameLevel : ((reached.admitted me).users me).level = level :=
    congrArg Credentials.level credentials
  refine evident.of_calm _ session admits.stays.toNear admits.table ?_ ?_ ?_
  · simp [credentials]
  · simp [credentials]
  · rw [credentials]
    refine ⟨fun _ stage => absurd stage (by simp),
      fun _ stage => absurd stage (by simp), fun loggedIn => .inl ?_⟩
    have isStored := admits.stored (by rwa [sameLevel])
    obtain ⟨row, isRow⟩ := Option.ne_none_iff_exists'.mp isStored
    have isCached := evident.cached me (.inl rfl) right.1.1 right.1.2 row isRow
    obtain ⟨password, holds, -, matching⟩ := right.2.2
    obtain rfl := Option.some.inj (holds.symm.trans isCached)
    exact ⟨_, List.mem_append_right past (List.mem_singleton_self _),
      ⟨session.client, rfl⟩, right.1, row, isRow, matching⟩

/-- A line leaves the evidence complete. -/
theorem Evident.keeps
    {outcome : Except Abort Unit × Core}
    (works : ∀ number, env.dbFails number = false)
    (session : Session core me connection)
    (effect : LineEffect env me line core outcome)
    (evident : Evident env (some me) core past) :
    Kept
      (fun after => Evident env (some me) after (past ++
        [{ user := me, core := core, line := line, rest := rest }]))
      (fun after => Evident env none after (past ++
        [{ user := me, core := core, line := line, rest := rest }]))
      me connection outcome := by
  have unchanged : Evident env (some me) core (past ++
      [{ user := me, core := core, line := line, rest := rest }]) :=
    evident.of_same _ (Core.Local.refl core me).toNear (.refl _) rfl
  cases effect with
  | answers => exact .inl ⟨by simp, unchanged⟩
  | abandons => exact .inl ⟨by simp, unchanged⟩
  | fails fails => exact .inl ⟨by simp, evident.attempted _ session fails⟩
  | names entered =>
      exact .inl ⟨by simp, evident.named works session entered⟩
  | chooses chosen => exact .inl ⟨by simp, evident.chosen session chosen⟩
  | throws right loaded =>
      have throws := loadOutcome_error (congrArg Prod.fst loaded)
      exact .inl ⟨by simp [throws], evident.thrown _ right loaded⟩
  | @admits right found reached loaded =>
      have sessionAfter : Session (reached.admitted me) me connection :=
        (session.loaded loaded).setUser fun _ => by rfl
      exact .connected sessionAfter (evident.admitted session right loaded)
  | confirms confirmed =>
      exact .inl ⟨by simp, evident.registered works session confirmed⟩
  | stumbles => exact .inl ⟨by simp, unchanged⟩
  | parses level =>
      have stays := Core.Local.parsed me core
      have credentials := credentials_parsed me core
      refine .inl ⟨parseOutcome_noStage, evident.of_calm _ session
        stays.toNear (.of_eq (db_parsed me core)) (by simp [credentials])
        (by simp [credentials]) ?_⟩
      rw [credentials]
      refine ⟨fun isLogin => absurd isLogin level,
        fun isLogin => absurd isLogin level, fun _ => ?_⟩
      exact ((evident.shown me connection session.client).mono _).loggedIn level

end Lines

/-! ## Runs -/

/-- As long as the queries work, the evidence is complete. -/
theorem evident_invariant
    {env : Env}
    (works : ∀ number, env.dbFails number = false) :
    EventInvariant env (Evident env) where
  closes := by
    intro core past connection _ evident
    rw [← List.append_nil past]
    apply evident.same [] (by simp) (by simp) (.of_eq (by simp))
    exact fun user active => active.imp id
      (.of_shrinks (.closeConnection core connection))
  shrinks := by
    intro core reached past _ tidies evident
    rw [← List.append_nil past]
    refine evident.same [] (fun user => ?_) tidies.clients (.of_eq tidies.db)
      fun user active => active.imp id (.of_shrinks tidies.toShrinks)
    obtain ⟨alive, client, same, -⟩ := tidies.users user
    rw [same]
    rfl
  joins := by
    intro core past connection autoId autoID linked isOpen _ evident
    have users := @users_joined core connection autoId autoID
    have isNew : (joined core connection autoId autoID).users core.nextUser =
        newUser autoId connection := by
      rw [users, if_pos rfl]
    have pwd : ((joined core connection autoId autoID).users
        core.nextUser).credentials.stage ≠ .loginPwd := by
      simp [isNew, newUser, User.credentials]
    have reenter : ((joined core connection autoId autoID).users
        core.nextUser).credentials.stage ≠ .loginReenterPwd := by
      simp [isNew, newUser, User.credentials]
    rw [← List.append_nil past]
    refine evident.change [] (fun user different => ?_)
      (fun user held different client => ?_) (.refl _)
      (fun user different => .of_joined different)
      (fun _ pending => absurd pending (Credentials.not_pending pwd reenter))
      (fun _ => .of_stage pwd) fun _ _ => .of_login ?_ pwd reenter
    · rw [users, if_neg different]
    · rwa [users, if_neg different] at client
    · simp [isNew, newUser, User.credentials]
  enters := by
    intro core past me connection session isOpen evident
    rw [← List.append_nil past]
    exact evident.same [] (fun _ => rfl) (fun _ _ client => client) (.refl _)
      fun user => .of_enters session isOpen
  leaves := by
    intro core past me evident
    rw [← List.append_nil past]
    exact evident.same [] (fun _ => rfl) (fun _ _ client => client) (.refl _)
      fun user => .of_leaves
  negotiates := by
    intro core past me connection change session changes evident
    rw [← List.append_nil past]
    apply evident.of_same [] (.setUser changes.keeps core me) (.refl _)
    rw [Core.users_setUser_self]
    exact credentials_of_negotiates changes _
  notices := by
    intro core past me connection session due evident
    have noticed : ((core.setUser me User.noticed).users me) =
        (core.users me).noticed := core.users_setUser_self me User.noticed
    rw [← List.append_nil past]
    refine evident.of_calm [] session (.setUser (fun _ => by rfl) core me)
      (.refl _) (by simp [User.noticed, User.credentials])
      (by simp [User.noticed, User.credentials]) ?_
    rw [noticed]
    refine ⟨fun _ stage => absurd stage (by simp [User.noticed, User.credentials]),
      fun _ stage => absurd stage (by simp [User.noticed, User.credentials]), ?_⟩
    exact ((evident.shown me connection session.client).mono []).loggedIn
  edits := by
    rintro core reached past me connection session edits evident
    have stays := Core.Near.edits edits
    obtain ⟨textBuffer, tbpos, -, rfl⟩ := edits
    rw [← List.append_nil past]
    apply evident.of_same [] stays (.refl _)
    rw [Core.users_setUser_self]
    rfl
  line := fun session effect evident => evident.keeps works session effect

/-- At the start no session has credentials. -/
theorem evident_start (env : Env) (rows : List Row) :
    Evident env none (World.start rows).server.core [] where
  rivals _ _ _ _ _ pending :=
    absurd pending (Credentials.not_pending
      (show UserStage.new ≠ .loginPwd by decide)
      (show UserStage.new ≠ .loginReenterPwd by decide))
  cached _ _ := .of_stage (show UserStage.new ≠ .loginPwd by decide)
  shown _ _ _ := .of_login rfl (show UserStage.new ≠ .loginPwd by decide)
    (show UserStage.new ≠ .loginReenterPwd by decide)

/-- When all queries work, every connection whose session is logged in has
entered the password of the account, or has registered the name when there was
no account of it with a hash. -/
theorem loggedIn_shown
    (env : Env)
    (rows : List Row)
    (events : List Event)
    (works : ∀ number, env.dbFails number = false)
    (connection user : Nat)
    (attached : (World.after env rows events).server.core.Attached user
      connection)
    (loggedIn : ((World.after env rows events).server.core.users user).level ≠
      .login) :
    EntersPassword env (handedIn (World.after env rows events).trace) connection
        ((World.after env rows events).server.core.users user).name ∨
      Registers env Unprotected (handedIn (World.after env rows events).trace)
        connection
        ((World.after env rows events).server.core.users user).name :=
  (((evident_invariant works).after (evident_start env rows) events).2.shown
    user connection attached.client).loggedIn loggedIn

/-- Bob registers while another client wants to be Ann. -/
def bobRegisters : List Event :=
  [.accept, .accept, .packet 0 (lit "ann\r"),
    .packet 1 (lit "bob\rsecret\rsecret\r"), .packet 0 (lit "secret\r")]

/-- Bob has shown what his session rests on. -/
theorem loggedIn_shown_bob :
    EntersPassword (Env.testing [])
        (handedIn (World.after (Env.testing []) [] bobRegisters).trace) 1
        ((World.after (Env.testing []) [] bobRegisters).server.core.users
          1).name ∨
      Registers (Env.testing []) Unprotected
        (handedIn (World.after (Env.testing []) [] bobRegisters).trace) 1
        ((World.after (Env.testing []) [] bobRegisters).server.core.users
          1).name :=
  loggedIn_shown (Env.testing []) [] bobRegisters (fun _ => rfl) 1 1
    ⟨by decide +kernel, by decide +kernel, by decide +kernel⟩
    (by decide +kernel)

/-- Ann registers, whose account is stored without a hash. -/
def annWithoutHash : List Event :=
  [.accept, .packet 0 (lit "ann\rsecret\rsecret\r")]

/-- An account without a hash is registered again. -/
theorem emptyHash_registered :
    ¬ ∀ env rows events, (∀ number, env.dbFails number = false) →
      ∀ connection user,
        (World.after env rows events).server.core.Attached user connection →
        ((World.after env rows events).server.core.users user).level ≠ .login →
          EntersPassword env (handedIn (World.after env rows events).trace)
              connection
              ((World.after env rows events).server.core.users user).name ∨
            Registers env Vacant
              (handedIn (World.after env rows events).trace) connection
              ((World.after env rows events).server.core.users user).name := by
  intro always
  have stored : ∀ handed ∈ handedIn (World.after (Env.testing [])
      [⟨1, lit "ann", [], 1⟩] annWithoutHash).trace,
      handed.line ≠ [] ∧
        (handed.core.db.lookup (lit "Ann")).map Row.password = some [] := by
    decide +kernel
  have name : ((World.after (Env.testing []) [⟨1, lit "ann", [], 1⟩]
      annWithoutHash).server.core.users 0).name = lit "Ann" := by
    decide +kernel
  have shown := always (Env.testing []) [⟨1, lit "ann", [], 1⟩] annWithoutHash
    (fun _ => rfl) 0 0
    ⟨by decide +kernel, by decide +kernel, by decide +kernel⟩
    (by decide +kernel)
  rw [name] at shown
  rcases shown with ⟨handed, inside, -, -, row, found, matching⟩ |
    ⟨named, chosen, confirmed, inside, names, -⟩
  · obtain ⟨line, hash⟩ := stored handed inside
    rw [found] at hash
    have empty : row.password = [] := Option.some.inj hash
    rw [empty] at matching
    exact line matching.symm
  · obtain ⟨-, hash⟩ := stored named (inside.subset List.mem_cons_self)
    have vacant : named.core.db.lookup (lit "Ann") = none := names.holds
    rw [vacant] at hash
    exact absurd hash (by simp)

end Network
end Lotospp
