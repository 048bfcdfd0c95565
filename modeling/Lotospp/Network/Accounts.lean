import Lotospp.Common.Accounts
import Lotospp.Network.Invariant

/-!
# Sessions and accounts

What holds of the sessions and the accounts as long as the queries work.  Of
the sessions that can still hand lines over, no two await a password under
one name; the cached hash is that of the account, if there is one; and a
password is confirmed only while there is none.  Therefore accounts keep
different logins, and two sessions that are logged in have different names.
-/

namespace Lotospp
namespace Network

open Text Effect Common Commands Database

/-- The session can still hand lines over: its connection is open, or it is
reading a packet. -/
def Active (turn : Option Nat) (core : Core) (user : Nat) : Prop :=
  turn = some user ∨ Online core user

/-- The cached hash goes with the accounts. -/
structure Matches (db : Users) (credentials : Credentials) : Prop where
  /-- A session that awaits the password has the hash of the account. -/
  cached : credentials.level = .login → credentials.stage = .loginPwd →
    ∀ row ∈ db.lookup credentials.name,
      credentials.password = some row.password
  /-- A session that awaits the confirmation has no account. -/
  free : credentials.level = .login → credentials.stage = .loginReenterPwd →
    db.lookup credentials.name = none
  /-- It has a new hash. -/
  fresh : credentials.level = .login → credentials.stage = .loginReenterPwd →
    ∀ password ∈ credentials.password, password ≠ []

/-- The sessions and the accounts agree. -/
structure Accounted (turn : Option Nat) (core : Core) : Prop where
  /-- Accounts have hashes. -/
  hashed : ∀ row ∈ core.db.rows, row.password ≠ []
  /-- Accounts have different logins. -/
  distinct : DistinctLogins core.db.rows
  /-- All rows are committed. -/
  committed : core.db.undo = none
  /-- Two active sessions do not await passwords under the same name. -/
  rivals : ∀ user other, user ≠ other → Active turn core user →
    Active turn core other → (core.users user).credentials.Pending →
      (core.users other).credentials.Pending →
        ¬ iequals (core.users user).name (core.users other).name
  /-- The hashes of active sessions are those of the accounts. -/
  accounts : ∀ user, Active turn core user →
    Matches core.db (core.users user).credentials
  /-- A session that is logged in has an account. -/
  stored : ∀ user, (core.users user).level ≠ .login →
    core.db.lookup (core.users user).name ≠ none
  /-- Two listed sessions that are logged in have different names. -/
  unique : ∀ entry ∈ core.listUser, ∀ other ∈ core.listUser,
    entry.2 ≠ other.2 → (core.users entry.2).level ≠ .login →
      (core.users other.2).level ≠ .login →
        (core.users entry.2).name ≠ (core.users other.2).name

/-- A session that awaits nothing goes with all accounts. -/
theorem Matches.of_not_pending
    {db : Users}
    {credentials : Credentials}
    (calm : ¬ credentials.Pending) : Matches db credentials where
  cached level stage := absurd ⟨level, .inl stage⟩ calm
  free level stage := absurd ⟨level, .inr stage⟩ calm
  fresh level stage := absurd ⟨level, .inr stage⟩ calm

/-- A takeover and its handler leave the credentials of all sessions. -/
theorem credentials_swapped
    {core : Core}
    {me other : Nat}
    (found : core.findSession me = some other)
    (connection user : Nat) :
    ((swapped core me other connection).users user).credentials =
      (core.users user).credentials := by
  rw [swapped, users_destroyed, ← credentials_takenOver found connection user]
  split
  · rename_i isOther
    rw [isOther]
    rfl
  · rfl

/-! ## Activity -/

section Activity

variable {core reached : Core} {me user : Nat} {turn : Option Nat}

theorem Active.of_near
    (stays : core.Near reached me)
    (active : Active turn reached user) : Active turn core user :=
  active.imp id (.of_near stays)

/-- A session that takes its turn has an open connection. -/
theorem Active.of_enters
    {connection : Nat}
    (session : Session core me connection)
    (isOpen : (core.connections connection).state = .open)
    (active : Active (some me) core user) : Active turn core user := by
  rcases active with isMe | online
  · rw [← Option.some.inj isMe]
    exact .inr ⟨connection, session.client, isOpen⟩
  · exact .inr online

theorem Active.of_leaves (active : Active none core user) :
    Active turn core user :=
  .inr (active.resolve_left (Option.some_ne_none user).symm)

/-- The other sessions are active as before when a new one joins. -/
theorem Active.of_joined
    {connection autoId : Nat}
    {autoID : AutoID}
    (different : user ≠ core.nextUser)
    (active : Active none (joined core connection autoId autoID) user) :
    Active turn core user := by
  obtain ⟨held, client, isOpen⟩ :=
    active.resolve_left (Option.some_ne_none user).symm
  rw [users_joined, if_neg different] at client
  exact .inr ⟨held, client, isOpen⟩

end Activity

/-- Negotiation leaves the credentials alone. -/
theorem credentials_of_negotiates
    {change : User → User}
    (negotiates : User.Negotiates change)
    (user : User) : (change user).credentials = user.credentials := by
  obtain ⟨cols, rows, type, flags, same, -⟩ := negotiates user
  rw [same]
  rfl

/-- Of the active sessions no two await a password under the same name. -/
def Unrivalled (turn : Option Nat) (core : Core) : Prop :=
  ∀ user other, user ≠ other → Active turn core user →
    Active turn core other → (core.users user).credentials.Pending →
      (core.users other).credentials.Pending →
        ¬ iequals (core.users user).name (core.users other).name

/-- The session that has changed has no rival. -/
def Unopposed
    (later : Option Nat)
    (core reached : Core)
    (me : Nat) : Prop :=
  Active later reached me → (reached.users me).credentials.Pending →
    ∀ other, other ≠ me → Active later reached other →
      (core.users other).credentials.Pending →
        ¬ iequals (reached.users me).name (core.users other).name

namespace Unrivalled

variable {turn later : Option Nat} {core reached : Core} {me : Nat}

/-- One session has changed, and has no rival. -/
theorem change
    (unrivalled : Unrivalled turn core)
    (others : ∀ user, user ≠ me →
      (reached.users user).credentials = (core.users user).credentials)
    (active : ∀ user, user ≠ me → Active later reached user →
      Active turn core user)
    (unopposed : Unopposed later core reached me) :
    Unrivalled later reached := by
  have names : ∀ user, user ≠ me →
      (reached.users user).name = (core.users user).name :=
    fun user different => congrArg Credentials.name (others user different)
  intro user other different isActive isActiveToo pending pendingToo
  by_cases isMe : user = me
  · subst isMe
    rw [others other (Ne.symm different)] at pendingToo
    rw [names other (Ne.symm different)]
    exact unopposed isActive pending other (Ne.symm different)
      isActiveToo pendingToo
  · by_cases isMeToo : other = me
    · subst isMeToo
      rw [others user different] at pending
      rw [names user different]
      rw [iequals_comm]
      exact unopposed isActiveToo pendingToo user different isActive pending
    · rw [others user isMe] at pending
      rw [others other isMeToo] at pendingToo
      rw [names user isMe, names other isMeToo]
      exact unrivalled user other different (active user isMe isActive)
        (active other isMeToo isActiveToo) pending pendingToo

/-- A session that awaited a password before keeps its name. -/
theorem unopposed
    (unrivalled : Unrivalled (some me) core)
    (stays : core.Near reached me)
    (pending : (core.users me).credentials.Pending)
    (name : (reached.users me).name = (core.users me).name) :
    Unopposed (some me) core reached me := by
  rw [Unopposed, name]
  intro _ _ other different isActive
  exact unrivalled me other (Ne.symm different) (.inl rfl)
    (.of_near stays isActive) pending

end Unrivalled

/-- Whoever awaited a password under a name that is entered is cut off. -/
theorem Unopposed.named
    {env : Env}
    {me connection : Nat}
    {core : Core}
    (line : Bytes)
    (session : Session core me connection) :
    Unopposed (some me) core (core.named env me line) me := by
  have stays := Core.Local.named env me line core
  have name : ((core.named env me line).users me).name = properName line :=
    congrArg Credentials.name (credentials_named env me line core)
  intro _ _ other different isActive pending same
  have online : Online (core.named env me line) other :=
    isActive.resolve_left (by simpa using Ne.symm different)
  obtain ⟨held, client, isOpen⟩ := Online.of_near stays.toNear online
  have inside := session.linked.online other held isOpen client
  refine (ghost_of_hangs env line session inside ⟨pending.1, different, ?_⟩).2
    online
  rwa [iequals_comm, ← name]

/-! ## One session at a time -/

namespace Accounted

variable {turn later : Option Nat} {core reached : Core} {me : Nat}

/-- What has to be checked of the session that has changed. -/
structure Admits (later : Option Nat) (core reached : Core) (me : Nat) :
    Prop where
  /-- It has no rival. -/
  rivals : Active later reached me → (reached.users me).credentials.Pending →
    ∀ other, other ≠ me → Active later reached other →
      (core.users other).credentials.Pending →
        ¬ iequals (reached.users me).name (core.users other).name
  /-- Its hash goes with the accounts. -/
  accounts : Active later reached me →
    Matches core.db (reached.users me).credentials
  /-- If it is logged in, it has an account. -/
  stored : (reached.users me).level ≠ .login →
    core.db.lookup (reached.users me).name ≠ none
  /-- If it is logged in and listed, nobody else is logged in by its name. -/
  unique : (∃ entry ∈ reached.listUser, entry.2 = me) →
    (reached.users me).level ≠ .login → ∀ other ∈ reached.listUser,
      other.2 ≠ me → (core.users other.2).level ≠ .login →
        (reached.users me).name ≠ (core.users other.2).name

/-- One session has changed, and the table has not. -/
theorem change
    (accounted : Accounted turn core)
    (others : ∀ user, user ≠ me →
      (reached.users user).credentials = (core.users user).credentials)
    (table : SameTable core.db reached.db)
    (listed : ∀ entry ∈ reached.listUser, entry.2 ≠ me →
      entry ∈ core.listUser)
    (active : ∀ user, user ≠ me → Active later reached user →
      Active turn core user)
    (admits : Admits later core reached me) : Accounted later reached := by
  have names : ∀ user, user ≠ me →
      (reached.users user).name = (core.users user).name :=
    fun user different => congrArg Credentials.name (others user different)
  have levels : ∀ user, user ≠ me →
      (reached.users user).level = (core.users user).level :=
    fun user different => congrArg Credentials.level (others user different)
  refine ⟨?_, ?_, ?_, ?_, ?_, ?_, ?_⟩
  · rw [table.1]
    exact accounted.hashed
  · rw [table.1]
    exact accounted.distinct
  · rw [table.2]
    exact accounted.committed
  · exact Unrivalled.change accounted.rivals others active admits.rivals
  · intro user isActive
    have kept : Matches core.db (reached.users user).credentials := by
      by_cases isMe : user = me
      · subst isMe
        exact admits.accounts isActive
      · rw [others user isMe]
        exact accounted.accounts user (active user isMe isActive)
    obtain ⟨cached, free, fresh⟩ := kept
    rw [← table.lookup] at cached free
    exact ⟨cached, free, fresh⟩
  · intro user loggedIn
    rw [table.lookup]
    by_cases isMe : user = me
    · subst isMe
      exact admits.stored loggedIn
    · rw [levels user isMe] at loggedIn
      rw [names user isMe]
      exact accounted.stored user loggedIn
  · intro entry inside other insideToo different loggedIn loggedInToo
    by_cases isMe : entry.2 = me
    · subst isMe
      rw [levels other.2 (Ne.symm different)] at loggedInToo
      rw [names other.2 (Ne.symm different)]
      exact admits.unique ⟨entry, inside, rfl⟩ loggedIn other insideToo
        (Ne.symm different) loggedInToo
    · by_cases isMeToo : other.2 = me
      · subst isMeToo
        rw [levels entry.2 different] at loggedIn
        rw [names entry.2 different]
        exact (admits.unique ⟨other, insideToo, rfl⟩ loggedInToo entry inside
          different loggedIn).symm
      · rw [levels entry.2 isMe] at loggedIn
        rw [levels other.2 isMeToo] at loggedInToo
        rw [names entry.2 isMe, names other.2 isMeToo]
        exact accounted.unique entry (listed entry inside isMe) other
          (listed other insideToo isMeToo) different loggedIn loggedInToo

/-- A session keeps its credentials. -/
theorem Admits.of_same
    (accounted : Accounted turn core)
    (credentials : (reached.users me).credentials =
      (core.users me).credentials)
    (listed : reached.listUser ⊆ core.listUser)
    (active : ∀ user, Active later reached user → Active turn core user) :
    Admits later core reached me := by
  have name : (reached.users me).name = (core.users me).name :=
    congrArg Credentials.name credentials
  have level : (reached.users me).level = (core.users me).level :=
    congrArg Credentials.level credentials
  refine ⟨?_, ?_, ?_, ?_⟩
  · rw [credentials, name]
    intro isActive pending other different isActiveToo
    exact accounted.rivals me other (Ne.symm different) (active me isActive)
      (active other isActiveToo) pending
  · rw [credentials]
    exact fun isActive => accounted.accounts me (active me isActive)
  · rw [level, name]
    exact accounted.stored me
  · rw [level, name]
    rintro ⟨entry, inside, rfl⟩ loggedIn other insideToo different
    exact accounted.unique entry (listed inside) other (listed insideToo)
      (Ne.symm different) loggedIn

/-- A session awaits nothing, and keeps its name and its level. -/
theorem Admits.of_calm
    (accounted : Accounted turn core)
    (calm : ¬ (reached.users me).credentials.Pending)
    (name : (reached.users me).name = (core.users me).name)
    (level : (reached.users me).level = (core.users me).level)
    (listed : reached.listUser ⊆ core.listUser) :
    Admits later core reached me := by
  refine ⟨fun _ pending => absurd pending calm,
    fun _ => .of_not_pending calm, ?_, ?_⟩
  · rw [level, name]
    exact accounted.stored me
  · rw [level, name]
    rintro ⟨entry, inside, rfl⟩ loggedIn other insideToo different
    exact accounted.unique entry (listed inside) other (listed insideToo)
      (Ne.symm different) loggedIn

/-- No session has changed its credentials. -/
theorem same
    (accounted : Accounted turn core)
    (credentials : ∀ user,
      (reached.users user).credentials = (core.users user).credentials)
    (table : SameTable core.db reached.db)
    (listed : reached.listUser ⊆ core.listUser)
    (active : ∀ user, Active later reached user → Active turn core user) :
    Accounted later reached := by
  have admits : Admits later core reached 0 :=
    .of_same accounted (credentials 0) listed active
  exact accounted.change (fun user _ => credentials user) table
    (fun _ inside _ => listed inside) (fun user _ => active user) admits

/-- A line has changed its own session only, and not the table. -/
theorem of_local
    (accounted : Accounted (some me) core)
    (stays : core.Local reached me)
    (table : SameTable core.db reached.db)
    (admits : Admits (some me) core reached me) :
    Accounted (some me) reached := by
  refine accounted.change (fun user different => ?_) table
    (fun _ inside _ => stays.toNear.listUser_subset inside)
    (fun _ _ => .of_near stays.toNear) admits
  rw [stays.others user different]

end Accounted

/-! ## Lines -/

section Lines

variable {env : Env} {me connection : Nat} {line : Bytes} {core : Core}

/-- A failed attempt. -/
theorem Accounted.attempted
    (accounted : Accounted (some me) core) :
    Accounted (some me) (core.attempted me) := by
  have stays := Core.Local.attempted core me
  apply accounted.of_local stays (.of_eq (db_attempted me core))
  have credentials := credentials_attempted me core
  split at credentials
  · exact .of_same accounted credentials stays.toNear.listUser_subset
      fun user => .of_near stays.toNear
  · refine .of_calm accounted ?_ (congrArg Credentials.name credentials)
      (congrArg Credentials.level credentials) stays.toNear.listUser_subset
    rw [credentials]
    exact Credentials.not_pending (by simp [Credentials.retried])
      (by simp [Credentials.retried])

/-- A name is entered: whoever awaited a password under it is cut off. -/
theorem Accounted.named
    (session : Session core me connection)
    (entered : EntersName env me line core)
    (works : Works env me line core)
    (accounted : Accounted (some me) core) :
    Accounted (some me) (core.named env me line) := by
  have stays := Core.Local.named env me line core
  have credentials := credentials_named env me line core
  have name : ((core.named env me line).users me).name = properName line :=
    congrArg Credentials.name credentials
  have level : ((core.named env me line).users me).level = .login :=
    congrArg Credentials.level credentials
  refine accounted.of_local stays (table_named env me line core)
    ⟨?_, fun _ => ⟨?_, ?_, ?_⟩, ?_, ?_⟩
  · exact Unopposed.named line session
  · intro _ _ row found
    change row ∈ core.db.lookup ((core.named env me line).users me).name
      at found
    rw [name, ← Users.lookup_congr (iequals_properName line)] at found
    rcases works.1 entered with works | free
    · rw [← Users.select_of_works works] at found
      rw [credentials, db_rejected, found]
    · rw [free] at found
      exact absurd found (by simp)
  · rw [credentials]
    exact fun _ stage => absurd stage (by simp)
  · rw [credentials]
    exact fun _ stage => absurd stage (by simp)
  · exact absurd level
  · exact fun _ => absurd level

/-- A password is chosen. -/
theorem Accounted.chosen
    (fresh : ∀ count key, env.cryptFresh count key ≠ [])
    (chosen : ChoosesPassword me line core)
    (accounted : Accounted (some me) core) :
    Accounted (some me) (core.chosen env me line) := by
  obtain ⟨⟨level, stage⟩, -, noHash⟩ := chosen
  have stays := Core.Local.chosen env me line core
  have credentials := credentials_chosen env me line core
  have name : ((core.chosen env me line).users me).name =
      (core.users me).name := congrArg Credentials.name credentials
  have levelAfter : ((core.chosen env me line).users me).level = .login :=
    (congrArg Credentials.level credentials).trans level
  have matched := accounted.accounts me (.inl rfl)
  refine accounted.of_local stays (.refl _)
    ⟨?_, fun _ => ⟨?_, ?_, ?_⟩, absurd levelAfter, fun _ => absurd levelAfter⟩
  · exact Unrivalled.unopposed accounted.rivals stays.toNear
      ⟨level, .inl stage⟩ name
  · rw [credentials]
    exact fun _ stage => absurd stage (by simp)
  · intro _ _
    rw [credentials]
    cases found : core.db.lookup (core.users me).name with
    | none => exact found
    | some row =>
        have cached := matched.cached level stage row found
        exact absurd (noHash row.password cached)
          (accounted.hashed row (Users.mem_of_lookup found).1)
  · rw [credentials]
    intro _ _ password isFresh
    rw [← Option.some.inj isFresh]
    exact fresh core.salts line

/-- A password has been confirmed, and the account added. -/
theorem Accounted.registered
    {password : Bytes}
    (works : Works env me line core)
    (confirmed : Confirms env me line core)
    (cached : (core.users me).password = some password)
    (accounted : Accounted (some me) core) :
    Accounted (some me) (core.registered me (core.created env me password).1
      (core.created env me password).2) := by
  obtain ⟨rows, undo⟩ := created_works works confirmed password
  obtain ⟨⟨level, stage⟩, -⟩ := confirmed
  have stays := Core.Local.registered me (core.created env me password).1
    (core.created env me password).2 core
  have credentials := credentials_registered me core
    (core.created env me password).1 (core.created env me password).2
  have db : (core.registered me (core.created env me password).1
      (core.created env me password).2).db =
        (core.created env me password).2 := rfl
  generalize core.registered me (core.created env me password).1
    (core.created env me password).2 = reached at stays credentials db ⊢
  rw [← db] at rows undo
  have name : (reached.users me).name = (core.users me).name :=
    congrArg Credentials.name credentials
  have calm : ¬ (reached.users me).credentials.Pending := by
    rw [credentials]
    rintro ⟨level, -⟩
    exact absurd (show UserLevel.novice = .login from level) (by decide)
  have matched := accounted.accounts me (.inl rfl)
  have free := matched.free level stage
  have pending : (core.users me).credentials.Pending := ⟨level, .inr stage⟩
  have active : ∀ user, Active (some me) reached user →
      Active (some me) core user := fun user => .of_near stays.toNear
  have loggedIn : ∀ user, user ≠ me → (core.users user).level ≠ .login →
      (core.users user).name ≠ (core.users me).name := by
    intro user _ loggedIn same
    exact accounted.stored user loggedIn (by rw [same]; exact free)
  refine ⟨?_, ?_, undo, ?_, ?_, ?_, ?_⟩
  · rw [rows]
    intro row inside
    rcases List.mem_append.mp inside with before | new
    · exact accounted.hashed row before
    · rw [List.mem_singleton.mp new]
      exact matched.fresh level stage password cached
  · exact accounted.distinct.append rows free
  · refine Unrivalled.change accounted.rivals (fun user different => ?_)
      (fun user _ => active user) fun _ isPending => absurd isPending calm
    rw [stays.others user different]
  · intro user isActive
    by_cases isPending : (reached.users user).credentials.Pending
    · have notMe : user ≠ me := by
        rintro rfl
        exact calm isPending
      rw [stays.others user notMe] at isPending ⊢
      have apart := accounted.rivals me user (Ne.symm notMe) (.inl rfl)
        (active user isActive) pending isPending
      have same : reached.db.lookup (core.users user).name =
          core.db.lookup (core.users user).name :=
        Users.lookup_append_of_ne rows apart
      obtain ⟨cachedToo, freeToo, freshToo⟩ :=
        accounted.accounts user (active user isActive)
      exact ⟨fun level stage row found => cachedToo level stage row
          (same ▸ found),
        fun level stage => same.trans (freeToo level stage), freshToo⟩
    · exact .of_not_pending isPending
  · intro user isLoggedIn
    by_cases isMe : user = me
    · rw [isMe, name]
      exact Users.lookup_append_self rows
    · rw [stays.others user isMe] at isLoggedIn ⊢
      exact Users.lookup_append_ne_none rows (accounted.stored user isLoggedIn)
  · intro entry inside other insideToo different isLoggedIn isLoggedInToo
    have subset := stays.toNear.listUser_subset
    by_cases isMe : entry.2 = me
    · have notMe : other.2 ≠ me := isMe ▸ Ne.symm different
      rw [stays.others other.2 notMe] at isLoggedInToo ⊢
      rw [isMe, name]
      exact (loggedIn other.2 notMe isLoggedInToo).symm
    · rw [stays.others entry.2 isMe] at isLoggedIn ⊢
      by_cases isMeToo : other.2 = me
      · rw [isMeToo, name]
        exact loggedIn entry.2 isMe isLoggedIn
      · rw [stays.others other.2 isMeToo] at isLoggedInToo ⊢
        exact accounted.unique entry (subset inside) other (subset insideToo)
          different isLoggedIn isLoggedInToo

/-- The password was right, but the level cannot be converted. -/
theorem Accounted.thrown
    {abort : Abort}
    {reached : Core}
    (right : RightPassword env me line core)
    (loaded : loadOutcome env me (core.users me).name false core =
      (.error abort, reached))
    (accounted : Accounted (some me) core) : Accounted (some me) reached := by
  obtain ⟨⟨level, stage⟩, -⟩ := right
  have stays := Core.Local.load env me (core.users me).name false core
  have table := table_load env me core (core.users me).name false
  rw [loaded] at stays table
  obtain ⟨row, found, credentials⟩ := credentials_throws loaded
  have name : (reached.users me).name = (core.users me).name :=
    congrArg Credentials.name credentials
  have levelAfter : (reached.users me).level = .login :=
    (congrArg Credentials.level credentials).trans level
  have stageAfter : (reached.users me).credentials.stage = .loginPwd :=
    (congrArg Credentials.stage credentials).trans stage
  have notReenter : (reached.users me).credentials.stage ≠
      .loginReenterPwd := by
    simp [stageAfter]
  refine accounted.of_local stays table
    ⟨?_, fun _ => ⟨?_, ?_, ?_⟩, absurd levelAfter, fun _ => absurd levelAfter⟩
  · exact Unrivalled.unopposed accounted.rivals stays.toNear
      ⟨level, .inl stage⟩ name
  · rw [credentials]
    intro _ _ other isOther
    change other ∈ core.db.lookup (core.users me).name at isOther
    rw [found] at isOther
    rw [Option.some.inj isOther]
  · exact fun _ stageToo => absurd stageToo notReenter
  · exact fun _ stageToo => absurd stageToo notReenter

section Admitted

variable {after : Core}

/-- A session is logged in, and nobody else has its name. -/
theorem Accounted.alone
    (stays : core.Local after me)
    (table : SameTable core.db after.db)
    (calm : ¬ (after.users me).credentials.Pending)
    (stored : (after.users me).level ≠ .login →
      core.db.lookup (after.users me).name ≠ none)
    (alone : after.findSession me = none)
    (accounted : Accounted (some me) core) : Accounted (some me) after := by
  refine accounted.of_local stays table
    ⟨fun _ pending => absurd pending calm, fun _ => .of_not_pending calm,
      stored, fun _ _ other inside different _ same => ?_⟩
  have apart := List.find?_eq_none.mp alone other.2 (List.mem_map_of_mem inside)
  rw [← stays.others other.2 different] at same
  exact apart (decide_eq_true ⟨different, same⟩)

/-- A session is logged in and takes another one over: both are gone. -/
theorem Accounted.swapped
    {other : Nat}
    (session : Session after me connection)
    (stays : core.Local after me)
    (table : SameTable core.db after.db)
    (calm : ¬ (after.users me).credentials.Pending)
    (stored : (after.users me).level ≠ .login →
      core.db.lookup (after.users me).name ≠ none)
    (taken : after.findSession me = some other)
    (accounted : Accounted (some me) core) :
    Accounted none (Network.swapped after me other connection) := by
  obtain ⟨different, -, -⟩ := Core.findSession_some taken
  have tidies := Tidies.swapped session taken
  have users := credentials_swapped taken connection
  have list : ∀ entry ∈ (Network.swapped after me other connection).listUser,
      entry ∈ (after.removeList me).listUser := by
    intro entry inside
    rw [Network.swapped, listUser_destroyed] at inside
    rw [← after.listUser_takenOver connection different]
    exact List.mem_of_mem_filter inside
  have level : ((Network.swapped after me other connection).users me).level =
      (after.users me).level := congrArg Credentials.level (users me)
  have name : ((Network.swapped after me other connection).users me).name =
      (after.users me).name := congrArg Credentials.name (users me)
  have admits : Admits none core (Network.swapped after me other connection)
      me := by
    refine ⟨fun _ pending => ?_, fun _ => ?_, ?_, ?_⟩
    · rw [users] at pending
      exact absurd pending calm
    · rw [users]
      exact .of_not_pending calm
    · rw [level, name]
      exact stored
    · rintro ⟨entry, inside, isMe⟩
      exact absurd isMe (session.linked.ne_of_mem_removeList (list entry inside))
  refine accounted.change (fun user isOther => ?_)
    (table.trans (.of_eq tidies.db)) (fun entry inside _ => ?_)
    (fun user _ active => ?_) admits
  · rw [users, stays.others user isOther]
  · exact stays.toNear.listUser_subset (tidies.listed.subset inside)
  · have online := active.resolve_left (Option.some_ne_none user).symm
    exact .inr (.of_near stays.toNear (.of_shrinks tidies.toShrinks online))

/-- A user whose password was right is admitted: it awaits nothing, and is
logged in only if its account has been found. -/
structure AdmitsUser (core reached : Core) (me : Nat) : Prop where
  stays : core.Local reached me
  table : SameTable core.db reached.db
  credentials : ∃ level, (reached.users me).credentials =
    { (core.users me).credentials with
      password := none
      level := level
      stage := .cmdLine }
  stored : (reached.users me).level ≠ .login →
    core.db.lookup (core.users me).name ≠ none

theorem admitsUser
    {found : Bool}
    {reached : Core}
    (right : RightPassword env me line core)
    (loaded : loadOutcome env me (core.users me).name false core =
      (.ok found, reached)) : AdmitsUser core (reached.admitted me) me := by
  have stays := (Core.Local.load env me (core.users me).name false core).trans
    (.admitted _ me)
  have table := table_load env me core (core.users me).name false
  have leveled := @level_load env me (core.users me).name core
  have credentials := credentials_admitted me reached
  obtain ⟨password, level, loadedCredentials⟩ :=
    credentials_load env me core (core.users me).name false
  rw [loaded] at stays table leveled loadedCredentials
  rw [loadedCredentials] at credentials
  have sameLevel : ((reached.admitted me).users me).level =
      (reached.users me).level := by
    simp [Core.admitted]
  refine ⟨stays, table, ⟨level, credentials⟩, fun loggedIn => ?_⟩
  apply leveled.resolve_left
  intro same
  rw [sameLevel, same, right.1.1] at loggedIn
  exact loggedIn rfl

/-- The password was right. -/
theorem Accounted.admitted
    {found : Bool}
    {reached : Core}
    (session : Session core me connection)
    (right : RightPassword env me line core)
    (loaded : loadOutcome env me (core.users me).name false core =
      (.ok found, reached))
    (accounted : Accounted (some me) core) :
    Kept (Accounted (some me)) (Accounted none) me connection
      (connectOutcome me (reached.admitted me)) := by
  have admits := admitsUser right loaded
  obtain ⟨level, credentials⟩ := admits.credentials
  have sessionAfter : Session (reached.admitted me) me connection :=
    (session.loaded loaded).setUser fun _ => by rfl
  have name : ((reached.admitted me).users me).name = (core.users me).name :=
    congrArg Credentials.name credentials
  have calm : ¬ ((reached.admitted me).users me).credentials.Pending := by
    rw [credentials]
    exact Credentials.not_pending (by simp) (by simp)
  have stored : ((reached.admitted me).users me).level ≠ .login →
      core.db.lookup ((reached.admitted me).users me).name ≠ none := by
    rw [name]
    exact admits.stored
  unfold connectOutcome
  split
  · rename_i alone
    exact .inl ⟨by simp,
      accounted.alone admits.stays admits.table calm stored alone⟩
  · rename_i other taken
    have swapped := accounted.swapped sessionAfter admits.stays admits.table
      calm stored taken
    rw [sessionAfter.client]
    exact .inr ⟨rfl, reached.admitted me, other, sessionAfter, taken,
      .inr swapped, rfl⟩

end Admitted

/-- A line whose queries work keeps sessions and accounts in agreement. -/
theorem Accounted.keeps
    {outcome : Except Abort Unit × Core}
    (fresh : ∀ count key, env.cryptFresh count key ≠ [])
    (session : Session core me connection)
    (effect : LineEffect env me line core outcome)
    (works : Works env me line core)
    (accounted : Accounted (some me) core) :
    Kept (Accounted (some me)) (Accounted none) me connection outcome := by
  cases effect with
  | answers => exact .inl ⟨by simp, accounted⟩
  | abandons => exact .inl ⟨by simp, accounted⟩
  | fails => exact .inl ⟨by simp, accounted.attempted⟩
  | names entered =>
      exact .inl ⟨by simp, accounted.named session entered works⟩
  | chooses chosen => exact .inl ⟨by simp, accounted.chosen fresh chosen⟩
  | throws right loaded =>
      have throws := loadOutcome_error (congrArg Prod.fst loaded)
      exact .inl ⟨by simp [throws], accounted.thrown right loaded⟩
  | admits right loaded => exact accounted.admitted session right loaded
  | confirms confirmed _ cached =>
      exact .inl ⟨by simp, accounted.registered works confirmed cached⟩
  | stumbles => exact .inl ⟨by simp, accounted⟩
  | parses level =>
      have stays := Core.Local.parsed me core
      have credentials := credentials_parsed me core
      refine .inl ⟨parseOutcome_noStage, accounted.of_local stays
        (.of_eq (db_parsed me core)) (.of_calm accounted ?_
          (congrArg Credentials.name credentials)
          (congrArg Credentials.level credentials)
          stays.toNear.listUser_subset)⟩
      rintro ⟨isLogin, -⟩
      rw [credentials] at isLogin
      exact level isLogin

end Lines

/-! ## Runs -/

/-- As long as the queries work, sessions and accounts agree. -/
theorem accounted_invariant
    {env : Env}
    (fresh : ∀ count key, env.cryptFresh count key ≠ []) :
    EventInvariant env fun turn core past =>
      (∀ handed ∈ past, Works env handed.user handed.line handed.core) →
        Accounted turn core where
  closes := by
    intro core past connection _ agree works
    apply (agree works).same (by simp) (.of_eq (by simp)) (by simp)
    exact fun user active => active.imp id
      (.of_shrinks (.closeConnection core connection))
  shrinks := by
    intro core reached past _ tidies agree works
    refine (agree works).same (fun user => ?_) (.of_eq tidies.db)
      tidies.listed.subset
      fun user active => active.imp id (.of_shrinks tidies.toShrinks)
    obtain ⟨alive, client, same, -⟩ := tidies.users user
    rw [same]
    rfl
  joins := by
    intro core past connection autoId autoID linked isOpen _ agree works
    have users := @users_joined core connection autoId autoID
    have isNew : (joined core connection autoId autoID).users core.nextUser =
        newUser autoId connection := by
      rw [users, if_pos rfl]
    have admits : Accounted.Admits none core
        (joined core connection autoId autoID) core.nextUser := by
      have calm : ¬ ((joined core connection autoId autoID).users
          core.nextUser).credentials.Pending := by
        rw [isNew]
        exact Credentials.not_pending (by simp [newUser, User.credentials])
          (by simp [newUser, User.credentials])
      have level : ((joined core connection autoId autoID).users
          core.nextUser).level = .login := by
        rw [isNew]
        rfl
      exact ⟨fun _ pending => absurd pending calm,
        fun _ => .of_not_pending calm, absurd level, fun _ => absurd level⟩
    refine (agree works).change (fun user different => ?_) (.refl _) ?_
      (fun user different => .of_joined different) admits
    · rw [users, if_neg different]
    · intro entry inside different
      refine (Core.mem_insertKey inside).resolve_left fun isEntry => ?_
      exact different (congrArg Prod.snd isEntry)
  enters := by
    intro core past me connection session isOpen agree works
    exact (agree works).same (fun _ => rfl) (.refl _) (List.Subset.refl _)
      fun user => .of_enters session isOpen
  leaves := by
    intro core past me agree works
    exact (agree works).same (fun _ => rfl) (.refl _) (List.Subset.refl _)
      fun user => .of_leaves
  negotiates := by
    intro core past me connection change session changes agree works
    refine (agree works).same (fun user => ?_) (.refl _) (List.Subset.refl _)
      fun user => .of_near (.setUser changes.keeps core me)
    rw [Core.users_setUser]
    split
    · rename_i isMe
      rw [isMe]
      exact credentials_of_negotiates changes _
    · rfl
  notices := by
    intro core past me connection session due agree works
    have accounted := agree works
    have keeps : User.Keeps User.noticed := fun _ => by rfl
    have noticed : ((core.setUser me User.noticed).users me) =
        (core.users me).noticed := core.users_setUser_self me User.noticed
    have admits : Accounted.Admits (some me) core
        (core.setUser me User.noticed) me := by
      refine .of_calm accounted ?_ (by rw [noticed]; rfl) (by rw [noticed]; rfl)
        (List.Subset.refl _)
      rw [noticed]
      exact Credentials.not_pending (by simp [User.noticed, User.credentials])
        (by simp [User.noticed, User.credentials])
    refine accounted.change (fun user different => ?_) (.refl _)
      (fun _ inside _ => inside)
      (fun user _ => .of_near (.setUser keeps core me)) admits
    rw [Core.users_setUser_of_ne _ _ different]
  edits := by
    rintro core reached past me connection session edits agree works
    have stays := Core.Near.edits edits
    obtain ⟨textBuffer, tbpos, -, rfl⟩ := edits
    refine (agree works).same (fun user => ?_) (.refl _) (List.Subset.refl _)
      fun user => .of_near stays
    rw [Core.users_setUser]
    split
    · rename_i isMe
      rw [isMe]
      rfl
    · rfl
  line := by
    intro core past me connection line rest outcome session effect agree
    by_cases works : ∀ handed ∈ past ++
        [{ user := me, core := core, line := line, rest := rest }],
        Works env handed.user handed.line handed.core
    · have last : Works env me line core :=
        works { user := me, core := core, line := line, rest := rest } (by simp)
      have kept := Accounted.keeps fresh session effect last
        (agree fun handed inside => works handed (List.mem_append_left _ inside))
      exact kept.imp (fun _ after _ => after) fun _ after _ => after
    · exact .of_local session effect fun _ _ lines => absurd lines works

end Network
end Lotospp
