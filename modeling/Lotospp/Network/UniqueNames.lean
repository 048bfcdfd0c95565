import Lotospp.Network.Accounts
import Lotospp.Security.Verification

/-!
# Names and accounts in a run

Two consequences of the agreement of sessions and accounts.  While all queries
work, the sessions that are logged in have different names.  While those work
that look for accounts and add them, no login is stored twice, and a session
that is logged in has a committed account.
-/

namespace Lotospp
namespace Network

open Text Effect Common Commands Database

/-- New hashes are made by `Blowfish::crypt`. -/
def HashesPasswords (env : Env) : Prop :=
  ∀ count password, ∃ rounds draws,
    Security.crypt rounds draws password [] =
      .ok (env.cryptFresh count password)

theorem HashesPasswords.ne_nil
    {env : Env}
    (hashes : HashesPasswords env)
    (count : Nat)
    (password : Bytes) : env.cryptFresh count password ≠ [] := by
  obtain ⟨rounds, draws, made⟩ := hashes count password
  exact Security.crypt_fresh_ne_nil rounds draws password made

/-- Sessions and accounts agree at the start, when accounts have hashes and
different logins. -/
theorem accounted_start
    {rows : List Row}
    (hashed : ∀ row ∈ rows, row.password ≠ [])
    (distinct : DistinctLogins rows) :
    Accounted none (World.start rows).server.core where
  hashed := hashed
  distinct := distinct
  committed := rfl
  rivals _ _ _ _ _ pending :=
    absurd pending (Credentials.not_pending
      (show UserStage.new ≠ .loginPwd by decide)
      (show UserStage.new ≠ .loginReenterPwd by decide))
  accounts _ _ := .of_not_pending (Credentials.not_pending
    (show UserStage.new ≠ .loginPwd by decide)
    (show UserStage.new ≠ .loginReenterPwd by decide))
  stored _ loggedIn := absurd rfl loggedIn
  unique _ inside := absurd inside List.not_mem_nil

/-- Sessions and accounts agree in every state of a run in which the queries
for accounts work. -/
theorem accounted_after
    {env : Env}
    {rows : List Row}
    {events : List Event}
    (hashes : HashesPasswords env)
    (hashed : ∀ row ∈ rows, row.password ≠ [])
    (distinct : DistinctLogins rows)
    (works : ∀ handed ∈ handedIn (World.after env rows events).trace,
      Works env handed.user handed.line handed.core) :
    Accounted none (World.after env rows events).server.core :=
  ((accounted_invariant hashes.ne_nil).after
    (fun _ => accounted_start hashed distinct) events).2 works

/-- Two listed users that are logged in have different names. -/
def UniqueNames (core : Core) : Prop :=
  ∀ entry ∈ core.listUser, ∀ other ∈ core.listUser, entry.2 ≠ other.2 →
    (core.users entry.2).level ≠ .login →
      (core.users other.2).level ≠ .login →
        (core.users entry.2).name ≠ (core.users other.2).name

/-- When all queries work, and all accounts have been made by registrations,
the listed users that are logged in have different names in every state that
the server can reach. -/
theorem uniqueNames_after
    (env : Env)
    (events : List Event)
    (hashes : HashesPasswords env)
    (works : ∀ number, env.dbFails number = false) :
    UniqueNames (World.after env [] events).server.core :=
  (accounted_after hashes (fun _ inside => absurd inside List.not_mem_nil)
    List.Pairwise.nil fun _ _ =>
      ⟨fun _ => .inl (works _), fun _ => ⟨works _, works _⟩⟩).unique

/-- An environment in which `Blowfish::crypt` makes and checks the hashes, with
sample rounds and a fixed salt, and in which the queries with these numbers
fail. -/
def Env.hashing (failing : List Nat) : Env :=
  { Env.testing failing with
    crypt := fun password setting =>
      (Security.crypt Security.secretRounds (fun _ => 0) password
        setting).toOption.getD []
    cryptFresh := fun _ password =>
      Security.storedHash Security.secretRounds (fun _ => 0) password }

theorem hashesPasswords_hashing (failing : List Nat) :
    HashesPasswords (Env.hashing failing) :=
  fun _ password => ⟨Security.secretRounds, fun _ => 0,
    Security.crypt_registers Security.secretRounds (fun _ => 0) password
      (by decide +kernel)⟩

/-- Two clients want to be Ann, and the second one gets the name; meanwhile Bob
registers. -/
def annRivals : List Event :=
  [.accept, .accept, .accept, .packet 0 (lit "ann\r"),
    .packet 1 (lit "ann\rsecret\r"), .packet 0 (lit "secret\r"),
    .packet 2 (lit "bob\rsecret\rsecret\r\r"), .packet 1 (lit "secret\r\r"),
    .closeTask 0 false, .deleteProtocol 0]

/-- Only one of them is logged in as Ann. -/
theorem uniqueNames_ann :
    UniqueNames (World.after (Env.hashing []) [] annRivals).server.core :=
  uniqueNames_after (Env.hashing []) annRivals (hashesPasswords_hashing [])
    fun _ => rfl

/-- Every session that is logged in has the name of a committed account. -/
def LoginsStored (core : Core) : Prop :=
  ∀ user, (core.users user).level ≠ .login →
    ∃ row ∈ core.db.committed, iequals row.login (core.users user).name

/-- When the queries work that look for an account or add one, and no stored
hash is empty, no login is stored twice, and every session that is logged in
has a committed account. -/
theorem accounts_sound
    (env : Env)
    (rows : List Row)
    (events : List Event)
    (hashes : HashesPasswords env)
    (hashed : ∀ row ∈ rows, row.password ≠ [])
    (distinct : DistinctLogins rows)
    (works : ∀ handed ∈ handedIn (World.after env rows events).trace,
      Works env handed.user handed.line handed.core) :
    DistinctLogins (World.after env rows events).server.core.db.rows ∧
      LoginsStored (World.after env rows events).server.core := by
  have accounted := accounted_after hashes hashed distinct works
  refine ⟨accounted.distinct, fun user loggedIn => ?_⟩
  obtain ⟨row, found⟩ :=
    Option.ne_none_iff_exists'.mp (accounted.stored user loggedIn)
  obtain ⟨inside, same⟩ := Users.mem_of_lookup found
  refine ⟨row, ?_, same⟩
  rw [Users.committed, accounted.committed]
  exact inside

/-- Bob is stored once, though his transaction cannot be started. -/
theorem accounts_sound_bob :
    DistinctLogins
        (World.after (Env.hashing [3]) [] annRivals).server.core.db.rows ∧
      LoginsStored (World.after (Env.hashing [3]) [] annRivals).server.core :=
  accounts_sound (Env.hashing [3]) [] annRivals (hashesPasswords_hashing [3])
    (fun _ inside => absurd inside List.not_mem_nil) List.Pairwise.nil
    (by decide +kernel)

/-- A name whose account cannot be looked up is registered once more. -/
theorem login_stored_twice :
    ¬ ∀ env rows events, HashesPasswords env →
      (∀ row ∈ rows, row.password ≠ []) → DistinctLogins rows →
        DistinctLogins (World.after env rows events).server.core.db.rows ∧
          LoginsStored (World.after env rows events).server.core := by
  intro always
  have distinct := (always (Env.hashing [4]) []
    [.accept, .packet 0 (lit "ann\rsecret\rsecret\r"), .accept,
      .packet 1 (lit "ann\rsecret\rsecret\r")] (hashesPasswords_hashing [4])
    (fun _ inside => absurd inside List.not_mem_nil) List.Pairwise.nil).1
  exact absurd distinct (by decide +kernel)

end Network
end Lotospp
