import Lotospp.Common.Credentials
import Lotospp.Network.Invariant

/-!
# The credentials of the sessions in a run

A property of the credentials of single sessions that every permitted line
keeps holds of all sessions in every state of a run.  With it we settle which
names pass the name entry.
-/

namespace Lotospp
namespace Network

open Text Effect Common Commands

/-- A property of the credentials of a session that survives the end of the
negotiation and every line that is allowed. -/
structure CredentialInvariant
    (env : Env)
    (allowed : Handed → Prop)
    (inv : Credentials → Prop) : Prop where
  /-- It holds of users that have not been created. -/
  fresh : inv ⟨[], none, .login, .new⟩
  /-- It holds of new users. -/
  joins : inv ⟨[], none, .login, .loginId⟩
  /-- It survives the end of the negotiation. -/
  notices : ∀ {credentials}, inv credentials →
    inv { credentials with stage := .loginId }
  /-- It survives a line. -/
  line : ∀ {handed after}, allowed handed →
    Becomes env handed.user handed.line handed.core after →
      inv (handed.core.users handed.user).credentials → inv after

namespace CredentialInvariant

variable {env : Env} {allowed : Handed → Prop} {inv : Credentials → Prop}

/-- The property holds of all sessions. -/
def Everywhere (inv : Credentials → Prop) (core : Core) : Prop :=
  ∀ user, inv (core.users user).credentials

/-- As long as all lines are allowed, the property holds of all sessions. -/
theorem server
    (invariant : CredentialInvariant env allowed inv) :
    ServerInvariant env fun _ core past =>
      (∀ handed ∈ past, allowed handed) → Everywhere inv core where
  start _ _ _ := invariant.fresh
  closes connection _ holds lines user := by
    simpa using holds lines user
  shrinks := by
    intro core reached past _ shrinks holds lines user
    obtain ⟨alive, client, same, -⟩ := shrinks.users user
    rw [same]
    exact holds lines user
  joins := by
    intro core past connection autoId autoID _ _ _ holds lines user
    rw [users_joined]
    split
    · exact invariant.joins
    · exact holds lines user
  enters _ _ holds := holds
  leaves holds := holds
  negotiates := by
    intro core past me connection change _ changes holds lines user
    obtain ⟨cols, rows, type, flags, same, -⟩ := changes (core.users me)
    rw [Core.users_setUser]
    split
    · rw [same]
      exact holds lines me
    · exact holds lines user
  notices := by
    intro core past me connection _ _ holds lines user
    rw [Core.users_setUser]
    split
    · exact invariant.notices (holds lines me)
    · exact holds lines user
  edits := by
    rintro core reached past me connection _ ⟨textBuffer, tbpos, -, rfl⟩ holds
      lines user
    rw [Core.users_setUser]
    split
    · exact holds lines me
    · exact holds lines user
  line := by
    intro core past me connection line rest outcome session effect holds
    refine .of_after session effect ?_ fun lines user => ?_
    · intro before other found holds lines user
      rw [← credentials_takenOver found connection]
      exact holds lines user
    · have allowed : allowed
          { user := me, core := core, line := line, rest := rest } :=
        lines _ (by simp)
      have before := holds fun handed inside =>
        lines handed (List.mem_append_left _ inside)
      by_cases isMe : user = me
      · rw [isMe]
        exact invariant.line allowed effect.becomes (before me)
      · rw [effect.credentials_others isMe]
        exact before user

end CredentialInvariant

/-! ## Names -/

/-- A name as the name entry makes it: letters, the first one upper case and
the others lower case. -/
def ProperName (name : Bytes) : Prop :=
  minUsernameLen ≤ name.length ∧ name.length ≤ maxUsernameLen ∧
    (∃ first ∈ name.head?, isUpper first) ∧ ∀ byte ∈ name.tail, isLower byte

instance (name : Bytes) : Decidable (ProperName name) :=
  inferInstanceAs (Decidable (_ ∧ _ ∧ _ ∧ _))

/-- A session past the name entry, or logged in, has a proper name. -/
def Named (credentials : Credentials) : Prop :=
  ¬ credentials.stage.readsName ∨ credentials.level ≠ .login →
    ProperName credentials.name

/-- The line, if it is taken for a name, consists of letters. -/
def Lettered (env : Env) (handed : Handed) : Prop :=
  EntersName env handed.user handed.line handed.core →
    ∀ byte ∈ handed.line, isAlpha byte

instance (env : Env) (handed : Handed) : Decidable (Lettered env handed) :=
  inferInstanceAs (Decidable (_ → _))

theorem isUpper_toUpper
    {byte : UInt8}
    (letter : isAlpha byte) : isUpper (toUpper (toLower byte)) := by
  revert letter
  exact forall_byte
    (fun byte => isAlpha byte → isUpper (toUpper (toLower byte)))
    (by decide +kernel) byte

theorem isLower_toLower
    {byte : UInt8}
    (letter : isAlpha byte) : isLower (toLower byte) := by
  revert letter
  exact forall_byte (fun byte => isAlpha byte → isLower (toLower byte))
    (by decide +kernel) byte

theorem properName_length (line : Bytes) :
    (properName line).length = line.length := by
  cases line <;> simp [properName, toLowerCopy]

/-- A name of letters is made a proper name. -/
theorem properName_proper
    {line : Bytes}
    (long : minUsernameLen ≤ line.length)
    (short : line.length ≤ maxUsernameLen)
    (letters : ∀ byte ∈ line, isAlpha byte) : ProperName (properName line) := by
  rw [ProperName, properName_length]
  refine ⟨long, short, ?_⟩
  cases line with
  | nil => exact absurd long (by decide)
  | cons first rest =>
      refine ⟨⟨_, rfl, isUpper_toUpper (letters first (by simp))⟩,
        fun byte inside => ?_⟩
      obtain ⟨before, isRest, rfl⟩ := List.mem_map.mp inside
      exact isLower_toLower (letters before (List.mem_cons_of_mem _ isRest))

/-- A session that awaits a password is past the name entry. -/
theorem Named.proper
    {user : User}
    (named : Named user.credentials)
    (stage : user.stage = .loginPwd ∨ user.stage = .loginReenterPwd) :
    ProperName user.name := by
  refine named (.inl ?_)
  change ¬ user.stage.readsName
  rcases stage with stage | stage <;> (rw [stage]; decide)

/-- Lines of letters keep all names proper. -/
theorem named_invariant (env : Env) :
    CredentialInvariant env (Lettered env) Named where
  fresh := by simp [Named, UserStage.readsName]
  joins := by simp [Named, UserStage.readsName]
  notices named := fun past => named (.inr (past.resolve_left (not_not.mpr rfl)))
  line := by
    intro handed after letters becomes named
    cases becomes with
    | stays => exact named
    | retries fails =>
        rintro (past | level)
        · exact absurd rfl past
        · exact absurd fails.level level
    | names entered =>
        exact fun _ => properName_proper entered.2.1 entered.2.2
          (letters entered)
    | chooses chosen => exact fun _ => named.proper (.inl chosen.1.2)
    | throws right => exact fun _ => named.proper (.inl right.1.2)
    | admits right => exact fun _ => named.proper (.inl right.1.2)
    | confirms confirmed => exact fun _ => named.proper (.inr confirmed.1.2)
    | parses level => exact fun _ => named (.inr level)

/-- In every run whose name lines consist of letters, every session past the
name entry has a proper name: at the end, and whenever a line is handed
over. -/
theorem names_proper
    (env : Env)
    (rows : List Database.Row)
    (events : List Event)
    (letters : ∀ handed ∈ handedIn (World.after env rows events).trace,
      Lettered env handed) :
    (∀ user,
        ¬ ((World.after env rows events).server.core.users
            user).stage.readsName →
          ProperName ((World.after env rows events).server.core.users
            user).name) ∧
      ∀ handed ∈ handedIn (World.after env rows events).trace, ∀ user,
        ¬ (handed.core.users user).stage.readsName →
          ProperName (handed.core.users user).name := by
  obtain ⟨-, now, recorded⟩ :=
    (named_invariant env).server.recorded.after rows events
  refine ⟨fun user past => now letters user (.inl past),
    fun handed inside user past => ?_⟩
  obtain ⟨before, after, split⟩ := List.append_of_mem inside
  have earlier := (recorded before handed after split).2
  refine earlier (fun other isBefore => letters other ?_) user (.inl past)
  rw [split]
  exact List.mem_append_left _ isBefore

/-- Ann enters her name. -/
theorem names_proper_ann :
    ProperName ((World.after (Env.testing []) []
      [.accept, .packet 0 (lit "ann\r")]).server.core.users 0).name :=
  (names_proper (Env.testing []) [] [.accept, .packet 0 (lit "ann\r")]
    (by decide +kernel)).1 0 (by decide +kernel)

/-- A name with a digit is accepted after the messages that reject it. -/
theorem digit_accepted :
    ¬ ∀ env rows events user,
      ¬ ((World.after env rows events).server.core.users
          user).stage.readsName →
        ProperName ((World.after env rows events).server.core.users
          user).name := by
  intro always
  have proper := always (Env.testing []) []
    [.accept, .packet 0 (lit "ann1\r")] 0 (by decide +kernel)
  exact absurd proper (by decide +kernel)

end Network
end Lotospp
