import Lotospp.Common.Credentials
import Lotospp.Effect.Pointers

/-!
# The memory of the passwords

`User::password` is a pointer to a string that the session owns.  Here are the
allocations and the deletions that a line leads to, in the order in which
`User::login`, `User::attempt` and `IOUser::load` do them, and that the
strings are those of the state of the server.
-/

namespace Lotospp
namespace Common

open Text Effect Commands

/-- The strings that the password pointers of the users own. -/
abbrev Memory := Pointers Nat Bytes

/-- What a line does to the memory. -/
abbrev Memory.Outcome := Except PointerFault Memory

/-- The cached hashes of the users. -/
def Core.passwords (core : Core) (user : Nat) : Option Bytes :=
  (core.users user).password

/-! ## The code -/

/-- `User::attempt`. -/
def attemptMemory (me : Nat) (core : Core) (memory : Memory) :
    Memory.Outcome :=
  if ((core.counted me).users me).attempts = maxLoginAttempts then .ok memory
  else
    match memory.pointer me with
    | none => .ok memory
    | some _ => memory.release me

/-- The loop that rejects a name once for every character that is not a
letter. -/
def rejectMemory (me : Nat) :
    (inpstr : Bytes) → (core : Core) → (memory : Memory) → Memory.Outcome
  | [], _, memory => .ok memory
  | byte :: rest, core, memory =>
      if ¬ isAlpha byte then do
        let memory ← attemptMemory me core memory
        rejectMemory me rest (core.attempted me) memory
      else rejectMemory me rest core memory

/-- `IOUser::load`. -/
def loadMemory
    (env : Env)
    (me : Nat)
    (userName : Bytes)
    (core : Core)
    (memory : Memory) : Memory.Outcome :=
  match (core.db.select env.dbFails userName).1 with
  | none => .ok memory
  | some row =>
      match memory.pointer me with
      | some _ => memory.assign me row.password
      | none => .ok (memory.new me row.password)

/-- `User::login` in the stages that read a name. -/
def nameMemory
    (env : Env)
    (me : Nat)
    (inpstr : Bytes)
    (core : Core)
    (memory : Memory) : Memory.Outcome :=
  let command := LoginCom.search env.loginComEnd inpstr
  if command = LoginCom.quit then .ok memory
  else if command = LoginCom.who ∨ command = LoginCom.version then .ok memory
  else if inpstr.length < minUsernameLen ∨ inpstr.length > maxUsernameLen then
    attemptMemory me core memory
  else do
    let memory ← rejectMemory me inpstr core memory
    loadMemory env me inpstr (core.rejected me inpstr) memory

/-- `User::login` in the stage `UserStage_LOGIN_PWD`. -/
def pwdMemory
    (env : Env)
    (me : Nat)
    (inpstr : Bytes)
    (core : Core)
    (memory : Memory) : Memory.Outcome :=
  if inpstr.length < minPasswordLen then attemptMemory me core memory
  else
    match memory.pointer me with
    | none => .ok (memory.new me (env.cryptFresh core.salts inpstr))
    | some _ => do
        match ← memory.read me with
        | [] => .ok (memory.new me (env.cryptFresh core.salts inpstr))
        | password =>
            if password = env.crypt inpstr password then do
              let memory ← loadMemory env me (core.users me).name core memory
              match (loadOutcome env me (core.users me).name false core).1 with
              | .error _ => .ok memory
              | .ok _ => memory.release me
            else attemptMemory me core memory

/-- `User::login` in the stage `UserStage_LOGIN_REENTER_PWD`; the password is
read to compare it, and then by `IOUser::create`. -/
def reenterMemory
    (env : Env)
    (me : Nat)
    (inpstr : Bytes)
    (core : Core)
    (memory : Memory) : Memory.Outcome := do
  let password ← memory.read me
  if password = env.crypt inpstr password then
    match (core.users me).client with
    | none => .ok memory
    | some _ => do
        let _ ← memory.read me
        memory.release me
  else attemptMemory me core memory

/-- `User::login`. -/
def loginMemory
    (env : Env)
    (me : Nat)
    (inpstr : Bytes)
    (core : Core)
    (memory : Memory) : Memory.Outcome :=
  match (core.users me).stage with
  | .new | .loginId | .loginName => nameMemory env me inpstr core memory
  | .loginPwd => pwdMemory env me inpstr core memory
  | .loginReenterPwd => reenterMemory env me inpstr core memory
  | _ => .ok memory

/-- A line; `User::parseLine` does not use the password. -/
def lineMemory
    (env : Env)
    (memory : Memory)
    (handed : Handed) : Memory.Outcome :=
  if (handed.core.users handed.user).level = .login then
    loginMemory env handed.user handed.line handed.core memory
  else .ok memory

/-- The memory after some lines, unless there has been a fault. -/
def memoryAfter (env : Env) (past : List Handed) : Memory.Outcome :=
  past.foldlM (lineMemory env) {}

/-! ## The strings are those of the state -/

section Strings

variable {env : Env} {me : Nat} {core reached : Core} {memory : Memory}

/-- What concerns one session changes one password at most. -/
theorem Core.passwords_of_local
    (stays : core.Local reached me) :
    reached.passwords =
      Function.update core.passwords me (reached.users me).password := by
  funext user
  rw [Function.update_apply]
  split
  · next isMe => rw [isMe, Core.passwords]
  · next isOther => rw [Core.passwords, stays.others user isOther, Core.passwords]

/-- The own password has changed, or it has not. -/
theorem Core.passwords_of_eq
    (stays : core.Local reached me)
    (same : (reached.users me).password = (core.users me).password) :
    reached.passwords = core.passwords := by
  rw [Core.passwords_of_local stays, same]
  exact Function.update_eq_self ..

theorem attemptMemory_leads (holds : memory.Holds core.passwords) :
    Pointers.Leads (attemptMemory me core memory)
      (core.attempted me).passwords := by
  have stays := Core.Local.attempted core me
  have own := congrArg Credentials.password (credentials_attempted me core)
  have attempts : ((core.counted me).users me).attempts =
      ((core.users me).attempts + 1) % 2 ^ 8 := by
    simp [Core.counted]
  rw [attemptMemory, attempts]
  split
  · next isLast =>
      rw [if_pos isLast] at own
      rw [Core.passwords_of_eq stays own]
      exact ⟨memory, rfl, holds⟩
  · next isLast =>
      rw [if_neg isLast] at own
      rw [Core.passwords_of_local stays]
      change (((core.attempted me).users me).password) = none at own
      rw [own]
      split
      · next null =>
          refine ⟨memory, rfl, ?_⟩
          have none := holds.null null
          rw [← none, Function.update_eq_self]
          exact holds
      · exact holds.release me

theorem rejectMemory_leads
    (inpstr : Bytes)
    (holds : memory.Holds core.passwords) :
    Pointers.Leads (rejectMemory me inpstr core memory)
      (core.rejected me inpstr).passwords := by
  induction inpstr generalizing core memory with
  | nil => exact ⟨memory, rfl, holds⟩
  | cons byte rest inductionHypothesis =>
      rw [rejectMemory, Core.rejected, List.foldl_cons]
      split
      · exact (attemptMemory_leads holds).bind fun _ holds =>
          inductionHypothesis holds
      · exact inductionHypothesis holds

/-- The password of the account that is loaded, if it is found. -/
theorem password_load
    (env : Env)
    (me : Nat)
    (userName : Bytes)
    (preload : Bool)
    (core : Core) :
    ((loadOutcome env me userName preload core).2.users me).password =
      match (core.db.select env.dbFails userName).1 with
      | none => (core.users me).password
      | some row => some row.password := by
  unfold loadOutcome
  simp only
  cases (core.db.select env.dbFails userName).1 with
  | none => rfl
  | some row =>
      simp only
      split
      · simp [Core.copied]
      · split <;> simp [Core.copied]

theorem passwords_load
    (env : Env)
    (me : Nat)
    (userName : Bytes)
    (preload : Bool)
    (core : Core) :
    (loadOutcome env me userName preload core).2.passwords =
      Function.update core.passwords me
        (match (core.db.select env.dbFails userName).1 with
          | none => (core.users me).password
          | some row => some row.password) := by
  rw [Core.passwords_of_local (.load env me userName preload core),
    password_load]

theorem loadMemory_leads
    (env : Env)
    (me : Nat)
    (userName : Bytes)
    (holds : memory.Holds core.passwords) :
    Pointers.Leads (loadMemory env me userName core memory)
      (Function.update core.passwords me
        (match (core.db.select env.dbFails userName).1 with
          | none => (core.users me).password
          | some row => some row.password)) := by
  rw [loadMemory]
  cases (core.db.select env.dbFails userName).1 with
  | none =>
      refine ⟨memory, rfl, ?_⟩
      change memory.Holds (Function.update core.passwords me
        (core.passwords me))
      rwa [Function.update_eq_self]
  | some row =>
      simp only
      cases pointer : memory.pointer me with
      | none => exact ⟨_, rfl, holds.new me row.password⟩
      | some address =>
          apply holds.assign
          rw [Ne, ← holds.null_iff, pointer]
          simp

theorem nameMemory_leads
    (inpstr : Bytes)
    (holds : memory.Holds core.passwords) :
    Pointers.Leads (nameMemory env me inpstr core memory)
      (nameOutcome env me inpstr core).2.passwords := by
  rw [nameMemory, nameOutcome]
  split
  · exact ⟨memory, rfl, holds⟩
  split
  · exact ⟨memory, rfl, holds⟩
  split
  · exact attemptMemory_leads holds
  · have own := congrArg Credentials.password
      (credentials_named env me inpstr core)
    have others := (Core.Local.rejected core me inpstr).others
    have stays := Core.Local.named env me inpstr core
    refine (rejectMemory_leads inpstr holds).bind fun memory holds => ?_
    have leads := loadMemory_leads env me inpstr holds
    convert leads using 1
    rw [Core.passwords_of_local stays]
    funext user
    simp only [Function.update_apply]
    split
    · refine own.trans ?_
      cases ((core.rejected me inpstr).db.select env.dbFails inpstr).1 <;> rfl
    · next isOther =>
        exact (congrArg User.password (others user isOther)).symm

/-- A password is chosen, in another object than before. -/
theorem chosen_leads
    (env : Env)
    (inpstr : Bytes)
    (holds : memory.Holds core.passwords) :
    Pointers.Leads (.ok (memory.new me (env.cryptFresh core.salts inpstr)))
      (core.chosen env me inpstr).passwords := by
  have own : ((core.chosen env me inpstr).users me).password =
      some (env.cryptFresh core.salts inpstr) :=
    congrArg Credentials.password (credentials_chosen env me inpstr core)
  rw [Core.passwords_of_local (.chosen env me inpstr core), own]
  exact ⟨_, rfl, holds.new me _⟩

/-- The password is deleted once the account has been loaded. -/
theorem admitted_leads (holds : memory.Holds core.passwords) :
    Pointers.Leads (memory.release me)
      (connectOutcome me (core.admitted me)).2.passwords := by
  have own : ((core.admitted me).users me).password = none :=
    congrArg Credentials.password (credentials_admitted me core)
  have connected : (connectOutcome me (core.admitted me)).2.passwords =
      (core.admitted me).passwords := by
    funext user
    exact congrArg Credentials.password (credentials_connected me user _)
  rw [connected, Core.passwords_of_local (.admitted core me), own]
  exact holds.release me

theorem pwdMemory_leads
    (inpstr : Bytes)
    (holds : memory.Holds core.passwords) :
    Pointers.Leads (pwdMemory env me inpstr core memory)
      (pwdOutcome env me inpstr core).2.passwords := by
  rw [pwdMemory, pwdOutcome]
  split
  · exact attemptMemory_leads holds
  cases known : (core.users me).password with
  | none =>
      rw [holds.null_iff.mpr known]
      exact chosen_leads env inpstr holds
  | some password =>
      obtain ⟨address, pointer, -⟩ := holds.owned known
      rw [pointer]
      refine holds.reads known ?_
      cases password with
      | nil => exact chosen_leads env inpstr holds
      | cons first rest =>
          simp only
          split
          · have loads := loadMemory_leads env me (core.users me).name holds
            rw [← passwords_load env me (core.users me).name false core] at loads
            refine loads.bind fun memory holds => ?_
            generalize loadOutcome env me (core.users me).name false core =
              loaded at holds
            obtain ⟨abort | value, reached⟩ := loaded
            · exact ⟨memory, rfl, holds⟩
            · exact admitted_leads holds
          · exact attemptMemory_leads holds

/-- The confirmation reads a password that is there. -/
theorem reenterMemory_leads
    (inpstr : Bytes)
    (chosen : (core.users me).password ≠ none)
    (holds : memory.Holds core.passwords) :
    Pointers.Leads (reenterMemory env me inpstr core memory)
      (reenterOutcome env me inpstr core).2.passwords := by
  obtain ⟨password, known⟩ := Option.ne_none_iff_exists'.mp chosen
  rw [reenterMemory, reenterOutcome, known]
  refine holds.reads known ?_
  simp only
  split
  · cases (core.users me).client with
    | none => exact ⟨memory, rfl, holds⟩
    | some protocol =>
        refine holds.reads known ?_
        simp only
        generalize createOutcome env.dbFails (core.users me).name password
          UserLevel.novice.value.toNat core.db = created
        have own : ((core.registered me created.1 created.2).users
            me).password = none :=
          congrArg Credentials.password (credentials_registered me core _ _)
        rw [Core.passwords_of_local (.registered ..), own]
        exact holds.release me
  · exact attemptMemory_leads holds

theorem loginMemory_leads
    (inpstr : Bytes)
    (chosen : (core.users me).stage = .loginReenterPwd →
      (core.users me).password ≠ none)
    (holds : memory.Holds core.passwords) :
    Pointers.Leads (loginMemory env me inpstr core memory)
      (loginOutcome env me inpstr core).2.passwords := by
  unfold loginMemory loginOutcome
  cases stage : (core.users me).stage with
  | new | loginId | loginName => exact nameMemory_leads inpstr holds
  | loginPwd => exact pwdMemory_leads inpstr holds
  | loginReenterPwd => exact reenterMemory_leads inpstr (chosen stage) holds
  | _ => exact ⟨memory, rfl, holds⟩

/-- A line keeps the memory in order, if a session that is to confirm its
password has one. -/
theorem lineMemory_leads
    {handed : Handed}
    (chosen : (handed.core.users handed.user).stage = .loginReenterPwd →
      (handed.core.users handed.user).password ≠ none)
    (holds : memory.Holds handed.core.passwords) :
    Pointers.Leads (lineMemory env memory handed)
      (lineOutcome env handed.user handed.line handed.core).2.passwords := by
  rw [lineMemory, lineOutcome]
  split
  · exact loginMemory_leads handed.line chosen holds
  · have parsed : (parseOutcome handed.user handed.core).2.passwords =
        handed.core.passwords :=
      Core.passwords_of_eq (.parsed handed.user handed.core)
        (congrArg Credentials.password (credentials_parsed ..))
    rw [parsed]
    exact ⟨memory, rfl, holds⟩

/-- One line more keeps the memory in order. -/
theorem memoryAfter_leads
    {past : List Handed}
    {handed : Handed}
    (chosen : (handed.core.users handed.user).stage = .loginReenterPwd →
      (handed.core.users handed.user).password ≠ none)
    (leads : Pointers.Leads (memoryAfter env past) handed.core.passwords) :
    Pointers.Leads (memoryAfter env (past ++ [handed]))
      (lineOutcome env handed.user handed.line handed.core).2.passwords := by
  have last : memoryAfter env (past ++ [handed]) =
      memoryAfter env past >>= fun memory => lineMemory env memory handed := by
    rw [memoryAfter, List.foldlM_append]
    simp only [List.foldlM_cons, List.foldlM_nil, bind_pure]
    rfl
  rw [last]
  exact leads.bind fun _ holds => lineMemory_leads chosen holds

end Strings

end Common
end Lotospp
