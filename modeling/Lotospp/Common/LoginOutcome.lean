import Lotospp.Common.Follows

/-!
# The outcomes of logging in

What `User::login` does to the state of the server, as functions on the state
without output, and that the code has these outcomes.
-/

namespace Lotospp
namespace Common

open Text Effect

namespace Core

/-- What `User::kick` does. -/
def kicked (core : Core) (me : Nat) : Core :=
  match (core.users me).client with
  | none => core
  | some protocol =>
      if (core.protocols protocol).user = none then core
      else if (core.protocols protocol).connected then
        core.closeConnection protocol
      else core

/-- What `User::disconnect` does. -/
def disconnected (core : Core) (me : Nat) : Core :=
  match (core.users me).client with
  | none => core
  | some protocol =>
      if (core.protocols protocol).connected then
        core.closeConnection protocol
      else core

/-- An attempt is counted. -/
def counted (core : Core) (me : Nat) : Core :=
  core.setUser me fun user =>
    { user with attempts := (user.attempts + 1) % 2 ^ 8 }

/-- What `User::attempt` does. -/
def attempted (core : Core) (me : Nat) : Core :=
  let core := core.counted me
  if (core.users me).attempts = maxLoginAttempts then
    (core.kicked me).removeList me
  else
    core.setUser me fun user =>
      { user with stage := .loginName, password := none }

/-- A name is rejected once for every character that is not a letter. -/
def rejected (core : Core) (me : Nat) (inpstr : Bytes) : Core :=
  inpstr.foldl
    (fun core byte => if ¬ isAlpha byte then core.attempted me else core) core

/-- What survives a failed attempt survives the rejection of a name. -/
theorem rejected_intro
    {core : Core}
    {me : Nat}
    {inpstr : Bytes}
    {inv : Core → Prop}
    (start : inv core)
    (attempts : ∀ now, inv now → inv (now.attempted me)) :
    inv (core.rejected me inpstr) := by
  refine List.foldlRecOn inpstr _ start fun now holds byte _ => ?_
  split
  · exact attempts now holds
  · exact holds

/-- The session of the other user hangs in the login under this name. -/
def Hangs (core : Core) (me : Nat) (name : Bytes) (other : Nat) : Prop :=
  (core.users other).level = .login ∧ other ≠ me ∧
    iequals (core.users other).name name

instance (core : Core) (me : Nat) (name : Bytes) (other : Nat) :
    Decidable (core.Hangs me name other) :=
  inferInstanceAs (Decidable (_ ∧ _ ∧ _))

/-- The sessions that hang in a login under the same name are kicked. -/
def cleared (core : Core) (me : Nat) : Core :=
  (core.listUser.map Prod.snd).foldl
    (fun now other =>
      if now.Hangs me (core.users me).name other then now.kicked other
      else now) core

/-- What survives the kicking of those who hang survives the clearing. -/
theorem cleared_intro
    {core : Core}
    {me : Nat}
    {inv : Core → Prop}
    (start : inv core)
    (kicks : ∀ now other, other ∈ core.listUser.map Prod.snd →
      now.Hangs me (core.users me).name other → inv now →
        inv (now.kicked other)) :
    inv (core.cleared me) := by
  refine List.foldlRecOn _ _ start fun now holds other inside => ?_
  split
  · rename_i hangs
    exact kicks now other inside hangs holds
  · exact holds

/-- The row of an account is copied to the user. -/
def copied (core : Core) (me : Nat) (row : Database.Row) : Core :=
  core.setUser me fun user =>
    { user with guid := row.id, password := some row.password }

end Core

/-- What `IOUser::load` does. -/
def loadOutcome
    (env : Env)
    (me : Nat)
    (userName : Bytes)
    (preload : Bool)
    (core : Core) : Except Abort Bool × Core :=
  let answer := core.db.select env.dbFails userName
  let core := { core with db := answer.2 }
  match answer.1 with
  | none => (.ok false, core)
  | some row =>
      if preload then (.ok true, core.copied me row)
      else
        match fromInteger UserLevel.table env.userLevelEnd row.level with
        | none => (.error .enumConversion, core.copied me row)
        | some level =>
            (.ok true, (core.copied me row).setUser me fun user =>
              { user with level := ⟨level⟩ })

/-- What holds once the account has been asked for, and survives the changes
that its row makes, holds after a load. -/
theorem loadOutcome_intro
    {env : Env}
    {me : Nat}
    {userName : Bytes}
    {preload : Bool}
    {core : Core}
    {inv : Core → Prop}
    (asked : inv { core with db := (core.db.select env.dbFails userName).2 })
    (copied : ∀ now row, inv now → inv (now.copied me row))
    (levelled : ∀ now level, inv now →
      inv (now.setUser me fun user => { user with level := level })) :
    inv (loadOutcome env me userName preload core).2 := by
  unfold loadOutcome
  simp only
  split
  · exact asked
  · rename_i row _
    have afterRow := copied _ row asked
    split
    · exact afterRow
    · split
      · exact afterRow
      · exact levelled _ _ afterRow

namespace Core

/-- A name has been entered. -/
def named (core : Core) (env : Env) (me : Nat) (inpstr : Bytes) : Core :=
  let core := core.rejected me inpstr
  let core := core.setUser me fun user =>
    { user with name := properName inpstr }
  let core := core.cleared me
  (loadOutcome env me inpstr true core).2.setUser me fun user =>
    { user with level := .login, stage := .loginPwd }

/-- A password has been chosen for a new account. -/
def chosen (core : Core) (env : Env) (me : Nat) (inpstr : Bytes) : Core :=
  let drawn := { core.setUser me fun user =>
      { user with password := some (env.cryptFresh core.salts inpstr) } with
    salts := core.salts + 1 }
  drawn.setUser me fun user => { user with stage := .loginReenterPwd }

/-- The other listed user with exactly the name of this one. -/
def findSession (core : Core) (me : Nat) : Option Nat :=
  (core.listUser.map Prod.snd).find? fun other =>
    other ≠ me ∧ (core.users me).name = (core.users other).name

/-- The session of another user has been taken over. -/
def takenOver (core : Core) (me other protocol : Nat) : Core :=
  let core := core.disconnected other
  let core := core.setProtocol protocol fun protocol =>
    { protocol with user := some other }
  let core := core.setUser other fun user =>
    { user with client := some protocol }
  let core := core.setUser me fun user => { user with client := none }
  core.removeList me

/-- The password was right. -/
def admitted (core : Core) (me : Nat) : Core :=
  core.setUser me fun user => { user with password := none, stage := .cmdLine }

/-- A new account has been confirmed, and the database is left like this. -/
def registered (core : Core) (me : Nat) (guid : Nat) (db : Database.Users) :
    Core :=
  let created := { core.setUser me fun user =>
      { user with level := .novice } with
    db := db }
  let kept := created.setUser me fun user =>
    { user with guid := guid % 2 ^ 32, password := none }
  kept.setUser me fun user => { user with stage := .loginPrompt }

end Core

/-- What `User::uConnect` does. -/
def connectOutcome (me : Nat) (core : Core) : Except Abort Unit × Core :=
  match core.findSession me with
  | none => (.ok (), core)
  | some other =>
      match (core.users me).client with
      | none => (.error .nullPointer, core.disconnected other)
      | some protocol =>
          (.error (.stage .swapped), core.takenOver me other protocol)

/-- What the queries of `IOUser::create` answer and do. -/
def createOutcome
    (fails : Nat → Bool)
    (login password : Bytes)
    (level : Nat)
    (db : Database.Users) : Nat × Database.Users :=
  let begun := db.beginTransaction fails
  let inserted := begun.2.insert fails login password level
  if inserted.1 then
    let committed := inserted.2.commit fails
    (if committed.1 then inserted.2.nextId - 1 else 0, committed.2)
  else (0, (inserted.2.rollback fails).2)

/-- What `User::login` does with a name. -/
def nameOutcome (env : Env) (me : Nat) (inpstr : Bytes) (core : Core) :
    Except Abort Unit × Core :=
  let command := LoginCom.search env.loginComEnd inpstr
  if command = LoginCom.quit then (.error (.stage .disconnect), core)
  else if command = LoginCom.who ∨ command = LoginCom.version then
    (.ok (), core)
  else if inpstr.length < minUsernameLen ∨ inpstr.length > maxUsernameLen then
    (.ok (), core.attempted me)
  else (.ok (), core.named env me inpstr)

/-- What `User::login` does with a password. -/
def pwdOutcome (env : Env) (me : Nat) (inpstr : Bytes) (core : Core) :
    Except Abort Unit × Core :=
  if inpstr.length < minPasswordLen then (.ok (), core.attempted me)
  else
    match (core.users me).password with
    | none | some [] => (.ok (), core.chosen env me inpstr)
    | some password =>
        if password = env.crypt inpstr password then
          match loadOutcome env me (core.users me).name false core with
          | (.error abort, core) => (.error abort, core)
          | (.ok _, core) => connectOutcome me (core.admitted me)
        else (.ok (), core.attempted me)

/-- What `User::login` does with the confirmation of a password. -/
def reenterOutcome (env : Env) (me : Nat) (inpstr : Bytes) (core : Core) :
    Except Abort Unit × Core :=
  match (core.users me).password with
  | none => (.error .nullPointer, core)
  | some password =>
      if password = env.crypt inpstr password then
        match (core.users me).client with
        | none => (.error .nullPointer, core)
        | some _ =>
            let created :=
              createOutcome env.dbFails (core.users me).name password
                UserLevel.novice.value.toNat core.db
            (.ok (), core.registered me created.1 created.2)
      else (.ok (), core.attempted me)

/-- What `User::login` does. -/
def loginOutcome (env : Env) (me : Nat) (inpstr : Bytes) (core : Core) :
    Except Abort Unit × Core :=
  match (core.users me).stage with
  | .new | .loginId | .loginName => nameOutcome env me inpstr core
  | .loginPwd => pwdOutcome env me inpstr core
  | .loginReenterPwd => reenterOutcome env me inpstr core
  | _ => (.ok (), core)

/-! ## The code has these outcomes -/

namespace Runs

theorem logout (core : Core) (protocol : Nat) :
    Runs (Common.logout protocol) core
      (.ok (),
        if (core.protocols protocol).user = none then core
        else if (core.protocols protocol).connected then
          core.closeConnection protocol
        else core) := by
  apply get_bind
  split
  · exact pure_intro () core
  · split
    · exact ⟨[.kicked protocol], rfl, .closeConnection (by simp)⟩
    · exact pure_intro () core

theorem kick (core : Core) (me : Nat) :
    Runs (Common.kick me) core (.ok (), core.kicked me) := by
  apply user_bind
  unfold Core.kicked
  cases (core.users me).client with
  | none => exact pure_intro () core
  | some protocol => exact logout core protocol

theorem removeList (core : Core) (me : Nat) :
    Runs (Common.removeList me) core (.ok (), core.removeList me) :=
  modify (.removeList core me)

theorem disconnect (core : Core) (me : Nat) :
    Runs (Common.disconnect me) core (.ok (), core.disconnected me) := by
  apply get_bind
  unfold Core.disconnected
  cases (core.users me).client with
  | none => exact pure_intro () core
  | some protocol =>
      exact when fun _ => modify (.closeConnection (by simp))

theorem attempt (core : Core) (me : Nat) :
    Runs (Common.attempt me) core (.ok (), core.attempted me) := by
  refine update_bind (fun _ => rfl) (user_bind ?_)
  unfold Core.attempted Core.counted
  simp only
  split
  · refine bind (uPrintf _ me _) (bind (kick _ me) ?_)
    exact removeList _ me
  · exact update fun _ => by rfl

/-- A loop over a list folds the outcomes of its turns. -/
theorem forEach
    {α : Type}
    (inv : Core → Prop)
    {list : List α}
    {body : α → CoreM Unit}
    {turn : Core → α → Core}
    (step : ∀ element ∈ list, ∀ core, inv core →
      Runs (body element) core (.ok (), turn core element) ∧
        inv (turn core element))
    {core : Core}
    (start : inv core) :
    Runs (Prog.forEach list body) core (.ok (), list.foldl turn core) := by
  induction list generalizing core with
  | nil => exact pure_intro () core
  | cons element rest inductionHypothesis =>
      obtain ⟨ran, holds⟩ := step element (List.mem_cons_self ..) core start
      refine bind ran (inductionHypothesis ?_ holds)
      intro other inside
      exact step other (List.mem_cons_of_mem _ inside)

theorem rejectLetters (core : Core) (me : Nat) (inpstr : Bytes) :
    Runs (Common.rejectLetters me inpstr) core
      (.ok (), core.rejected me inpstr) := by
  refine forEach (fun _ => True) ?_ trivial
  intro byte _ core _
  refine ⟨when fun _ => ?_, trivial⟩
  exact bind (uPrintf core me _) (attempt core me)

end Runs

/-- Kicking changes nothing but connections. -/
theorem Core.kicked_eq (core : Core) (me : Nat) :
    ∃ connections, core.kicked me = { core with connections := connections } := by
  unfold Core.kicked
  split
  · exact ⟨core.connections, rfl⟩
  · split
    · exact ⟨core.connections, rfl⟩
    · split
      · exact core.closeConnection_eq _
      · exact ⟨core.connections, rfl⟩

/-- Disconnecting changes nothing but connections. -/
theorem Core.disconnected_eq (core : Core) (me : Nat) :
    ∃ connections, core.disconnected me =
      { core with connections := connections } := by
  unfold Core.disconnected
  split
  · exact ⟨core.connections, rfl⟩
  · split
    · exact core.closeConnection_eq _
    · exact ⟨core.connections, rfl⟩

/-- Clearing the sessions that hang changes nothing but connections. -/
theorem Core.cleared_eq (core : Core) (me : Nat) :
    ∃ connections, core.cleared me =
      { core with connections := connections } := by
  apply @Core.cleared_intro core me fun now =>
    ∃ connections, now = { core with connections := connections }
  · exact ⟨core.connections, rfl⟩
  · rintro now other - - ⟨connections, rfl⟩
    exact Core.kicked_eq { core with connections := connections } other

section ConnectionsOnly

variable (core : Core) (me : Nat)

@[simp] theorem Core.users_kicked : (core.kicked me).users = core.users := by
  obtain ⟨connections, eq⟩ := core.kicked_eq me
  rw [eq]

@[simp] theorem Core.listUser_kicked :
    (core.kicked me).listUser = core.listUser := by
  obtain ⟨connections, eq⟩ := core.kicked_eq me
  rw [eq]

@[simp] theorem Core.protocols_kicked :
    (core.kicked me).protocols = core.protocols := by
  obtain ⟨connections, eq⟩ := core.kicked_eq me
  rw [eq]

@[simp] theorem Core.db_kicked : (core.kicked me).db = core.db := by
  obtain ⟨connections, eq⟩ := core.kicked_eq me
  rw [eq]

@[simp] theorem Core.users_disconnected :
    (core.disconnected me).users = core.users := by
  obtain ⟨connections, eq⟩ := core.disconnected_eq me
  rw [eq]

@[simp] theorem Core.listUser_disconnected :
    (core.disconnected me).listUser = core.listUser := by
  obtain ⟨connections, eq⟩ := core.disconnected_eq me
  rw [eq]

@[simp] theorem Core.protocols_disconnected :
    (core.disconnected me).protocols = core.protocols := by
  obtain ⟨connections, eq⟩ := core.disconnected_eq me
  rw [eq]

@[simp] theorem Core.db_disconnected :
    (core.disconnected me).db = core.db := by
  obtain ⟨connections, eq⟩ := core.disconnected_eq me
  rw [eq]

@[simp] theorem Core.users_cleared : (core.cleared me).users = core.users := by
  obtain ⟨connections, eq⟩ := core.cleared_eq me
  rw [eq]

@[simp] theorem Core.listUser_cleared :
    (core.cleared me).listUser = core.listUser := by
  obtain ⟨connections, eq⟩ := core.cleared_eq me
  rw [eq]

@[simp] theorem Core.protocols_cleared :
    (core.cleared me).protocols = core.protocols := by
  obtain ⟨connections, eq⟩ := core.cleared_eq me
  rw [eq]

@[simp] theorem Core.db_cleared : (core.cleared me).db = core.db := by
  obtain ⟨connections, eq⟩ := core.cleared_eq me
  rw [eq]

end ConnectionsOnly

namespace Runs

theorem clearSessions (core : Core) (me : Nat) :
    Runs (Common.clearSessions me) core (.ok (), core.cleared me) := by
  refine get_bind (forEach
    (fun now => now.users = core.users ∧ now.listUser = core.listUser)
    ?_ ⟨rfl, rfl⟩)
  rintro other inside now ⟨users, listUser⟩
  obtain ⟨entry, listed, rfl⟩ := List.mem_map.mp inside
  refine ⟨bind (deref fun good => ?_) (when fun _ => kick now entry.2), ?_⟩
  · exact good.alive entry (listUser ▸ listed)
  · split
    · simp [users, listUser]
    · exact ⟨users, listUser⟩

theorem query
    {α : Type}
    (run : Database.Users → α × Database.Users)
    (core : Core) :
    Runs (Common.query run) core
      (.ok (run core.db).1, { core with db := (run core.db).2 }) :=
  ⟨[], rfl, .setDb core _⟩

theorem load
    (env : Env)
    (me : Nat)
    (userName : Bytes)
    (preload : Bool)
    (core : Core) :
    Runs (Common.load env me userName preload) core
      (loadOutcome env me userName preload core) := by
  unfold Common.load loadOutcome
  apply bind (query _ core)
  simp only
  cases (core.db.select env.dbFails userName).1 with
  | none => exact pure_intro false _
  | some row =>
      refine update_bind (fun _ => rfl) ?_
      simp only
      split
      · exact pure_intro true _
      · cases fromInteger UserLevel.table env.userLevelEnd row.level with
        | none => exact raise_intro _ _
        | some level =>
            exact update_bind (fun _ => rfl) (pure_intro true _)

/-- A load that only looks for the password does not abort. -/
theorem loadOutcome_preload
    (env : Env)
    (me : Nat)
    (userName : Bytes)
    (core : Core) :
    ∃ loaded, (loadOutcome env me userName true core).1 = .ok loaded := by
  unfold loadOutcome
  simp only [if_true]
  split
  · exact ⟨false, rfl⟩
  · exact ⟨true, rfl⟩

theorem create
    (env : Env)
    (me : Nat)
    {core : Core}
    {password : Bytes}
    (cached : (core.users me).password = some password) :
    Runs (Common.create env me) core
      (.ok (createOutcome env.dbFails (core.users me).name password
          (core.users me).level.value.toNat core.db).1,
        { core with db :=
          (createOutcome env.dbFails (core.users me).name password
            (core.users me).level.value.toNat core.db).2 }) := by
  unfold Common.create createOutcome
  refine bind (query _ core) (user_bind ?_)
  simp only [cached]
  apply bind (query _ _)
  simp only
  split
  · refine get_bind (bind (query _ _) ?_)
    simp only
    split
    · exact pure_intro _ _
    · exact pure_intro _ _
  · exact bind (query _ _) (pure_intro _ _)

end Runs

/-- Every user of the list is among the listed users. -/
theorem Core.Safe.alive_of_mem
    {core : Core}
    (good : core.Safe)
    {other : Nat}
    (listed : other ∈ core.listUser.map Prod.snd) :
    (core.users other).alive := by
  obtain ⟨entry, inside, rfl⟩ := List.mem_map.mp listed
  exact good.alive entry inside

namespace Runs

theorem findSame
    {core : Core}
    {me : Nat}
    {list : List (Nat × Nat)}
    (listed : ∀ entry ∈ list, entry ∈ core.listUser) :
    Runs (Common.findSame me (core.users me).name list) core
      (.ok ((list.map Prod.snd).find? fun other =>
        other ≠ me ∧ (core.users me).name = (core.users other).name),
        core) := by
  induction list with
  | nil => exact pure_intro none core
  | cons entry rest inductionHypothesis =>
      have later := inductionHypothesis fun other inside =>
        listed other (List.mem_cons_of_mem _ inside)
      unfold Common.findSame
      rw [List.map_cons, List.find?_cons]
      by_cases isMe : entry.2 = me
      · simpa [isMe] using later
      · simp only [isMe, if_false, ne_eq, not_false_eq_true, true_and]
        refine bind (deref fun good =>
          good.alive entry (listed entry (List.mem_cons_self ..))) ?_
        by_cases same : (core.users me).name = (core.users entry.2).name
        · simpa [same] using pure_intro (some entry.2) core
        · simpa [same] using later

end Runs

namespace Follows

/-- A takeover, once the old session is disconnected. -/
theorem takenOver
    (core : Core)
    {me protocol : Nat}
    (client : (core.users me).client = some protocol)
    (other : Nat) :
    Follows (core.disconnected other) []
      (core.takenOver me other protocol) := by
  have usersClosed := core.users_disconnected other
  refine trans (setProtocolUser _ protocol (some other))
    (trans (setClient _ other (some protocol) ?_)
      (trans (setClient _ me none (by simp)) (removeList _ me)))
  intro held same
  refine ⟨me, ?_⟩
  rw [← same, ← client, ← usersClosed]
  rfl

end Follows

namespace Runs

theorem uConnect (env : Env) (me : Nat) (core : Core) :
    Runs (Common.uConnect env me) core (connectOutcome me core) := by
  refine get_bind (bind (findSame fun _ inside => inside) ?_)
  unfold connectOutcome
  change Runs (match core.findSession me with
    | none => _
    | some other => _) core _
  cases core.findSession me with
  | none => exact prompt env core me
  | some other =>
      refine bind (uPrintf core me _) (bind (uPrintf core me _)
        (bind (uPrintf core other _) (bind (disconnect core other) ?_)))
      simp only
      cases client : (core.users me).client with
      | none => exact raise_intro _ _
      | some protocol =>
          have follows := Follows.takenOver core client other
          have last : Runs
              (Common.prompt env other >>= fun _ =>
                Prog.raise (.stage .swapped) : CoreM Unit)
              (core.takenOver me other protocol)
              (.error (.stage .swapped), core.takenOver me other protocol) :=
            bind (prompt env _ other) (raise_intro (.stage .swapped) _)
          obtain ⟨obs, ran, quiet⟩ := last
          refine ⟨obs, ?_, follows.trans quiet⟩
          rw [← ran]
          rfl

theorem whoLoop
    {core : Core}
    {list : List (Nat × Nat)}
    (listed : ∀ entry ∈ list, entry ∈ core.listUser)
    (me i : Nat) :
    ∃ count, Runs (Common.whoLoop me list i) core (.ok count, core) := by
  induction list generalizing i with
  | nil => exact ⟨i, pure_intro i core⟩
  | cons entry rest inductionHypothesis =>
      have later := inductionHypothesis fun other inside =>
        listed other (List.mem_cons_of_mem _ inside)
      unfold Common.whoLoop
      split
      · exact later i
      · have good : Runs (Common.deref entry.2) core
            (.ok (core.users entry.2), core) :=
          deref fun safe =>
            safe.alive entry (listed entry (List.mem_cons_self ..))
        by_cases atLogin : (core.users entry.2).level = .login
        · obtain ⟨count, ran⟩ := later i
          exact ⟨count, bind good (by simpa only [atLogin, if_true] using ran)⟩
        · obtain ⟨count, ran⟩ := later (i + 1)
          refine ⟨count, bind good ?_⟩
          simp only [atLogin, if_false]
          exact bind (sometimes (uPrintf core me _))
            (bind (uPrintf core me _) ran)

theorem who (core : Core) (me : Nat) :
    Runs (Common.who me) core (.ok (), core) := by
  have listed : ∀ entry ∈ core.listUser, entry ∈ core.listUser :=
    fun _ inside => inside
  obtain ⟨count, ran⟩ := whoLoop listed me 0
  exact get_bind (bind ran (sometimes (uPrintf core me _)))

/-- A name that has the right length and is no command. -/
theorem nameAccepted (env : Env) (me : Nat) (inpstr : Bytes) (core : Core) :
    Runs (do
      Common.rejectLetters me inpstr
      Common.update me fun user => { user with name := properName inpstr }
      Common.clearSessions me
      let loaded ← Common.load env me inpstr true
      Prog.when (¬ loaded) (Common.uPrintf me (lit "creating new account\n"))
      Common.update me fun user =>
        { user with level := .login, stage := .loginPwd })
      core (.ok (), core.named env me inpstr) := by
  refine bind (rejectLetters core me inpstr)
    (update_bind (fun _ => rfl) (bind (clearSessions _ me) ?_))
  have found := load env me inpstr true
    (((core.rejected me inpstr).setUser me fun user =>
      { user with name := properName inpstr }).cleared me)
  obtain ⟨loaded, answer⟩ := loadOutcome_preload env me inpstr
    (((core.rejected me inpstr).setUser me fun user =>
      { user with name := properName inpstr }).cleared me)
  rw [Core.named]
  rw [← Prod.eta (loadOutcome ..), answer] at found
  apply bind found
  exact bind (sometimes (uPrintf _ me _)) (update fun _ => by rfl)

theorem loginName (env : Env) (me : Nat) (inpstr : Bytes) (core : Core) :
    Runs (Common.loginName env me inpstr) core
      (nameOutcome env me inpstr core) := by
  unfold Common.loginName nameOutcome
  simp only
  split
  · exact bind (uPrintf core me _) (raise_intro _ core)
  · split
    · rename_i isWho
      rw [if_pos (.inl isWho)]
      exact who core me
    · rename_i notWho
      split
      · rename_i isVersion
        rw [if_pos (.inr isVersion)]
        exact bind (uPrintf core me _)
          (bind (uPrintf core me _) (uPrintf core me _))
      · rename_i notVersion
        rw [if_neg (not_or.mpr ⟨notWho, notVersion⟩)]
        split
        · rename_i short
          rw [if_pos (.inl short)]
          exact bind (uPrintf core me _) (attempt core me)
        · rename_i notShort
          split
          · rename_i long
            rw [if_pos (.inr long)]
            exact bind (uPrintf core me _) (attempt core me)
          · rename_i notLong
            rw [if_neg (not_or.mpr ⟨notShort, notLong⟩)]
            exact nameAccepted env me inpstr core

theorem loginPwd (env : Env) (me : Nat) (inpstr : Bytes) (core : Core) :
    Runs (Common.loginPwd env me inpstr) core
      (pwdOutcome env me inpstr core) := by
  have choose : Runs (do
      Common.update me fun user =>
        { user with password := some (env.cryptFresh core.salts inpstr) }
      Prog.modify fun core => { core with salts := core.salts + 1 }
      Common.uPrintf me (lit "\n\nconfirm: ")
      Common.update me fun user => { user with stage := .loginReenterPwd })
      core (.ok (), core.chosen env me inpstr) := by
    refine update_bind (fun _ => rfl) (bind (modify (.setSalts _ _))
      (bind (uPrintf _ me _) ?_))
    exact update fun _ => by rfl
  unfold Common.loginPwd pwdOutcome
  refine get_bind ?_
  split
  · exact bind (uPrintf core me _) (attempt core me)
  · cases (core.users me).password with
    | none => exact choose
    | some password =>
        cases password with
        | nil => exact choose
        | cons first others =>
            simp only
            split
            · refine andThen (load env me (core.users me).name false core) ?_ ?_
              · intro abort failed
                rw [← Prod.eta (loadOutcome ..), failed]
              · intro loaded found
                rw [← Prod.eta (loadOutcome ..), found]
                exact update_bind (fun _ => rfl) (uConnect env me _)
            · exact bind (uPrintf core me _) (attempt core me)

theorem loginReenterPwd
    (env : Env)
    (me : Nat)
    (inpstr : Bytes)
    (core : Core) :
    Runs (Common.loginReenterPwd env me inpstr) core
      (reenterOutcome env me inpstr core) := by
  unfold Common.loginReenterPwd reenterOutcome
  apply get_bind
  cases cached : (core.users me).password with
  | none => exact raise_intro _ core
  | some password =>
      simp only
      split
      · cases client : (core.users me).client with
        | none => exact raise_intro _ core
        | some protocol =>
            have created : Runs (Common.create env me)
                (core.setUser me fun user => { user with level := .novice })
                (.ok _, _) :=
              create env me (by simpa using cached)
            simp only [Core.users_setUser_self] at created
            exact bind (send core protocol _ fun good =>
                good.connected me protocol client)
              (update_bind (fun _ => rfl) (bind created
                (update_bind (fun _ => rfl) (bind (uWrite _ me _)
                  (update fun _ => by rfl)))))
      · exact bind (uPrintf core me _) (attempt core me)

/-- `User::login` has the outcome of its stage. -/
theorem login (env : Env) (me : Nat) (inpstr : Bytes) (core : Core) :
    Runs (Common.login env me inpstr) core
      (loginOutcome env me inpstr core) := by
  unfold Common.login loginOutcome
  apply user_bind
  cases (core.users me).stage with
  | new => exact loginName env me inpstr core
  | loginId => exact loginName env me inpstr core
  | loginName => exact loginName env me inpstr core
  | loginPwd => exact loginPwd env me inpstr core
  | loginReenterPwd => exact loginReenterPwd env me inpstr core
  | _ => exact pure_intro () core

end Runs

end Common
end Lotospp
