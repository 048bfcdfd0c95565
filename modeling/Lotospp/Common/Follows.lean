import Lotospp.Common.Login

/-!
# What session code does to the server

`Follows` relates the states before and after a piece of session code to the
observations between them: what stays as it is for any line that a client
sends, and which faults cannot occur as long as every client is connected and
every listed user is alive.  `Runs` says which outcome a program has and that
it does no more than that.
-/

namespace Lotospp
namespace Common

open Text Effect

/-- What session code may show: messages, accesses, closed connections and
identifiers, but no step of the reading loop. -/
def Obs.Plain : Obs → Prop
  | .wrote _ _ => True
  | .nullConnection _ => True
  | .dangling _ => True
  | .kicked _ => True
  | .draw _ => True
  | _ => False

/-- No bad pointer is followed. -/
def Obs.Sound : Obs → Prop
  | .nullConnection _ => False
  | .dangling _ => False
  | _ => True

/-- Every pointer that session code follows is a good one. -/
structure Core.Safe (core : Core) : Prop where
  /-- A user's client has a connection. -/
  connected : ∀ user protocol, (core.users user).client = some protocol →
    (core.protocols protocol).connected
  /-- A listed user has not been destroyed. -/
  alive : ∀ entry ∈ core.listUser, (core.users entry.2).alive

/-- Session code may lead from one state to the other and show this. -/
structure Follows (core : Core) (obs : List Obs) (reached : Core) : Prop where
  /-- The observations are plain. -/
  plain : ∀ observation ∈ obs, observation.Plain
  /-- In a good state no bad pointer is followed. -/
  sound : core.Safe → ∀ observation ∈ obs, observation.Sound
  /-- No user is created or destroyed. -/
  alive : ∀ user, (reached.users user).alive = (core.users user).alive
  /-- The users keep the identifiers they are listed by. -/
  id : ∀ user, (reached.users user).id = (core.users user).id
  /-- The users keep the identifiers they have drawn. -/
  autoId : ∀ user, (reached.users user).autoId = (core.users user).autoId
  /-- A client is handed on, but no client is new. -/
  clients : ∀ user protocol, (reached.users user).client = some protocol →
    ∃ before, (core.users before).client = some protocol
  /-- Users leave the list, but none joins it. -/
  listed : reached.listUser.Sublist core.listUser
  /-- The protocols keep their connections. -/
  connected : ∀ protocol,
    (reached.protocols protocol).connected = (core.protocols protocol).connected
  /-- The protocols go on accepting packets. -/
  accepts : ∀ protocol, (reached.protocols protocol).acceptPackets =
    (core.protocols protocol).acceptPackets
  /-- A connection that is not open does not open again. -/
  closing : ∀ connection, (core.connections connection).state ≠ .open →
    (reached.connections connection).state ≠ .open
  /-- A kick closes the connection. -/
  kicked : ∀ connection, .kicked connection ∈ obs →
    (reached.connections connection).state ≠ .open
  /-- The connections keep their protocols. -/
  hasProtocol : ∀ connection, (reached.connections connection).hasProtocol =
    (core.connections connection).hasProtocol
  /-- The connections remember their first packet. -/
  receivedFirst : ∀ connection,
    (reached.connections connection).receivedFirst =
      (core.connections connection).receivedFirst
  /-- No user joins. -/
  nextUser : reached.nextUser = core.nextUser
  /-- No connection joins. -/
  nextConnection : reached.nextConnection = core.nextConnection
  /-- No identifier is given back. -/
  drawn : ∀ autoId ∈ core.autoID.list, autoId ∈ reached.autoID.list

namespace Follows

/-- Good states lead to good states. -/
theorem safe
    {core reached : Core}
    {obs : List Obs}
    (follows : Follows core obs reached)
    (good : core.Safe) : reached.Safe where
  connected := by
    intro user protocol client
    obtain ⟨before, clientBefore⟩ := follows.clients user protocol client
    rw [follows.connected]
    exact good.connected before protocol clientBefore
  alive := by
    intro entry listed
    rw [follows.alive]
    exact good.alive entry (follows.listed.subset listed)

/-- The state stays the same. -/
theorem same
    {core : Core}
    {obs : List Obs}
    (plain : ∀ observation ∈ obs, observation.Plain)
    (sound : core.Safe → ∀ observation ∈ obs, observation.Sound)
    (quiet : ∀ connection, .kicked connection ∈ obs →
      (core.connections connection).state ≠ .open) :
    Follows core obs core where
  plain := plain
  sound := sound
  alive := fun _ => rfl
  id := fun _ => rfl
  autoId := fun _ => rfl
  clients := fun user _ client => ⟨user, client⟩
  listed := List.Sublist.refl _
  connected := fun _ => rfl
  accepts := fun _ => rfl
  closing := fun _ closed => closed
  kicked := quiet
  hasProtocol := fun _ => rfl
  receivedFirst := fun _ => rfl
  nextUser := rfl
  nextConnection := rfl
  drawn := fun _ inside => inside

theorem refl (core : Core) : Follows core [] core :=
  same (by simp) (by simp) (by simp)

theorem trans
    {core middle reached : Core}
    {obs more : List Obs}
    (first : Follows core obs middle)
    (second : Follows middle more reached) :
    Follows core (obs ++ more) reached where
  plain := by
    simp only [List.mem_append]
    rintro observation (shown | shown)
    · exact first.plain observation shown
    · exact second.plain observation shown
  sound := by
    intro good
    simp only [List.mem_append]
    rintro observation (shown | shown)
    · exact first.sound good observation shown
    · exact second.sound (first.safe good) observation shown
  alive := fun user => (second.alive user).trans (first.alive user)
  id := fun user => (second.id user).trans (first.id user)
  autoId := fun user => (second.autoId user).trans (first.autoId user)
  clients := by
    intro user protocol client
    obtain ⟨between, clientBetween⟩ := second.clients user protocol client
    exact first.clients between protocol clientBetween
  listed := second.listed.trans first.listed
  connected := fun protocol =>
    (second.connected protocol).trans (first.connected protocol)
  accepts := fun protocol =>
    (second.accepts protocol).trans (first.accepts protocol)
  closing := fun connection closed =>
    second.closing connection (first.closing connection closed)
  kicked := by
    intro connection
    simp only [List.mem_append]
    rintro (shown | shown)
    · exact second.closing connection (first.kicked connection shown)
    · exact second.kicked connection shown
  hasProtocol := fun connection =>
    (second.hasProtocol connection).trans (first.hasProtocol connection)
  receivedFirst := fun connection =>
    (second.receivedFirst connection).trans (first.receivedFirst connection)
  nextUser := second.nextUser.trans first.nextUser
  nextConnection := second.nextConnection.trans first.nextConnection
  drawn := fun autoId inside => second.drawn autoId (first.drawn autoId inside)

end Follows

/-! ## Steps of session code -/

/-- What a user is known by. -/
def User.identity (user : User) : Bool × Nat × Nat × Option Nat :=
  (user.alive, user.id, user.autoId, user.client)

/-- The change of a user leaves its identity and its client alone. -/
def User.Keeps (change : User → User) : Prop :=
  ∀ user, (change user).identity = user.identity

namespace User.Keeps

variable {change next : User → User}

theorem alive (keeps : User.Keeps change) (user : User) :
    (change user).alive = user.alive :=
  congrArg Prod.fst (keeps user)

theorem id (keeps : User.Keeps change) (user : User) :
    (change user).id = user.id :=
  congrArg (fun identity => identity.2.1) (keeps user)

theorem autoId (keeps : User.Keeps change) (user : User) :
    (change user).autoId = user.autoId :=
  congrArg (fun identity => identity.2.2.1) (keeps user)

theorem client (keeps : User.Keeps change) (user : User) :
    (change user).client = user.client :=
  congrArg (fun identity => identity.2.2.2) (keeps user)

theorem comp (keeps : User.Keeps change) (keepsNext : User.Keeps next) :
    User.Keeps (next ∘ change) :=
  fun user => (keepsNext (change user)).trans (keeps user)

end User.Keeps

theorem Core.setUser_id (core : Core) (me : Nat) :
    core.setUser me id = core := by
  simp [Core.setUser]

/-- What all users have in common survives a change that keeps it. -/
theorem Core.setUser_forall
    {α : Type}
    (field : User → α)
    {change : User → User}
    (keeps : ∀ user, field (change user) = field user)
    (core : Core)
    (me user : Nat) :
    field ((core.setUser me change).users user) = field (core.users user) := by
  rw [Core.users_setUser]
  split
  · rename_i same
    rw [keeps, same]
  · rfl

namespace Follows

theorem setUser
    {change : User → User}
    (keeps : User.Keeps change)
    (core : Core)
    (me : Nat) :
    Follows core [] (core.setUser me change) where
  plain := by simp
  sound := by simp
  alive := Core.setUser_forall User.alive keeps.alive core me
  id := Core.setUser_forall User.id keeps.id core me
  autoId := Core.setUser_forall User.autoId keeps.autoId core me
  clients := fun user protocol client =>
    ⟨user, by rwa [Core.setUser_forall User.client keeps.client core me] at client⟩
  listed := List.Sublist.refl _
  connected := fun _ => rfl
  accepts := fun _ => rfl
  closing := fun _ closed => closed
  kicked := by simp
  hasProtocol := fun _ => rfl
  receivedFirst := fun _ => rfl
  nextUser := rfl
  nextConnection := rfl
  drawn := fun _ inside => inside

/-- A client is handed to a user, or taken from it. -/
theorem setClient
    (core : Core)
    (me : Nat)
    (client : Option Nat)
    (held : ∀ protocol, client = some protocol →
      ∃ before, (core.users before).client = some protocol) :
    Follows core [] (core.setUser me fun user =>
      { user with client := client }) where
  __ := refl core
  alive := Core.setUser_forall User.alive (fun _ => by rfl) core me
  id := Core.setUser_forall User.id (fun _ => by rfl) core me
  autoId := Core.setUser_forall User.autoId (fun _ => by rfl) core me
  clients := by
    intro user protocol
    rw [Core.users_setUser]
    split
    · exact held protocol
    · exact fun kept => ⟨user, kept⟩

/-- A protocol gets another user. -/
theorem setProtocolUser (core : Core) (protocol : Nat) (user : Option Nat) :
    Follows core [] (core.setProtocol protocol fun protocol =>
      { protocol with user := user }) where
  __ := refl core
  connected other := by
    simp only [Core.setProtocol, Function.update_apply]
    split
    · rename_i same
      rw [same]
    · rfl
  accepts other := by
    simp only [Core.setProtocol, Function.update_apply]
    split
    · rename_i same
      rw [same]
    · rfl

theorem setDb (core : Core) (db : Database.Users) :
    Follows core [] { core with db := db } where
  __ := refl core

theorem setSalts (core : Core) (salts : Nat) :
    Follows core [] { core with salts := salts } where
  __ := refl core

theorem removeList (core : Core) (me : Nat) :
    Follows core [] (core.removeList me) where
  __ := refl core
  listed := List.filter_sublist

end Follows

theorem Core.state_closeConnection (core : Core) (connection other : Nat) :
    ((core.closeConnection connection).connections other).state =
      if other = connection ∧ (core.connections connection).state ≠ .closed
      then .requestClose
      else (core.connections other).state := by
  unfold Core.closeConnection
  by_cases same : other = connection
  · subst same
    cases state : (core.connections other).state <;>
      simp [state, Core.setConnection]
  · split <;> simp [same, Core.setConnection]

theorem Core.closeConnection_closes (core : Core) (connection : Nat) :
    ((core.closeConnection connection).connections connection).state ≠
      .open := by
  rw [Core.state_closeConnection]
  cases state : (core.connections connection).state <;> simp

theorem Core.hasProtocol_closeConnection
    (core : Core) (connection other : Nat) :
    ((core.closeConnection connection).connections other).hasProtocol =
      (core.connections other).hasProtocol := by
  unfold Core.closeConnection
  split
  · rfl
  · rfl
  · simp only [Core.setConnection, Function.update_apply]
    split
    · rename_i same
      rw [same]
    · rfl

theorem Core.receivedFirst_closeConnection
    (core : Core) (connection other : Nat) :
    ((core.closeConnection connection).connections other).receivedFirst =
      (core.connections other).receivedFirst := by
  unfold Core.closeConnection
  split
  · rfl
  · rfl
  · simp only [Core.setConnection, Function.update_apply]
    split
    · rename_i same
      rw [same]
    · rfl

/-- Closing a connection changes nothing but connections. -/
theorem Core.closeConnection_eq (core : Core) (connection : Nat) :
    ∃ connections, core.closeConnection connection =
      { core with connections := connections } := by
  unfold Core.closeConnection
  split
  · exact ⟨core.connections, rfl⟩
  · exact ⟨core.connections, rfl⟩
  · exact ⟨_, rfl⟩

section CloseConnection

variable (core : Core) (connection : Nat)

@[simp] theorem Core.users_closeConnection :
    (core.closeConnection connection).users = core.users := by
  obtain ⟨connections, eq⟩ := core.closeConnection_eq connection
  rw [eq]

@[simp] theorem Core.listUser_closeConnection :
    (core.closeConnection connection).listUser = core.listUser := by
  obtain ⟨connections, eq⟩ := core.closeConnection_eq connection
  rw [eq]

@[simp] theorem Core.protocols_closeConnection :
    (core.closeConnection connection).protocols = core.protocols := by
  obtain ⟨connections, eq⟩ := core.closeConnection_eq connection
  rw [eq]

@[simp] theorem Core.db_closeConnection :
    (core.closeConnection connection).db = core.db := by
  obtain ⟨connections, eq⟩ := core.closeConnection_eq connection
  rw [eq]

@[simp] theorem Core.autoID_closeConnection :
    (core.closeConnection connection).autoID = core.autoID := by
  obtain ⟨connections, eq⟩ := core.closeConnection_eq connection
  rw [eq]

@[simp] theorem Core.nextUser_closeConnection :
    (core.closeConnection connection).nextUser = core.nextUser := by
  obtain ⟨connections, eq⟩ := core.closeConnection_eq connection
  rw [eq]

@[simp] theorem Core.nextConnection_closeConnection :
    (core.closeConnection connection).nextConnection =
      core.nextConnection := by
  obtain ⟨connections, eq⟩ := core.closeConnection_eq connection
  rw [eq]

end CloseConnection

namespace Follows

/-- A connection is closed, and perhaps by a kick. -/
theorem closeConnection
    {core : Core}
    {connection : Nat}
    {obs : List Obs}
    (onlyKicks : ∀ observation ∈ obs, observation = .kicked connection) :
    Follows core obs (core.closeConnection connection) where
  plain := by
    intro observation shown
    rw [onlyKicks observation shown]
    trivial
  sound := by
    intro _ observation shown
    rw [onlyKicks observation shown]
    trivial
  alive := by simp
  id := by simp
  autoId := by simp
  clients := fun user protocol client => ⟨user, by simpa using client⟩
  listed := by simp
  connected := by simp
  accepts := by simp
  closing := by
    intro other closed
    rw [Core.state_closeConnection]
    split
    · simp
    · exact closed
  kicked := by
    intro other shown
    have same := onlyKicks _ shown
    simp only [Obs.kicked.injEq] at same
    rw [same]
    exact core.closeConnection_closes connection
  hasProtocol := core.hasProtocol_closeConnection connection
  receivedFirst := core.receivedFirst_closeConnection connection
  nextUser := by simp
  nextConnection := by simp
  drawn := by simp

theorem sendObs
    (core : Core)
    (protocol : Nat)
    (message : Bytes)
    (good : core.Safe → (core.protocols protocol).connected) :
    Follows core (Common.sendObs core protocol message) core := by
  unfold Common.sendObs
  split
  · split
    · exact same (by simp [Obs.Plain]) (by simp [Obs.Sound]) (by simp)
    · exact refl core
  · rename_i notConnected
    refine same (by simp [Obs.Plain]) ?_ (by simp)
    intro safe
    exact absurd (good safe) notConnected

theorem writeObs (core : Core) (me : Nat) (message : Bytes) :
    Follows core (Common.writeObs core me message) core := by
  unfold Common.writeObs
  split
  · exact refl core
  · rename_i protocol client
    split
    · exact refl core
    · exact sendObs core protocol _ fun safe =>
        safe.connected me protocol client

theorem derefObs
    (core : Core)
    (me : Nat)
    (good : core.Safe → (core.users me).alive) :
    Follows core (Common.derefObs core me) core := by
  unfold Common.derefObs
  split
  · exact refl core
  · rename_i dead
    refine same (by simp [Obs.Plain]) ?_ (by simp)
    intro safe
    exact absurd (good safe) dead

end Follows

/-! ## Programs with an outcome -/

/-- The program has this outcome, and does what session code may do. -/
def Runs {α : Type} (prog : CoreM α) (core : Core)
    (outcome : Except Abort α × Core) : Prop :=
  ∃ obs, prog.run core = ⟨outcome.1, outcome.2, obs⟩ ∧
    Follows core obs outcome.2

namespace Runs

variable {α β : Type}

theorem pure_intro (value : α) (core : Core) :
    Runs (pure value) core (.ok value, core) :=
  ⟨[], rfl, .refl core⟩

theorem raise_intro (abort : Abort) (core : Core) :
    Runs (Prog.raise abort : CoreM α) core (.error abort, core) :=
  ⟨[], rfl, .refl core⟩

/-- The program continues after a normal end. -/
theorem bind
    {prog : CoreM α}
    {next : α → CoreM β}
    {core middle : Core}
    {value : α}
    {outcome : Except Abort β × Core}
    (first : Runs prog core (.ok value, middle))
    (second : Runs (next value) middle outcome) :
    Runs (prog >>= next) core outcome := by
  obtain ⟨obs, ran, follows⟩ := first
  obtain ⟨more, ranNext, followsNext⟩ := second
  refine ⟨obs ++ more, ?_, follows.trans followsNext⟩
  rw [Prog.run_bind_ok ran, ranNext, Run.prepend_mk]

/-- The program ends with an abort. -/
theorem bind_error
    {prog : CoreM α}
    {core middle : Core}
    {abort : Abort}
    (first : Runs prog core (.error abort, middle))
    (next : α → CoreM β) :
    Runs (prog >>= next) core (.error abort, middle) := by
  obtain ⟨obs, ran, follows⟩ := first
  exact ⟨obs, Prog.run_bind_error ran next, follows⟩

/-- The program continues or ends as the first part does. -/
theorem andThen
    {prog : CoreM α}
    {next : α → CoreM β}
    {core : Core}
    {first : Except Abort α × Core}
    {outcome : Except Abort β × Core}
    (ran : Runs prog core first)
    (aborts : ∀ abort, first.1 = .error abort →
      outcome = (.error abort, first.2))
    (continues : ∀ value, first.1 = .ok value →
      Runs (next value) first.2 outcome) :
    Runs (prog >>= next) core outcome := by
  obtain ⟨abort | value, middle⟩ := first
  · rw [aborts abort rfl]
    exact bind_error ran next
  · exact bind ran (continues value rfl)

theorem get_bind
    {next : Core → CoreM α}
    {core : Core}
    {outcome : Except Abort α × Core}
    (rest : Runs (next core) core outcome) :
    Runs (Prog.get >>= next) core outcome := rest

theorem user_bind
    {next : User → CoreM α}
    {core : Core}
    {me : Nat}
    {outcome : Except Abort α × Core}
    (rest : Runs (next (core.users me)) core outcome) :
    Runs (user me >>= next) core outcome := rest

theorem modify
    {core : Core}
    {change : Core → Core}
    (follows : Follows core [] (change core)) :
    Runs (Prog.modify change) core (.ok (), change core) :=
  ⟨[], rfl, follows⟩

theorem update
    {change : User → User}
    {core : Core}
    {me : Nat}
    (keeps : User.Keeps change) :
    Runs (Common.update me change) core (.ok (), core.setUser me change) :=
  ⟨[], rfl, .setUser keeps core me⟩

theorem update_bind
    {change : User → User}
    {next : Unit → CoreM α}
    {core : Core}
    {me : Nat}
    {outcome : Except Abort α × Core}
    (keeps : User.Keeps change)
    (rest : Runs (next ()) (core.setUser me change) outcome) :
    Runs (Common.update me change >>= next) core outcome :=
  bind (update keeps) rest

theorem uWrite (core : Core) (me : Nat) (message : Bytes) :
    Runs (Common.uWrite me message) core (.ok (), core) :=
  ⟨_, run_uWrite me message core, .writeObs core me message⟩

theorem uPrintf (core : Core) (me : Nat) (text : Bytes) :
    Runs (Common.uPrintf me text) core (.ok (), core) :=
  uWrite core me (escape false text)

theorem prompt (env : Env) (core : Core) (me : Nat) :
    Runs (Common.prompt env me) core (.ok (), core) :=
  ⟨_, run_prompt env me core, .writeObs core me _⟩

theorem send
    (core : Core)
    (protocol : Nat)
    (message : Bytes)
    (good : core.Safe → (core.protocols protocol).connected) :
    Runs (Common.send protocol message) core (.ok (), core) :=
  ⟨_, run_send protocol message core, .sendObs core protocol message good⟩

theorem deref
    {core : Core}
    {me : Nat}
    (good : core.Safe → (core.users me).alive) :
    Runs (Common.deref me) core (.ok (core.users me), core) :=
  ⟨_, run_deref me core, .derefObs core me good⟩

theorem when
    {condition : Prop} [Decidable condition]
    {prog : CoreM Unit}
    {core reached : Core}
    (rest : condition → Runs prog core (.ok (), reached)) :
    Runs (Prog.when condition prog) core
      (.ok (), if condition then reached else core) := by
  unfold Prog.when
  split
  · rename_i holds
    exact rest holds
  · exact pure_intro () core

/-- Output that is made only sometimes. -/
theorem sometimes
    {condition : Prop} [Decidable condition]
    {prog : CoreM Unit}
    {core : Core}
    (rest : Runs prog core (.ok (), core)) :
    Runs (Prog.when condition prog) core (.ok (), core) := by
  unfold Prog.when
  split
  · exact rest
  · exact pure_intro () core

end Runs

end Common
end Lotospp
