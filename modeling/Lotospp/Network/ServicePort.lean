import Lotospp.Effect.Machine
import Mathlib.Data.List.Count
import Mathlib.Data.List.Nodup
import Mathlib.Data.List.Perm.Basic

/-!
# The port of a service

`class ServicePort` with its acceptors, which listen for clients.  For every
acceptor an `async_accept` is under way, or its handler `onAccept` waits for
the thread of the `io_service`.  After an error the port closes its acceptors,
and an event of the scheduler has the dispatcher open them again.

Nothing keeps the two threads apart.  What `open` does to an acceptor it makes
are steps of its own; a handler is one step.  The port can be reached as long
as no handler runs while the dispatcher is in `open`.  `ServiceManager` holds
the port as long as they run.
-/

namespace Lotospp
namespace Network
namespace ServicePort

open Effect

/-- How an `async_accept` ended. -/
inductive Completion
  /-- There is a client, whose address may be known. -/
  | connected (known : Bool)
  /-- An error. -/
  | failed
  /-- `operation_aborted`: the acceptor was closed. -/
  | aborted
  deriving DecidableEq, Repr

/-- What the system makes of the acceptors of `open`. -/
inductive Opening
  /-- There is no acceptor for version 6. -/
  | refused
  /-- One acceptor is for both versions. -/
  | together
  /-- An acceptor is for version 6 only, and there is a second one or not. -/
  | apart (second : Bool)
  deriving DecidableEq, Repr

/-- What is left of a call of `open`. -/
inductive Piece
  /-- A new acceptor and `accept` of it. -/
  | accept
  /-- `push_back` of the new acceptor. -/
  | push
  /-- `addEvent`, behind the exception. -/
  | schedule (port : UInt16)
  deriving DecidableEq, Repr

/-- What `open` does after it has set the members. -/
def Opening.pieces (port : UInt16) : Opening → List Piece
  | .refused => [.schedule port]
  | .together => [.accept, .push]
  | .apart true => [.accept, .push, .accept, .push]
  | .apart false => [.accept, .push, .schedule port]

/-- A port. -/
structure State where
  /-- `m_serverPort`. -/
  serverPort : UInt16 := 0
  /-- `m_pendingStart`. -/
  pendingStart : Bool := false
  /-- `m_tcp_acceptors`, by number. -/
  acceptors : List Nat := []
  /-- `isSingleSocket` of `m_services`. -/
  services : List Bool := []
  /-- How many acceptors there have been. -/
  made : Nat := 0
  /-- The acceptors that are open. -/
  opened : List Nat := []
  /-- The acceptors with an `async_accept` under way. -/
  accepting : List Nat := []
  /-- The handlers that wait for the thread. -/
  completed : List (Nat × Completion) := []
  /-- The events that call `openAcceptor`, with its port. -/
  retries : List UInt16 := []
  /-- What is left of the call of `open` that the dispatcher is in. -/
  pieces : List Piece := []
  /-- The connections that were created, and whether the protocol of each was
  made at once. -/
  connections : List Bool := []
  deriving DecidableEq

namespace State

/-- `ServicePort::accept`; an acceptor that is not open fails at once. -/
def accept (state : State) (acceptor : Nat) : State :=
  if acceptor ∈ state.opened then
    { state with accepting := state.accepting ++ [acceptor] }
  else
    { state with completed := state.completed ++ [(acceptor, .failed)] }

/-- `ServicePort::close`, which aborts what is under way. -/
def close (state : State) : State :=
  { state with
    acceptors := []
    opened := state.opened.filter (· ∉ state.acceptors)
    accepting := state.accepting.filter (· ∉ state.acceptors)
    completed := state.completed ++
      (state.accepting.filter (· ∈ state.acceptors)).map (·, .aborted) }

/-- `addEvent` of a call of `openAcceptor`. -/
def schedule (state : State) (port : UInt16) : State :=
  { state with pendingStart := true, retries := state.retries ++ [port] }

/-- A new acceptor, which is not in the list yet. -/
def make (state : State) : State :=
  { state with
    made := state.made + 1
    opened := state.opened ++ [state.made] }.accept state.made

/-- `push_back` of the acceptor that was made last. -/
def push (state : State) : State :=
  { state with acceptors := state.acceptors ++ [state.made - 1] }

/-- One more step of `open`. -/
def proceed (state : State) : Piece → State
  | .accept => state.make
  | .push => state.push
  | .schedule port => state.schedule port

/-- The call of `open` ends, if there is one. -/
def finish (state : State) : State :=
  state.pieces.foldl proceed { state with pieces := [] }

/-- `ServicePort::open` begins. -/
def begin (state : State) (port : UInt16) (opening : Opening) : State :=
  { state with
    serverPort := port
    pendingStart := false
    pieces := opening.pieces port }

/-- `ServicePort::open`, from its beginning to its end. -/
def openPort (state : State) (port : UInt16) (opening : Opening) : State :=
  (state.begin port opening).finish

/-- `ServicePort::addService`. -/
def addService (state : State) (single : Bool) : Bool × State :=
  if true ∈ state.services then (false, state)
  else (true, { state with services := state.services ++ [single] })

/-- `ServicePort::isSingleSocket`. -/
def isSingleSocket (state : State) : Bool :=
  state.services.head?.getD false

/-- `ServiceManager::add` for a port that there is. -/
def add (state : State) (single : Bool) : Bool × State :=
  if state.isSingleSocket || single then (false, state)
  else state.addService single

/-- `ServicePort::onAccept`. -/
def onAccept (state : State) (acceptor : Nat) : Completion → State
  | .connected known =>
      if state.services = [] then state
      else
        let state :=
          if known then
            { state with
              connections := state.connections ++ [state.isSingleSocket] }
          else state
        state.accept acceptor
  | .failed =>
      let state := state.close
      if state.pendingStart then state else state.schedule state.serverPort
  | .aborted => state

/-- The acceptors that `accept` will be called for: an `async_accept` is under
way, or has ended and not because the acceptor was closed. -/
def waiting (state : State) : List Nat :=
  state.accepting ++ (state.completed.filter (·.2 ≠ .aborted)).map Prod.fst

end State

/-- What can happen. -/
inductive Action
  /-- `ServiceManager::add` of another service. -/
  | add (single : Bool)
  /-- An `async_accept` ends. -/
  | complete (acceptor : Nat) (completion : Completion)
  /-- The thread of the `io_service` runs a handler. -/
  | handle (acceptor : Nat) (completion : Completion)
  /-- The dispatcher runs `openAcceptor`, which calls `open`. -/
  | retry (opening : Opening)
  /-- The dispatcher goes on with `open`. -/
  | proceed
  deriving DecidableEq, Repr

/-- What an action does. -/
def step (state : State) : Action → Option State
  | .add single => some (state.add single).2
  | .complete acceptor completion =>
      if acceptor ∈ state.accepting ∧ completion ≠ .aborted then
        some
          { state with
            accepting := state.accepting.erase acceptor
            completed := state.completed ++ [(acceptor, completion)] }
      else none
  | .handle acceptor completion =>
      if (acceptor, completion) ∈ state.completed then
        let state :=
          { state with
            completed := state.completed.erase (acceptor, completion) }
        some (state.onAccept acceptor completion)
      else none
  | .retry opening =>
      match state.pieces, state.retries with
      | [], port :: rest =>
          some ({ state with retries := rest }.begin port opening)
      | _, _ => none
  | .proceed =>
      match state.pieces with
      | [] => none
      | piece :: rest => some ({ state with pieces := rest }.proceed piece)

/-- The port that `ServiceManager::add` has made and opened for a service,
before any thread runs. -/
def machine (port : UInt16) (opening : Opening) (single : Bool) :
    Machine State Action where
  start := ((({} : State).openPort port opening).addService single).2
  step := step

/-- No handler runs while the dispatcher is in `open`. -/
def Serial (state : State) : Action → Prop
  | .handle _ _ => state.pieces = []
  | _ => True

instance (state : State) : ∀ action, Decidable (Serial state action)
  | .handle _ _ => inferInstanceAs (Decidable (_ = _))
  | .add _ => isTrue trivial
  | .complete _ _ => isTrue trivial
  | .retry _ => isTrue trivial
  | .proceed => isTrue trivial

/-! ## The acceptors -/

/-- What holds of the acceptors: those of the port are the open ones, and for
each of them `accept` will be called again, once. -/
structure Listens (state : State) : Prop where
  /-- No other acceptor is open. -/
  opened : state.opened = state.acceptors
  /-- No acceptor is in the list twice. -/
  distinct : state.acceptors.Nodup
  /-- An `async_accept` is under way for acceptors of the port only. -/
  accepting : ∀ acceptor ∈ state.accepting, acceptor ∈ state.acceptors
  /-- The acceptors have been made. -/
  made : ∀ acceptor ∈ state.acceptors, acceptor < state.made
  /-- The handlers are of acceptors that have been made. -/
  completed : ∀ entry ∈ state.completed, entry.1 < state.made
  /-- The acceptor is waited for once. -/
  once : ∀ acceptor ∈ state.acceptors, state.waiting.count acceptor = 1

namespace State

theorem waiting_accept (state : State) (acceptor : Nat) :
    (state.accept acceptor).waiting.Perm (acceptor :: state.waiting) := by
  unfold accept
  split
  · simp [waiting]
  · simpa [waiting] using
      List.perm_append_singleton acceptor state.waiting

theorem waiting_erase
    {state : State}
    {acceptor : Nat}
    {completion : Completion}
    (waits : (acceptor, completion) ∈ state.completed)
    (ended : completion ≠ .aborted) :
    state.waiting.Perm
      (acceptor ::
        { state with
          completed := state.completed.erase (acceptor, completion) }.waiting) := by
  have first := (List.perm_cons_erase waits).filter (·.2 ≠ .aborted)
  rw [List.filter_cons_of_pos (by simpa using ended)] at first
  exact ((first.map Prod.fst).append_left state.accepting).trans
    List.perm_middle

theorem waiting_erase_aborted
    {state : State}
    {acceptor : Nat}
    (waits : (acceptor, .aborted) ∈ state.completed) :
    state.waiting.Perm
      { state with
        completed := state.completed.erase (acceptor, .aborted) }.waiting := by
  have first := (List.perm_cons_erase waits).filter (·.2 ≠ .aborted)
  rw [List.filter_cons_of_neg (by simp)] at first
  exact (first.map Prod.fst).append_left state.accepting

theorem waiting_complete
    {state : State}
    {acceptor : Nat}
    {completion : Completion}
    (waits : acceptor ∈ state.accepting)
    (ended : completion ≠ .aborted) :
    state.waiting.Perm
      { state with
        accepting := state.accepting.erase acceptor
        completed := state.completed ++ [(acceptor, completion)] }.waiting := by
  have first := (List.perm_cons_erase waits).append_right
    ((state.completed.filter (·.2 ≠ .aborted)).map Prod.fst)
  refine first.trans ?_
  simpa [waiting, ended, List.append_assoc] using
    (List.perm_append_singleton acceptor
      (state.accepting.erase acceptor ++
        (state.completed.filter (·.2 ≠ .aborted)).map Prod.fst)).symm

@[simp] theorem acceptors_accept (state : State) (acceptor : Nat) :
    (state.accept acceptor).acceptors = state.acceptors := by
  unfold accept
  split <;> rfl

@[simp] theorem opened_accept (state : State) (acceptor : Nat) :
    (state.accept acceptor).opened = state.opened := by
  unfold accept
  split <;> rfl

@[simp] theorem made_accept (state : State) (acceptor : Nat) :
    (state.accept acceptor).made = state.made := by
  unfold accept
  split <;> rfl

theorem mem_accepting_accept
    {state : State}
    {acceptor other : Nat}
    (member : other ∈ (state.accept acceptor).accepting) :
    other ∈ state.accepting ∨ other ∈ state.opened := by
  unfold accept at member
  split at member
  case isTrue isOpen =>
    rcases List.mem_append.mp member with before | new
    · exact .inl before
    · exact .inr (List.mem_singleton.mp new ▸ isOpen)
  case isFalse => exact .inl member

theorem mem_completed_accept
    {state : State}
    {acceptor : Nat}
    {entry : Nat × Completion}
    (member : entry ∈ (state.accept acceptor).completed) :
    entry ∈ state.completed ∨ entry.1 = acceptor := by
  unfold accept at member
  split at member
  case isTrue => exact .inl member
  case isFalse =>
    rcases List.mem_append.mp member with before | new
    · exact .inl before
    · exact .inr (by rw [List.mem_singleton.mp new])

end State

namespace Listens

variable {state : State}

/-- The other members do not matter. -/
theorem update
    (listens : Listens state)
    (serverPort : UInt16)
    (pendingStart : Bool)
    (services : List Bool)
    (retries : List UInt16)
    (pieces : List Piece)
    (connections : List Bool) :
    Listens
      { state with
        serverPort := serverPort
        pendingStart := pendingStart
        services := services
        retries := retries
        pieces := pieces
        connections := connections } :=
  ⟨listens.opened, listens.distinct, listens.accepting, listens.made,
    listens.completed, listens.once⟩

theorem lt_made
    (listens : Listens state)
    {acceptor : Nat}
    (waits : acceptor ∈ state.waiting) : acceptor < state.made := by
  rcases List.mem_append.mp waits with accepts | ends
  · exact listens.made acceptor (listens.accepting acceptor accepts)
  · obtain ⟨entry, member, rfl⟩ := List.mem_map.mp ends
    exact listens.completed entry (List.mem_of_mem_filter member)

/-- The handler of a client goes on with its acceptor. -/
theorem reaccept
    (listens : Listens state)
    {acceptor : Nat}
    {completion : Completion}
    (waits : (acceptor, completion) ∈ state.completed)
    (ended : completion ≠ .aborted)
    (connections : List Bool) :
    Listens
      ({ state with
        completed := state.completed.erase (acceptor, completion)
        connections := connections }.accept acceptor) where
  opened := by simpa using listens.opened
  distinct := by simpa using listens.distinct
  accepting other member := by
    rw [State.acceptors_accept]
    rcases State.mem_accepting_accept member with before | isOpen
    · exact listens.accepting other before
    · exact listens.opened ▸ isOpen
  made := by simpa using listens.made
  completed entry member := by
    rw [State.made_accept]
    rcases State.mem_completed_accept member with before | same
    · exact listens.completed entry (List.mem_of_mem_erase before)
    · rw [same]
      exact listens.completed (acceptor, completion) waits
  once other member := by
    rw [State.acceptors_accept] at member
    let handled : State :=
      { state with
        completed := state.completed.erase (acceptor, completion)
        connections := connections }
    have permuted : state.waiting.Perm (handled.accept acceptor).waiting :=
      (State.waiting_erase waits ended).trans
        (State.waiting_accept handled acceptor).symm
    rw [← permuted.count_eq]
    exact listens.once other member

theorem aborted
    (listens : Listens state)
    {acceptor : Nat}
    (waits : (acceptor, .aborted) ∈ state.completed) :
    Listens
      { state with
        completed := state.completed.erase (acceptor, .aborted) } where
  opened := listens.opened
  distinct := listens.distinct
  accepting := listens.accepting
  made := listens.made
  completed entry member :=
    listens.completed entry (List.mem_of_mem_erase member)
  once other member := by
    rw [← (State.waiting_erase_aborted waits).count_eq]
    exact listens.once other member

theorem complete
    (listens : Listens state)
    {acceptor : Nat}
    {completion : Completion}
    (waits : acceptor ∈ state.accepting)
    (ended : completion ≠ .aborted) :
    Listens
      { state with
        accepting := state.accepting.erase acceptor
        completed := state.completed ++ [(acceptor, completion)] } where
  opened := listens.opened
  distinct := listens.distinct
  accepting other member :=
    listens.accepting other (List.mem_of_mem_erase member)
  made := listens.made
  completed entry member := by
    rcases List.mem_append.mp member with before | new
    · exact listens.completed entry before
    · rw [List.mem_singleton.mp new]
      exact listens.made acceptor (listens.accepting acceptor waits)
  once other member := by
    rw [← (State.waiting_complete waits ended).count_eq]
    exact listens.once other member

/-- The acceptors are closed by the handler of an error. -/
theorem close
    (listens : Listens state)
    {completed : List (Nat × Completion)}
    (fewer : ∀ entry ∈ completed, entry ∈ state.completed) :
    Listens { state with completed := completed }.close where
  opened := by simp [State.close, listens.opened]
  distinct := List.nodup_nil
  accepting acceptor member := by
    obtain ⟨accepts, closed⟩ := List.mem_filter.mp member
    exact absurd (listens.accepting acceptor accepts) (by simpa using closed)
  made := nofun
  completed entry member := by
    rcases List.mem_append.mp member with before | new
    · exact listens.completed entry (fewer entry before)
    · obtain ⟨acceptor, accepts, rfl⟩ := List.mem_map.mp new
      exact listens.made acceptor
        (listens.accepting acceptor (List.mem_of_mem_filter accepts))
  once := nofun

/-- A new acceptor is waited for once it is in the list. -/
theorem listen (listens : Listens state) : Listens state.make.push := by
  let fresh : State :=
    { state with
      made := state.made + 1
      opened := state.opened ++ [state.made] }
  have permuted : state.make.push.waiting.Perm (state.made :: state.waiting) :=
    State.waiting_accept fresh state.made
  have made : state.make.push.made = state.made + 1 := by
    simp [State.make, State.push]
  have acceptors :
      state.make.push.acceptors = state.acceptors ++ [state.made] := by
    simp [State.make, State.push]
  constructor
  · simp [State.make, State.push, listens.opened]
  · rw [acceptors]
    refine List.nodup_append'.mpr ⟨listens.distinct, by simp, ?_⟩
    simpa using fun member => absurd (listens.made _ member) (Nat.lt_irrefl _)
  · intro acceptor member
    rw [acceptors, List.mem_append, List.mem_singleton]
    rcases @State.mem_accepting_accept fresh _ _ member with
      before | isOpen
    · exact .inl (listens.accepting acceptor before)
    · rw [← listens.opened]
      simpa [fresh] using isOpen
  · intro acceptor member
    rw [acceptors, List.mem_append, List.mem_singleton] at member
    rw [made]
    rcases member with before | rfl
    · exact Nat.lt_succ_of_lt (listens.made acceptor before)
    · exact Nat.lt_succ_self _
  · intro entry member
    rw [made]
    rcases @State.mem_completed_accept fresh _ _ member with
      before | same
    · exact Nat.lt_succ_of_lt (listens.completed entry before)
    · exact same ▸ Nat.lt_succ_self _
  · intro acceptor member
    rw [acceptors, List.mem_append, List.mem_singleton] at member
    rw [permuted.count_eq]
    rcases member with before | rfl
    · have older := listens.made acceptor before
      rw [List.count_cons_of_ne (Nat.ne_of_gt older)]
      exact listens.once acceptor before
    · have unknown : state.made ∉ state.waiting :=
        fun waits => Nat.lt_irrefl _ (listens.lt_made waits)
      rw [List.count_cons_self, List.count_eq_zero.mpr unknown]

end Listens

/-! ## The port -/

namespace State

/-- The new acceptor is open, so that it is accepted from. -/
theorem make_eq (state : State) :
    state.make =
      { state with
        made := state.made + 1
        opened := state.opened ++ [state.made]
        accepting := state.accepting ++ [state.made] } := by
  simp [make, accept]

theorem push_make_keeps (state : State) :
    state.make.push.serverPort = state.serverPort ∧
      state.make.push.pendingStart = state.pendingStart ∧
      state.make.push.retries = state.retries := by
  rw [make_eq]
  exact ⟨rfl, rfl, rfl⟩

theorem accept_eq (state : State) (acceptor : Nat) :
    state.accept acceptor =
      { state with
        accepting := (state.accept acceptor).accepting
        completed := (state.accept acceptor).completed } := by
  simp only [accept]
  split <;> rfl

/-- Outside of `open` nothing is left to do. -/
theorem finish_of_idle
    {state : State}
    (idle : state.pieces = []) : state.finish = state := by
  rw [finish, idle, List.foldl_nil, ← idle]

/-- What commutes with the steps of `open` commutes with its end. -/
theorem finish_comm
    {kept : State → Prop}
    {change : State → State}
    (pieces : ∀ state left, change { state with pieces := left } =
      { change state with pieces := left })
    (keeps : ∀ state piece, kept state → kept (state.proceed piece))
    (comm : ∀ state piece, kept state →
      (change state).proceed piece = change (state.proceed piece))
    (free : ∀ state left, kept state → kept { state with pieces := left })
    {state : State}
    (holds : kept state)
    (same : (change state).pieces = state.pieces) :
    (change state).finish = change state.finish ∧ kept state.finish := by
  have runs : ∀ (left : List Piece) (state : State), kept state →
      left.foldl proceed (change state) = change (left.foldl proceed state) ∧
        kept (left.foldl proceed state) := by
    intro left
    induction left with
    | nil => exact fun _ holds => ⟨rfl, holds⟩
    | cons piece left inductionHypothesis =>
        intro state holds
        rw [List.foldl_cons, List.foldl_cons, comm state piece holds]
        exact inductionHypothesis _ (keeps state piece holds)
  rw [finish, finish, same, ← pieces]
  exact runs state.pieces _ (free state [] holds)

/-- A step of `open` leaves the services and the connections alone. -/
theorem proceed_keeps (state : State) (piece : Piece) :
    (state.proceed piece).services = state.services ∧
      (state.proceed piece).connections = state.connections ∧
      (state.proceed piece).pieces = state.pieces := by
  cases piece with
  | accept =>
      rw [proceed, make_eq]
      exact ⟨rfl, rfl, rfl⟩
  | push => exact ⟨rfl, rfl, rfl⟩
  | schedule port => exact ⟨rfl, rfl, rfl⟩

/-- So does all of `open`. -/
theorem finish_keeps (state : State) :
    state.finish.services = state.services ∧
      state.finish.connections = state.connections := by
  have runs : ∀ (left : List Piece) (state : State),
      (left.foldl proceed state).services = state.services ∧
        (left.foldl proceed state).connections = state.connections := by
    intro left
    induction left with
    | nil => exact fun _ => ⟨rfl, rfl⟩
    | cons piece left inductionHypothesis =>
        intro state
        obtain ⟨services, connections, -⟩ := state.proceed_keeps piece
        obtain ⟨servicesAfter, connectionsAfter⟩ :=
          inductionHypothesis (state.proceed piece)
        exact ⟨servicesAfter.trans services,
          connectionsAfter.trans connections⟩
  exact runs state.pieces _

/-- The services are counted up beside `open`. -/
theorem finish_add (state : State) (single : Bool) :
    (state.add single).2.finish = (state.finish.add single).2 := by
  have commutes : ∀ services : List Bool,
      { state with services := services }.finish =
        { state.finish with services := services } := by
    intro services
    refine (@finish_comm (fun _ => True)
      (fun state => { state with services := services }) (fun _ _ => rfl)
      (fun _ _ _ => trivial) ?_ (fun _ _ _ => trivial) state trivial rfl).1
    intro state piece _
    cases piece with
    | accept => simp only [proceed, make_eq]
    | push => rfl
    | schedule port => rfl
  have adds : ∀ reached : State, (reached.add single).2 =
      { reached with services :=
        if reached.isSingleSocket || single then reached.services
        else if true ∈ reached.services then reached.services
        else reached.services ++ [single] } := by
    intro reached
    unfold add addService
    split_ifs <;> rfl
  rw [adds, adds, commutes, isSingleSocket, isSingleSocket,
    state.finish_keeps.1]

/-- An `async_accept` may end beside `open`. -/
theorem finish_complete
    {state : State}
    {acceptor : Nat}
    (waits : acceptor ∈ state.accepting)
    (completion : Completion) :
    { state with
        accepting := state.accepting.erase acceptor
        completed := state.completed ++ [(acceptor, completion)] }.finish =
        { state.finish with
          accepting := state.finish.accepting.erase acceptor
          completed := state.finish.completed ++ [(acceptor, completion)] } ∧
      acceptor ∈ state.finish.accepting := by
  refine @finish_comm (fun state => acceptor ∈ state.accepting)
    (fun state =>
      { state with
        accepting := state.accepting.erase acceptor
        completed := state.completed ++ [(acceptor, completion)] })
    (fun _ _ => rfl) ?_ ?_ (fun _ _ waits => waits) state waits rfl
  · intro state piece waits
    cases piece with
    | accept =>
        rw [proceed, make_eq]
        exact List.mem_append_left _ waits
    | push => exact waits
    | schedule port => exact waits
  · intro state piece waits
    cases piece with
    | accept =>
        simp only [proceed, make_eq, List.erase_append_left _ waits]
    | push => rfl
    | schedule port => rfl

theorem finish_proceed
    {state : State}
    {piece : Piece}
    {rest : List Piece}
    (left : state.pieces = piece :: rest) :
    ({ state with pieces := rest }.proceed piece).finish = state.finish := by
  have pieces : ({ state with pieces := rest }.proceed piece).pieces = rest :=
    (State.proceed_keeps _ piece).2.2
  have same : { { state with pieces := rest }.proceed piece with pieces := [] } =
      { state with pieces := [] }.proceed piece := by
    cases piece with
    | accept => simp only [proceed, make_eq]
    | push => rfl
    | schedule port => rfl
  rw [finish, finish, pieces, same, left, List.foldl_cons]

theorem pieces_onAccept
    (state : State)
    (acceptor : Nat)
    (completion : Completion) :
    (state.onAccept acceptor completion).pieces = state.pieces := by
  cases completion with
  | connected known =>
      simp only [onAccept]
      split
      · rfl
      · rw [accept_eq]
        split <;> rfl
  | failed =>
      simp only [onAccept]
      split <;> rfl
  | aborted => rfl

theorem failed_keeps (state : State) (acceptor : Nat) :
    (state.onAccept acceptor .failed).services = state.services ∧
      (state.onAccept acceptor .failed).connections = state.connections := by
  simp only [onAccept]
  split <;> exact ⟨rfl, rfl⟩

end State

/-- The port can be reached, or will be again. -/
structure Hears (port : UInt16) (state : State) : Prop where
  /-- Its acceptors are waited for. -/
  listens : Listens state
  /-- It keeps its number. -/
  serverPort : state.serverPort = port
  /-- One event opens it again if `m_pendingStart` is set, and none if not. -/
  retried : state.retries = if state.pendingStart then [port] else []
  /-- It has acceptors if it is not to be opened again. -/
  heard : state.pendingStart = true ∨ state.acceptors ≠ []

/-- What holds of a port. -/
structure Serves (port : UInt16) (state : State) : Prop where
  /-- Clients can reach it. -/
  hears : Hears port state
  /-- There is a service. -/
  served : state.services ≠ []
  /-- A service that sends first is alone. -/
  alone : true ∈ state.services → state.services = [true]
  /-- The protocol of a connection is made at once if and only if there is
  such a service. -/
  greeted : ∀ atOnce ∈ state.connections, atOnce = state.isSingleSocket

namespace Hears

variable {port : UInt16} {state : State}

theorem schedule
    (listens : Listens state)
    (same : state.serverPort = port)
    (idle : state.retries = []) :
    Hears port (state.schedule port) where
  listens := listens.update _ _ _ _ _ _
  serverPort := same
  retried := by simp [State.schedule, idle]
  heard := .inl rfl

theorem listen
    (listens : Listens state)
    (same : state.serverPort = port)
    (started : state.pendingStart = false)
    (idle : state.retries = []) :
    Hears port state.make.push where
  listens := listens.listen
  serverPort := state.push_make_keeps.1.trans same
  retried := by
    obtain ⟨-, pendingStart, retries⟩ := state.push_make_keeps
    simp [pendingStart, retries, started, idle]
  heard := by simp [State.push]

theorem openPort
    (listens : Listens state)
    (idle : state.retries = [])
    (port : UInt16)
    (opening : Opening) :
    Hears port (state.openPort port opening) := by
  have started : Listens
      { state with serverPort := port, pendingStart := false, pieces := [] } :=
    listens.update _ _ _ _ _ _
  cases opening with
  | refused => exact schedule started rfl idle
  | together => exact listen started rfl rfl idle
  | apart second =>
      have first := listen started rfl rfl idle
      obtain ⟨-, pendingStart, retries⟩ := State.push_make_keeps
        { state with serverPort := port, pendingStart := false, pieces := [] }
      have idle := retries.trans idle
      cases second with
      | false => exact schedule first.listens first.serverPort idle
      | true => exact listen first.listens first.serverPort pendingStart idle

/-- The handler of an error closes the port, and opens it again later. -/
theorem failed
    (hears : Hears port state)
    {acceptor : Nat} :
    Hears port
      ({ state with
        completed :=
          state.completed.erase (acceptor, .failed) }.onAccept acceptor
            .failed) := by
  let handled : State :=
    { state with completed := state.completed.erase (acceptor, .failed) }
  have closed : Listens handled.close :=
    hears.listens.close fun _ member => List.mem_of_mem_erase member
  obtain rfl := hears.serverPort
  change Hears state.serverPort
    (if handled.close.pendingStart then handled.close
    else handled.close.schedule state.serverPort)
  split
  case isTrue pending =>
    exact ⟨closed, rfl, hears.retried, .inl pending⟩
  case isFalse started =>
    have idle : state.retries = [] := hears.retried.trans (if_neg started)
    exact schedule closed rfl idle

end Hears

namespace Serves

variable {port : UInt16} {state : State}

theorem add
    (serves : Serves port state)
    (single : Bool) : Serves port (state.add single).2 := by
  unfold State.add State.addService
  split
  case isTrue => exact serves
  case isFalse refused =>
    split
    case isTrue => exact serves
    case isFalse absent =>
      obtain ⟨first, rest, services⟩ := List.exists_cons_of_ne_nil serves.served
      refine ⟨⟨serves.hears.listens.update _ _ _ _ _ _,
        serves.hears.serverPort, serves.hears.retried, serves.hears.heard⟩,
        by simp, ?_, ?_⟩
      · intro member
        rcases List.mem_append.mp member with before | new
        · exact absurd before absent
        · have added : true = single := List.mem_singleton.mp new
          simp [← added] at refused
      · intro atOnce member
        rw [serves.greeted atOnce member]
        simp [State.isSingleSocket, services]

/-- The services and the connections are the same. -/
theorem of_hears
    {state' : State}
    (serves : Serves port state)
    (hears : Hears port state')
    (services : state'.services = state.services)
    (connections : state'.connections = state.connections) :
    Serves port state' where
  hears := hears
  served := services ▸ serves.served
  alone := services ▸ serves.alone
  greeted := by
    rw [connections, State.isSingleSocket, services]
    exact serves.greeted

/-- A handler that runs outside of `open`. -/
theorem handle
    (serves : Serves port state)
    {acceptor : Nat}
    {completion : Completion}
    (waits : (acceptor, completion) ∈ state.completed) :
    Serves port
      ({ state with
        completed :=
          state.completed.erase (acceptor, completion) }.onAccept acceptor
            completion) := by
  have hears := serves.hears
  cases completion with
  | connected known =>
      have goes : ∀ connections,
          (∀ atOnce ∈ connections, atOnce = state.isSingleSocket) →
          Serves port
            ({ state with
              completed :=
                state.completed.erase (acceptor, .connected known)
              connections := connections }.accept acceptor) := by
        intro connections all
        have listens := hears.listens.reaccept waits nofun connections
        rw [State.accept_eq] at listens ⊢
        exact ⟨⟨listens, hears.serverPort, hears.retried, hears.heard⟩,
          serves.served, serves.alone, all⟩
      simp only [State.onAccept, serves.served, ↓reduceIte]
      cases known with
      | false => exact goes state.connections serves.greeted
      | true =>
          refine goes _ fun atOnce member => ?_
          rcases List.mem_append.mp member with before | new
          · exact serves.greeted atOnce before
          · exact List.mem_singleton.mp new
  | failed =>
      obtain ⟨services, connections⟩ := State.failed_keeps
        { state with
          completed := state.completed.erase (acceptor, .failed) }
        acceptor
      exact serves.of_hears hears.failed services connections
  | aborted =>
      exact serves.of_hears
        ⟨hears.listens.aborted waits, hears.serverPort, hears.retried,
          hears.heard⟩ rfl rfl

/-- A step keeps what holds of the port at the end of `open`. -/
theorem step
    {action : Action}
    {state' : State}
    (serves : Serves port state.finish)
    (serial : Serial state action)
    (taken : ServicePort.step state action = some state') :
    Serves port state'.finish := by
  have hears := serves.hears
  cases action with
  | add single =>
      cases taken
      rw [State.finish_add]
      exact serves.add single
  | complete acceptor completion =>
      simp only [ServicePort.step] at taken
      split at taken
      case isFalse => cases taken
      case isTrue possible =>
        cases taken
        obtain ⟨commutes, waits⟩ :=
          State.finish_complete possible.1 completion
        rw [commutes]
        exact serves.of_hears
          ⟨hears.listens.complete waits possible.2, hears.serverPort,
            hears.retried, hears.heard⟩ rfl rfl
  | handle acceptor completion =>
      simp only [ServicePort.step] at taken
      split at taken
      case isFalse => cases taken
      case isTrue waits =>
        cases taken
        have idle : state.pieces = [] := serial
        rw [State.finish_of_idle idle] at serves
        rw [State.finish_of_idle (by rw [State.pieces_onAccept, idle])]
        exact serves.handle waits
  | retry opening =>
      simp only [ServicePort.step] at taken
      split at taken
      case h_2 => cases taken
      case h_1 next rest idle queued =>
        cases taken
        rw [State.finish_of_idle idle] at serves hears
        have retried := hears.retried
        rw [queued] at retried
        have only : next = port ∧ rest = [] := by
          split at retried
          case isTrue => simpa using retried
          case isFalse => cases retried
        obtain ⟨rfl, rfl⟩ := only
        let left : State := { state with retries := [] }
        have started : Listens left := hears.listens.update _ _ _ _ _ _
        obtain ⟨services, connections⟩ :=
          (left.begin next opening).finish_keeps
        exact serves.of_hears (Hears.openPort started rfl next opening)
          services connections
  | proceed =>
      simp only [ServicePort.step] at taken
      split at taken
      case h_1 => cases taken
      case h_2 piece rest left =>
        cases taken
        rw [State.finish_proceed left]
        exact serves

end Serves

/-- As long as no handler runs while the dispatcher is in `open`, whatever the
clients and the system do, at the end of the call of `open` one event is queued
that opens the port again if `m_pendingStart` is set, and none if not; if not,
the port has acceptors.  Its acceptors are the ones that are open, and each of
them has one `async_accept` under way, or one handler that will accept again or
reopen the port. -/
theorem port_serves
    (port : UInt16)
    (opening : Opening)
    (single : Bool)
    {actions : List Action}
    (serial : (machine port opening single).Meets Serial
      (machine port opening single).start actions) :
    Serves port ((machine port opening single).after actions).finish := by
  have fresh : Listens {} := ⟨rfl, List.nodup_nil, nofun, nofun, nofun, nofun⟩
  have hears := Hears.openPort fresh rfl port opening
  have idle : (({} : State).openPort port opening).pieces = [] := by
    cases opening with
    | apart second => cases second <;> rfl
    | _ => rfl
  obtain ⟨services, connections⟩ :=
    (({} : State).begin port opening).finish_keeps
  have start : (machine port opening single).start =
      { ({} : State).openPort port opening with services := [single] } := by
    have services : (({} : State).openPort port opening).services = [] :=
      services
    simp [machine, State.addService, services]
  have startIdle : (machine port opening single).start.pieces = [] := by
    rw [start]
    exact idle
  have serves : Serves port (machine port opening single).start.finish := by
    rw [State.finish_of_idle startIdle, start]
    refine ⟨⟨hears.listens.update _ _ _ _ _ _, hears.serverPort, hears.retried,
      hears.heard⟩, List.cons_ne_nil _ _, ?_, ?_⟩
    · simp
    · intro atOnce member
      have connections : (({} : State).openPort port opening).connections = [] :=
        connections
      rw [connections] at member
      exact absurd member List.not_mem_nil
  have keeps : ∀ state action state', Serves port state.finish →
      Serial state action →
      (machine port opening single).step state action = some state' →
      Serves port state'.finish :=
    fun _ _ _ serves serial taken => serves.step serial taken
  exact Machine.run_keeps_of_meets keeps serves serial

/-- The acceptor of a port fails, and the port is opened again. -/
def reopening : List Action :=
  [.complete 0 .failed, .handle 0 .failed, .retry .together, .proceed, .proceed,
    .complete 1 (.connected true), .handle 1 (.connected true)]

theorem port_serves_reopened :
    Serves 4000 ((machine 4000 .together true).after reopening).finish :=
  port_serves 4000 .together true (by decide)

/-- The new acceptor fails before it is in the list, and the handler closes the
acceptors of the list only.  The port has an acceptor then that nobody waits
for. -/
theorem deaf_between :
    ¬ Serves 4000 ((machine 4000 .together true).after
      [.complete 0 .failed, .handle 0 .failed, .retry .together, .proceed,
        .complete 1 .failed, .handle 1 .failed, .proceed]).finish := by
  intro serves
  have waits := serves.hears.listens.once 1 (by decide)
  exact absurd waits (by decide)

end ServicePort
end Network
end Lotospp
