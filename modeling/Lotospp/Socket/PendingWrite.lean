import Lotospp.Socket.Invariant

/-!
# Pending writes

A write is over when `internalSend` returns, and `m_pendingWrite` is zero
again: `onWriteOperation` takes back what has been counted, or `closeSocket`
resets it.  An exception of the timer is caught behind the count, and then
nothing takes it back.
-/

namespace Lotospp
namespace Socket

open Common Effect

/-- The timer does not throw while the message is written, so that
`internalSend` catches no exception. -/
def Calm (write : Write) : Prop :=
  write.timerThrows = false ∧ write.cancelThrows = false

/-- What holds of a connection with so many writes in progress. -/
structure Writing
    (count : Int)
    (state : State)
    (past : List Obs) : Prop where
  /-- They are counted. -/
  pendingWrite : state.pendingWrite = count
  /-- The socket of an open connection has not been closed. -/
  isOpen : state.connectionState = .open → state.socket ≠ .closed
  /-- Nor has the socket that is written to. -/
  writes : count ≠ 0 → state.socket ≠ .closed
  /-- The connection does not wait for a write to close. -/
  notClosing : state.connectionState ≠ .closing
  /-- No message has been put off. -/
  noQueue : Obs.addedToAutoSend ∉ past

/-- What holds when an exception leaves a function: whoever catches a
`system_error` finds no write in progress. -/
def Left (thrown : Throw) (state : State) (past : List Obs) : Prop :=
  thrown = .systemError → Writing 0 state past

/-- No `system_error` leaves a function. -/
def Quiet (thrown : Throw) (_ : State) (_ : List Obs) : Prop :=
  thrown ≠ .systemError

/-- What holds after the socket has been closed. -/
structure Halted (state : State) (past : List Obs) : Prop where
  pendingWrite : state.pendingWrite = 0
  notClosing : state.connectionState ≠ .closing
  noQueue : Obs.addedToAutoSend ∉ past

namespace Writing

variable {count : Int} {state : State} {past : List Obs}

theorem blind : Blind (Writing count) := by
  rintro state state' past ⟨connectionState, -, pendingWrite, socket, -, -⟩
    ⟨counted, isOpen, writes, notClosing, noQueue⟩
  exact ⟨pendingWrite.trans counted, by rwa [connectionState, socket],
    by rwa [socket], by rwa [connectionState], noQueue⟩

theorem exits : Exits (Writing 0) Left where
  blind := blind
  blindExit _ := fun state state' past same left caught =>
    blind state state' past same (left caught)
  leaves _ _ _ idle _ := idle
  caught _ _ left := left rfl

/-- A request changes nothing for the writes. -/
theorem requested (writing : Writing count state past) :
    Writing count state.requested past := by
  obtain ⟨counted, isOpen, writes, notClosing, noQueue⟩ := writing
  unfold State.requested
  split
  · exact ⟨counted, fun wrong => absurd wrong (by simp), writes, by simp,
      noQueue⟩
  · exact ⟨counted, fun wrong => absurd wrong (by simp), writes, by simp,
      noQueue⟩

end Writing

section Writes

variable {count : Int}
variable {exit : Throw → State → List Obs → Prop}

theorem closeConnection_writing :
    Prog.Preserves (Writing count) exit closeConnection := by
  intro state past writing
  rw [run_closeConnection, Run.ends_ok, List.append_nil]
  split
  · exact writing
  · exact writing.requested

/-- No write is in progress on a socket that has been closed. -/
theorem closeSocket_halted
    (leaves : ∀ state past, exit .nullSocket state past) :
    Prog.Spec (Writing count) closeSocket (fun _ => Halted) exit := by
  intro state past writing
  rw [run_closeSocket]
  cases socket : state.socket with
  | «open» =>
      simp only [Run.ends_ok, List.append_nil]
      exact ⟨rfl, writing.notClosing, writing.noQueue⟩
  | closed =>
      have none : count = 0 := by
        by_contra some
        exact writing.writes some socket
      simp only [Run.ends_ok, List.append_nil]
      exact ⟨writing.pendingWrite.trans none, writing.notClosing,
        writing.noQueue⟩
  | deleted => exact leaves _ _

/-- The close is requested after the socket has been closed. -/
theorem closeConnection_halted :
    Prog.Spec Halted closeConnection (fun _ => Writing 0) exit := by
  intro state past halted
  rw [run_closeConnection, Run.ends_ok, List.append_nil]
  have idle (state' : State)
      (pendingWrite : state'.pendingWrite = state.pendingWrite)
      (notOpen : state'.connectionState ≠ .open)
      (notClosing : state'.connectionState ≠ .closing) :
      Writing 0 state' past :=
    ⟨pendingWrite.trans halted.pendingWrite, fun isOpen => absurd isOpen notOpen,
      fun some => absurd rfl some, notClosing, halted.noQueue⟩
  split
  · rename_i done
    refine idle state rfl ?_ halted.notClosing
    rcases done with closed | requested
    · simp [closed]
    · simp [requested]
  · unfold State.requested
    split
    · exact idle _ rfl (by simp) (by simp)
    · exact idle _ rfl (by simp) (by simp)

/-- The socket is closed and the close is requested. -/
theorem closes_writing
    (leaves : ∀ state past, exit .nullSocket state past) :
    Prog.Spec (Writing count)
      (closeSocket >>= fun _ => closeConnection)
      (fun _ => Writing 0) exit :=
  Prog.Spec.bind (closeSocket_halted leaves) fun _ => closeConnection_halted

end Writes

/-! ## Messages -/

/-- A write error leaves the write counted. -/
theorem handleWriteError_writing (error : ErrorCode) :
    Prog.Preserves (Writing 1) Quiet (handleWriteError error) := by
  refine Writing.blind.scopedLock (fun _ _ _ _ _ quiet => quiet)
    (Prog.Preserves.bind ?_ fun _ =>
      Writing.blind.modify fun _ => ⟨rfl, rfl, rfl, rfl, rfl, rfl⟩)
  cases error with
  | operationAborted => exact Prog.Preserves.pure_intro ()
  | eof => exact closeConnection_writing
  | connectionReset => exact closeConnection_writing
  | connectionAborted => exact closeConnection_writing
  | other => exact closeConnection_writing

/-- A timer that does not throw lets the function go on. -/
theorem passes_of_false
    {throws : Bool}
    {inv : State → List Obs → Prop}
    {exit : Throw → State → List Obs → Prop}
    (calm : throws = false) :
    Prog.Preserves inv exit
      (Prog.when throws (Prog.raise .systemError) : ConnectionM Unit) := by
  subst calm
  exact Prog.Preserves.pure_intro ()

/-- The write is over, with or without an error. -/
theorem onWriteOperation_writing
    {write : Write}
    (calm : Calm write) :
    Prog.Spec (Writing 1) (onWriteOperation write) (fun _ => Writing 0)
      Quiet := by
  refine Prog.Spec.bind Writing.blind.lock fun _ =>
    Prog.Spec.bind (passes_of_false calm.2) fun _ =>
      Prog.Spec.bind (keeps_ifError handleWriteError_writing) fun _ =>
        Prog.Spec.get_bind fun state =>
          Prog.Spec.ite (fun _ => ?_) fun _ => ?_
  · have leaves : ∀ state past, Quiet .nullSocket state past := by
      simp [Quiet]
    refine Prog.Spec.bind
      (Prog.Spec.conseq (closeSocket_halted leaves)
        (fun _ _ ⟨same, writing⟩ => same ▸ writing) fun _ _ _ halted => halted)
      fun _ => Prog.Spec.bind closeConnection_halted fun _ =>
        Writing.blind.unlock
  · refine Prog.Spec.bind (Prog.Spec.modify_intro ?_) fun _ =>
      Writing.blind.unlock
    rintro current past ⟨rfl, counted, isOpen, writes, notClosing, noQueue⟩
    refine ⟨?_, isOpen, fun some => absurd rfl some, notClosing, noQueue⟩
    simp only [counted]
    decide

/-- A message is written while no other is. -/
theorem internalSend_writing
    {write : Write}
    (calm : Calm write) :
    Prog.Spec
      (fun state past => state.connectionState = .open ∧
        Writing 0 state past)
      (internalSend write) (fun _ => Writing 0) Left := by
  have logged {exit : Throw → State → List Obs → Prop} :
      Prog.Preserves (Writing 0) exit (logError (pure ())) :=
    Writing.blind.logError (Prog.Preserves.pure_intro ())
  have counts : Prog.Spec
      (fun state past => state.connectionState = .open ∧ Writing 0 state past)
      (Prog.modify fun state =>
        { state with pendingWrite := state.pendingWrite + 1 } :
          ConnectionM Unit) (fun _ => Writing 1) Quiet := by
    apply Prog.Spec.modify_intro
    rintro state past ⟨isOpen, counted, socket, -, notClosing, noQueue⟩
    refine ⟨?_, socket, fun _ => socket isOpen, notClosing, noQueue⟩
    simp only [counted]
    decide
  have handle : Prog.Preserves (Writing 1) Quiet getHandle := by
    refine Prog.Preserves.get_bind fun _ => Prog.Preserves.ite ?_
      (Prog.Preserves.pure_intro ())
    exact Prog.Preserves.raise_intro fun _ _ _ => by simp [Quiet]
  have shown : Prog.Preserves (Writing 1) Quiet (Prog.emit .written) :=
    Prog.Preserves.emit_intro fun _ _ writing =>
      ⟨writing.pendingWrite, writing.isOpen, writing.writes,
        writing.notClosing, by simp [writing.noQueue]⟩
  have reports : Prog.Preserves (Writing 0) Quiet
      (Prog.when write.short (logError (pure ()))) :=
    Prog.Preserves.ite logged (Prog.Preserves.pure_intro ())
  have body := Prog.Spec.bind counts fun _ =>
    Prog.Spec.bind (passes_of_false calm.1) fun _ =>
      Prog.Spec.bind handle fun _ => Prog.Spec.bind shown fun _ =>
        Prog.Spec.bind (onWriteOperation_writing calm) fun _ => reports
  refine Prog.Spec.handle_intro body fun thrown =>
    Prog.Spec.ite (fun isSystemError => ?_) fun other => ?_
  · exact fun _ _ quiet => absurd isSystemError quiet
  · exact Prog.Spec.raise_intro fun _ _ _ isSystemError =>
      absurd isSystemError other

theorem send_writing
    {write : Write}
    (calm : Calm write) :
    Prog.Preserves (Writing 0) Left (send write) := by
  refine Prog.Preserves.bind Writing.blind.lock fun _ =>
    Prog.Spec.get_bind fun state => Prog.Spec.ite (fun _ => ?_) fun isOpen => ?_
  · exact Prog.Spec.conseq
      (Prog.Preserves.bind Writing.blind.unlock fun _ =>
        Prog.Preserves.pure_intro false)
      (fun _ _ ⟨same, idle⟩ => same ▸ idle) fun _ _ _ idle => idle
  · have opened : state.connectionState = .open :=
      not_not.mp fun closed => isOpen (.inl closed)
    refine Prog.Spec.bind (Prog.Spec.ite (fun _ => ?_) fun waits => ?_) fun _ =>
      Prog.Preserves.bind Writing.blind.unlock fun _ =>
        Prog.Preserves.pure_intro true
    · refine Prog.Spec.conseq (internalSend_writing calm) ?_
        fun _ _ _ idle => idle
      rintro current past ⟨rfl, idle⟩
      exact ⟨opened, idle⟩
    · rintro current past ⟨rfl, idle⟩
      exact absurd idle.pendingWrite waits

/-! ## Tasks -/

/-- What holds while a task closes the connection. -/
structure TaskIdle (state : State) (past : List Obs) : Prop where
  pendingWrite : state.pendingWrite = 0
  noQueue : Obs.addedToAutoSend ∉ past

namespace TaskIdle

theorem blind : Blind TaskIdle :=
  fun _ _ _ same idle =>
    ⟨same.pendingWrite.trans idle.pendingWrite, idle.noQueue⟩

variable {state : State} {past : List Obs}

theorem shows
    {observation : Obs}
    (idle : TaskIdle state past)
    (other : observation ≠ .addedToAutoSend) :
    TaskIdle state (past ++ [observation]) :=
  ⟨idle.pendingWrite, by simp [idle.noQueue, other.symm]⟩

/-- Once the connection is closed nothing is written any more. -/
theorem closed (idle : TaskIdle state past) :
    Writing 0 { state with connectionState := .closed } past :=
  ⟨idle.pendingWrite, fun isOpen => absurd isOpen (by simp),
    fun some => absurd rfl some, by simp, idle.noQueue⟩

theorem closeSocket : Prog.Preserves TaskIdle Left closeSocket := by
  intro state past idle
  rw [run_closeSocket]
  cases state.socket with
  | «open» =>
      simp only [Run.ends_ok, List.append_nil]
      exact ⟨rfl, idle.noQueue⟩
  | closed => simpa using idle
  | deleted =>
      simp only [Run.ends_error]
      exact fun wrong => absurd wrong (by decide)

end TaskIdle

/-- The task closes the connection at once, as no write is pending. -/
theorem closeConnectionTask_writing (dispatchThrows : Bool) :
    Prog.Preserves (Writing 0) Left (closeConnectionTask dispatchThrows) := by
  refine Prog.Preserves.bind Writing.blind.lock fun _ =>
    Prog.Spec.get_bind fun state => Prog.Spec.ite (fun _ => ?_) fun _ => ?_
  · refine Prog.Spec.bind (Prog.Spec.emit_intro ?_) fun _ =>
      Writing.blind.unlock
    rintro current past ⟨rfl, idle⟩
    exact ⟨idle.pendingWrite, idle.isOpen, idle.writes, idle.notClosing,
      by simp [idle.noQueue]⟩
  · rintro current past ⟨rfl, idle⟩
    refine (?_ : Prog.Spec TaskIdle _ (fun _ => Writing 0) Left) current past
      ⟨idle.pendingWrite, idle.noQueue⟩
    refine Prog.Spec.bind (Prog.Preserves.ite ?_ (Prog.Preserves.pure_intro ()))
      fun _ => Prog.Spec.bind (Prog.Preserves.modify_intro ?_) fun _ =>
        Prog.Spec.bind (Prog.Spec.ite (fun _ => ?_) fun waits => ?_) fun _ =>
          Writing.blind.unlock
    · exact Prog.Preserves.bind
        (Prog.Preserves.emit_intro fun _ _ idle => idle.shows (by decide))
        fun _ => Prog.Preserves.modify_intro fun _ _ idle =>
          ⟨idle.pendingWrite, idle.noQueue⟩
    · exact fun _ _ idle => ⟨idle.pendingWrite, idle.noQueue⟩
    · exact Prog.Spec.bind TaskIdle.closeSocket fun _ =>
        Prog.Spec.bind
          (Prog.Preserves.emit_intro fun _ _ idle => idle.shows (by decide))
          fun _ => Prog.Spec.bind
            (TaskIdle.blind.releaseConnection dispatchThrows) fun _ =>
              Prog.Spec.modify_intro fun _ _ idle => idle.closed
    · exact absurd (.inl idle.pendingWrite) waits

/-- The invariant of the messages for which no timer throws. -/
theorem writing_invariant : ConnectionInvariant Calm (Writing 0) Left where
  toExits := Writing.exits
  closeConnection := closeConnection_writing
  send _ calm := send_writing calm
  onReadTimeout := Writing.exits.scopedLock
    (Prog.Preserves.get_bind fun _ =>
      Prog.Preserves.ite (closes_writing fun _ _ wrong =>
        absurd wrong (by decide)) (Prog.Preserves.pure_intro ()))
  onWriteTimeout := Writing.exits.scopedLock
    (Prog.Preserves.get_bind fun _ =>
      Prog.Preserves.ite (closes_writing fun _ _ wrong =>
        absurd wrong (by decide)) (Prog.Preserves.pure_intro ()))
  makes _ _ _ idle :=
    ⟨idle.pendingWrite, idle.isOpen, idle.writes, idle.notClosing,
      idle.noQueue⟩
  closeTask dispatchThrows := by
    refine Prog.Preserves.get_bind fun _ => Prog.Preserves.ite ?_
      (Prog.Preserves.pure_intro ())
    refine Prog.Preserves.bind (Prog.Preserves.modify_intro fun _ _ idle => ?_)
      fun _ => closeConnectionTask_writing dispatchThrows
    exact ⟨idle.pendingWrite, idle.isOpen, idle.writes, idle.notClosing,
      idle.noQueue⟩
  onStopOperation cancelThrows := by
    refine Prog.Preserves.bind Writing.blind.lock fun _ =>
      Prog.Preserves.bind
        (Prog.Preserves.ite (Writing.exits.raise .systemError)
          (Prog.Preserves.pure_intro ()))
        fun _ => Prog.Preserves.bind Writing.exits.isOpen fun _ =>
          Prog.Preserves.bind
            (Prog.Preserves.modify_intro fun _ _ idle => ?_)
            fun _ => Writing.blind.unlock
    exact ⟨idle.pendingWrite, fun _ => by simp, fun _ => by simp,
      idle.notClosing, idle.noQueue⟩
  dispatcherStop _ _ idle :=
    ⟨idle.pendingWrite, idle.isOpen, idle.writes, idle.notClosing,
      idle.noQueue⟩

/-- While the server is up, a connection on which no function acts has no
pending write, no message has been put off behind a write, and the connection
does not wait for a write to close. -/
structure WritesEnd (world : World) : Prop where
  /-- Nothing is pending while nobody holds the lock. -/
  idle : world.down = none → world.state.connectionLock = 0 →
    world.state.socket = .open → world.state.pendingWrite = 0
  /-- `send` has put no message off. -/
  noQueue : world.down = none → Obs.addedToAutoSend ∉ world.trace
  /-- `closeConnectionTask` has not left the connection half closed. -/
  notClosing : world.down = none →
    world.state.connectionState ≠ .closing

/-- In every run in which `internalSend` catches no exception the writes
end. -/
theorem writesEnd
    (protocol : Bool)
    (delivery : Delivery)
    (events : List (Nat × Event))
    (first : Allows Calm delivery.reactions)
    (calm : ∀ event ∈ events, event.2.Allowed Calm) :
    WritesEnd (World.after protocol delivery events) := by
  have start : Writing 0 {} [] := by
    constructor <;> simp
  have holds := World.after_keeps writing_invariant start protocol first calm
  have up (alive : (World.after protocol delivery events).down = none) :
      Writing 0 (World.after protocol delivery events).state
        (World.after protocol delivery events).trace := by
    unfold World.Holds at holds
    rwa [alive] at holds
  exact ⟨fun alive _ _ => (up alive).pendingWrite,
    fun alive => (up alive).noQueue, fun alive => (up alive).notClosing⟩

/-- A message is sent on connect and on a packet, and the connection is
closed. -/
theorem writesEnd_closed :
    WritesEnd (World.after true { reactions := [.send {}] }
      [(0, .readCompletion none { reactions := [.send {}, .close] }),
        (1, .closeTask false)]) := by
  refine writesEnd true _ _ ?_ ?_
  · simp [Allows, Calm]
  · simp [Event.Allowed, Allows, Calm]

/-- The timer throws when it is set for a message. -/
theorem timer_not_writesEnd :
    ¬ WritesEnd (World.after true {} [(0, .send { timerThrows := true })]) :=
  fun ends => absurd (ends.idle rfl rfl rfl) (by decide)

/-- Then nothing is left that would close the connection. -/
example :
    let state := (World.after true {} [(0, .send { timerThrows := true }),
      (0, .closeConnection), (1, .closeTask false)]).state
    state.connectionState = .closing ∧ state.socket = .open ∧
      state.closeTasks = 0 ∧ state.connectionLock = 0 := by
  decide

end Socket
end Lotospp
