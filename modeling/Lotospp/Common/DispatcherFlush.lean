import Lotospp.Common.Dispatcher
import Lotospp.Effect.Program

/-!
# What `shutdown` runs under the lock

`Dispatcher::flush` runs the queued tasks, and `sendAll` after each of them,
while its thread holds `m_taskLock`, which is not recursive.  `addTask` takes
that lock; and `addTask` is what the deleter of an `OutputMessage_ptr` calls
when the last pointer to a message goes.

A task is given by what it does to the lock and to the pointers, and `sendAll`
by what the connections do with the messages.
-/

namespace Lotospp
namespace Common
namespace DispatcherFlush

open Effect

/-- A task in the list. -/
inductive Task
  /-- A function bound by `createTask`, by number. -/
  | bound (number : Nat)
  /-- `internalReleaseMessage` of a message. -/
  | release (message : Nat)
  deriving DecidableEq, Repr

/-- What concerns the lock in a function. -/
inductive Call
  /-- `Dispatcher::addTask`, perhaps by way of `closeConnection`. -/
  | addTask (task : Task) (pushFront : Bool)
  /-- There is another `OutputMessage_ptr` to the message. -/
  | copy (message : Nat)
  /-- There is one `OutputMessage_ptr` to the message less. -/
  | drop (message : Nat)
  deriving DecidableEq, Repr

/-- What `Connection::send` does with a message. -/
inductive Send
  /-- There is no connection. -/
  | unconnected
  /-- The connection is closing. -/
  | refused
  /-- Another write is pending. -/
  | queued
  /-- The message is written; a failure adds the task that closes the
  connection. -/
  | written (closes : Option Task)
  deriving DecidableEq, Repr

/-- What the tasks, the clock and the connections do. -/
structure Env where
  /-- What a bound function does. -/
  calls : Nat → List Call
  /-- The message is older than `read_timeout`, at this `sendAll`. -/
  old : Nat → Nat → Bool
  /-- What becomes of the message, at this `sendAll`. -/
  send : Nat → Nat → Send
  /-- The message is the `m_outputBuffer` of its protocol. -/
  buffer : Nat → Nat → Bool

/-- The dispatcher and the output pool. -/
structure State where
  /-- `m_threadState`. -/
  threadState : ThreadState := .running
  /-- `m_taskList`. -/
  taskList : List Task := []
  /-- The thread of `shutdown` holds `m_taskLock`. -/
  taskLock : Bool := false
  /-- How many `OutputMessage_ptr` point to a message. -/
  pointers : Nat → Nat := fun _ => 0
  /-- `m_toAddQueue`. -/
  toAddQueue : List Nat := []
  /-- `m_autoSendOutputMessages`. -/
  autoSend : List Nat := []

/-- Why a function does not go on. -/
inductive Stuck
  /-- It locks `m_taskLock`, which its own thread holds. -/
  | taskLock
  /-- A loop has used up its turns. -/
  | turns
  deriving DecidableEq, Repr

/-- A function that is run by the thread of `shutdown`. -/
abbrev FlushM : Type → Type :=
  Prog Stuck State Task

/-- `m_taskLock.lock()`. -/
def lock : FlushM Unit := do
  let state ← Prog.get
  Prog.when (state.taskLock = true) (Prog.raise .taskLock)
  Prog.modify fun state => { state with taskLock := true }

/-- `m_taskLock.unlock()`. -/
def unlock : FlushM Unit :=
  Prog.modify fun state => { state with taskLock := false }

/-- `Dispatcher::addTask`. -/
def addTask (task : Task) (pushFront : Bool) : FlushM Unit := do
  lock
  Prog.modify fun state =>
    if state.threadState = .running then
      { state with
        taskList :=
          if pushFront then task :: state.taskList
          else state.taskList ++ [task] }
    else state
  unlock

/-- `OutputMessagePool::releaseMessage`. -/
def releaseMessage (message : Nat) : FlushM Unit :=
  addTask (.release message) true

/-- Carry out a call. -/
def perform : Call → FlushM Unit
  | .addTask task pushFront => addTask task pushFront
  | .copy message =>
      Prog.modify fun state =>
        { state with
          pointers := Function.update state.pointers message
            (state.pointers message + 1) }
  | .drop message => do
      let state ← Prog.get
      Prog.modify fun state =>
        { state with
          pointers := Function.update state.pointers message
            (state.pointers message - 1) }
      Prog.when (state.pointers message = 1) (releaseMessage message)

/-- What a task does; `internalReleaseMessage` neither locks nor touches a
pointer. -/
def Env.taskCalls (env : Env) : Task → List Call
  | .bound number => env.calls number
  | .release _ => []

/-- `Protocol::onSendMessage`. -/
def Env.onSendMessage (env : Env) (turn message : Nat) : List Call :=
  if env.buffer turn message then [.drop message] else []

/-- The loop of `sendAll` over `m_toAddQueue`: an old message is dropped, any
other one is added to the messages to send. -/
def Env.addCalls (env : Env) (turn message : Nat) : List Call :=
  if env.old turn message then
    env.onSendMessage turn message ++ [.drop message]
  else [.copy message]

/-- What `Connection::send` does, and `onSendMessage` when it fails. -/
def Env.connectionSend (env : Env) (turn message : Nat) : List Call :=
  match env.send turn message with
  | .unconnected => []
  | .refused => env.onSendMessage turn message
  | .queued => [.copy message]
  | .written closes =>
      env.onSendMessage turn message ++
        (closes.toList.map fun task => .addTask task false)

/-- The loop of `sendAll` over `m_autoSendOutputMessages`: `omsg` is copied
from the list, and goes after the element of the list. -/
def Env.sendCalls (env : Env) (turn message : Nat) : List Call :=
  .copy message :: env.connectionSend turn message ++
    [.drop message, .drop message]

/-- The messages that `sendAll` sends. -/
def Env.sent (env : Env) (turn : Nat) (toAddQueue autoSend : List Nat) :
    List Nat :=
  autoSend ++ toAddQueue.filter fun message => !env.old turn message

/-- What `sendAll` does: `m_toAddQueue.clear()` is between its loops. -/
def Env.sendAllCalls
    (env : Env)
    (turn : Nat)
    (toAddQueue autoSend : List Nat) : List Call :=
  toAddQueue.flatMap (env.addCalls turn) ++
    ((toAddQueue.filter fun message => !env.old turn message).map .drop) ++
    (env.sent turn toAddQueue autoSend).flatMap (env.sendCalls turn)

/-- What `sendAll` leaves in `m_toAddQueue`. -/
def Env.requeued (env : Env) (turn : Nat) (toAddQueue autoSend : List Nat) :
    List Nat :=
  (env.sent turn toAddQueue autoSend).filter fun message =>
    env.send turn message = .queued

/-- `OutputMessagePool::sendAll`. -/
def sendAll (env : Env) (turn : Nat) : FlushM Unit := do
  let state ← Prog.get
  Prog.forEach (env.sendAllCalls turn state.toAddQueue state.autoSend) perform
  Prog.modify fun after =>
    { after with
      toAddQueue := env.requeued turn state.toAddQueue state.autoSend
      autoSend := [] }

/-- A turn of the loop of `flush` with its task. -/
def flushTask (env : Env) (turn : Nat) (task : Task) : FlushM Unit := do
  Prog.forEach (env.taskCalls task) perform
  Prog.emit task
  sendAll env turn

/-- `Dispatcher::flush`, of at most `turns` turns. -/
def flush (env : Env) : (turns : Nat) → (turn : Nat) → FlushM Unit
  | 0, _ => do
      let state ← Prog.get
      Prog.when (state.taskList ≠ []) (Prog.raise .turns)
  | turns + 1, turn => do
      let state ← Prog.get
      match state.taskList with
      | [] => pure ()
      | task :: rest => do
          Prog.modify fun state => { state with taskList := rest }
          flushTask env turn task
          flush env turns (turn + 1)

/-- `Dispatcher::shutdown`. -/
def shutdown (env : Env) (turns : Nat) : FlushM Unit := do
  lock
  Prog.modify fun state => { state with threadState := .terminated }
  flush env turns 0
  unlock

/-! ## Which calls lock -/

/-- None of the calls locks `m_taskLock`: there is no `addTask` among them,
and no drop of the last pointer to a message. -/
def Silent : (pointers : Nat → Nat) → List Call → Prop
  | _, [] => True
  | _, .addTask _ _ :: _ => False
  | pointers, .copy message :: calls =>
      Silent (Function.update pointers message (pointers message + 1)) calls
  | pointers, .drop message :: calls =>
      pointers message ≠ 1 ∧
        Silent (Function.update pointers message (pointers message - 1)) calls

/-- The pointers after calls. -/
def pointersAfter : (pointers : Nat → Nat) → List Call → Nat → Nat
  | pointers, [] => pointers
  | pointers, .addTask _ _ :: calls => pointersAfter pointers calls
  | pointers, .copy message :: calls =>
      pointersAfter
        (Function.update pointers message (pointers message + 1)) calls
  | pointers, .drop message :: calls =>
      pointersAfter
        (Function.update pointers message (pointers message - 1)) calls

theorem silent_append
    (pointers : Nat → Nat) (first second : List Call) :
    Silent pointers (first ++ second) ↔
      Silent pointers first ∧
        Silent (pointersAfter pointers first) second := by
  induction first generalizing pointers with
  | nil => simp [Silent, pointersAfter]
  | cons call calls inductionHypothesis =>
      cases call <;>
        simp [Silent, pointersAfter, inductionHypothesis, and_assoc]

theorem pointersAfter_append
    (pointers : Nat → Nat) (first second : List Call) :
    pointersAfter pointers (first ++ second) =
      pointersAfter (pointersAfter pointers first) second := by
  induction first generalizing pointers with
  | nil => rfl
  | cons call calls inductionHypothesis =>
      cases call <;> simp [pointersAfter, inductionHypothesis]

/-- The calls of the tasks of a list, with `sendAll` after each of them. -/
def Env.flushCalls (env : Env) :
    (turn : Nat) → List Task → (toAddQueue autoSend : List Nat) → List Call
  | _, [], _, _ => []
  | turn, task :: rest, toAddQueue, autoSend =>
      env.taskCalls task ++ env.sendAllCalls turn toAddQueue autoSend ++
        env.flushCalls (turn + 1) rest
          (env.requeued turn toAddQueue autoSend) []

/-- Who holds the lock does not get it again. -/
theorem run_addTask_locked
    {state : State}
    (locked : state.taskLock = true)
    (task : Task)
    (pushFront : Bool) :
    (addTask task pushFront).run state =
      ⟨.error .taskLock, state, []⟩ := by
  simp [addTask, lock, locked, Prog.when]

/-- Under the lock, silent calls only move pointers, and the others get
stuck. -/
theorem run_calls_locked
    {state : State}
    (locked : state.taskLock = true)
    (calls : List Call) :
    (Silent state.pointers calls →
      (Prog.forEach calls perform).run state =
        ⟨.ok (), { state with
          pointers := pointersAfter state.pointers calls }, []⟩) ∧
    (¬ Silent state.pointers calls →
      ∃ state', (Prog.forEach calls perform).run state =
        ⟨.error .taskLock, state', []⟩) := by
  induction calls generalizing state with
  | nil => simp [Silent, pointersAfter]
  | cons call calls inductionHypothesis =>
      rw [Prog.forEach_cons]
      cases call with
      | addTask task pushFront =>
          refine ⟨False.elim, fun _ => ⟨state, ?_⟩⟩
          exact Prog.run_bind_error
            (run_addTask_locked locked task pushFront) _
      | copy message =>
          exact @inductionHypothesis { state with
            pointers := Function.update state.pointers message
              (state.pointers message + 1) } locked
      | drop message =>
          by_cases last : state.pointers message = 1
          · refine ⟨fun silent => absurd last silent.1, fun _ => ?_⟩
            simp [perform, last, releaseMessage, addTask, lock, locked,
              Prog.when]
          · have rest := @inductionHypothesis { state with
              pointers := Function.update state.pointers message
                (state.pointers message - 1) } locked
            simpa [Silent, perform, pointersAfter, Prog.when, last] using rest

/-- Under the lock, `sendAll` leaves the list of tasks alone if its calls are
silent, and gets stuck otherwise. -/
theorem run_sendAll_locked
    {env : Env}
    {state : State}
    (locked : state.taskLock = true)
    (turn : Nat) :
    (Silent state.pointers
        (env.sendAllCalls turn state.toAddQueue state.autoSend) →
      (sendAll env turn).run state =
        ⟨.ok (), { state with
          pointers := pointersAfter state.pointers
            (env.sendAllCalls turn state.toAddQueue state.autoSend)
          toAddQueue := env.requeued turn state.toAddQueue state.autoSend
          autoSend := [] }, []⟩) ∧
    (¬ Silent state.pointers
        (env.sendAllCalls turn state.toAddQueue state.autoSend) →
      ∃ state', (sendAll env turn).run state =
        ⟨.error .taskLock, state', []⟩) := by
  obtain ⟨silent, stuck⟩ := run_calls_locked locked
    (env.sendAllCalls turn state.toAddQueue state.autoSend)
  refine ⟨fun isSilent => ?_, fun notSilent => ?_⟩
  · rw [sendAll, Prog.run_get_bind, Prog.run_bind_ok (silent isSilent)]
    rfl
  · obtain ⟨state', ran⟩ := stuck notSilent
    refine ⟨state', ?_⟩
    rw [sendAll, Prog.run_get_bind, Prog.run_bind_error ran]

/-- Under the lock, a turn of `flush` ends if its calls are silent, and gets
stuck otherwise. -/
theorem run_flushTask_locked
    {env : Env}
    {state : State}
    (locked : state.taskLock = true)
    (turn : Nat)
    (task : Task) :
    (Silent state.pointers (env.taskCalls task ++
        env.sendAllCalls turn state.toAddQueue state.autoSend) →
      (flushTask env turn task).run state =
        ⟨.ok (), { state with
          pointers := pointersAfter state.pointers (env.taskCalls task ++
            env.sendAllCalls turn state.toAddQueue state.autoSend)
          toAddQueue := env.requeued turn state.toAddQueue state.autoSend
          autoSend := [] }, [task]⟩) ∧
    (¬ Silent state.pointers (env.taskCalls task ++
        env.sendAllCalls turn state.toAddQueue state.autoSend) →
      ∃ state' obs, (flushTask env turn task).run state =
        ⟨.error .taskLock, state', obs⟩) := by
  obtain ⟨taskSilent, taskStuck⟩ :=
    run_calls_locked locked (env.taskCalls task)
  obtain ⟨sendSilent, sendStuck⟩ := @run_sendAll_locked env
    { state with
      pointers := pointersAfter state.pointers (env.taskCalls task) }
    locked turn
  rw [silent_append, pointersAfter_append]
  refine ⟨fun silent => ?_, fun notSilent => ?_⟩
  · rw [flushTask, Prog.run_bind_ok (taskSilent silent.1), Prog.run_emit_bind,
      sendSilent silent.2]
    rfl
  · by_cases first : Silent state.pointers (env.taskCalls task)
    · obtain ⟨state', ran⟩ := sendStuck fun second =>
        notSilent ⟨first, second⟩
      refine ⟨state', [task], ?_⟩
      rw [flushTask, Prog.run_bind_ok (taskSilent first), Prog.run_emit_bind,
        ran]
      rfl
    · obtain ⟨state', ran⟩ := taskStuck first
      exact ⟨state', [], Prog.run_bind_error ran _⟩

/-- Under the lock, `flush` runs all tasks if the calls are silent, and gets
stuck otherwise. -/
theorem run_flush_locked
    {env : Env}
    {taskList : List Task}
    {turns : Nat}
    (enough : taskList.length ≤ turns)
    {state : State}
    (locked : state.taskLock = true)
    (queued : state.taskList = taskList)
    (turn : Nat) :
    (Silent state.pointers
        (env.flushCalls turn taskList state.toAddQueue state.autoSend) →
      ∃ state', (flush env turns turn).run state =
        ⟨.ok (), state', taskList⟩ ∧ state'.taskList = []) ∧
    (¬ Silent state.pointers
        (env.flushCalls turn taskList state.toAddQueue state.autoSend) →
      ∃ state' obs, (flush env turns turn).run state =
        ⟨.error .taskLock, state', obs⟩) := by
  induction taskList generalizing turns state turn with
  | nil =>
      refine ⟨fun _ => ⟨state, ?_, queued⟩, fun stuck => absurd trivial stuck⟩
      cases turns <;> simp [flush, queued]
  | cons task rest inductionHypothesis =>
      obtain ⟨turns, rfl⟩ : ∃ fewer, turns = fewer + 1 :=
        ⟨turns - 1, by simp at enough; omega⟩
      have unfolded : (flush env (turns + 1) turn).run state =
          (flushTask env turn task >>= fun _ =>
            flush env turns (turn + 1)).run { state with taskList := rest } := by
        simp [flush, queued]
      rw [unfolded, Env.flushCalls, silent_append]
      obtain ⟨taskSilent, taskStuck⟩ := @run_flushTask_locked env
        { state with taskList := rest } locked turn task
      obtain ⟨restSilent, restStuck⟩ := @inductionHypothesis turns
        (by simpa using enough)
        { state with
          taskList := rest
          pointers := pointersAfter state.pointers (env.taskCalls task ++
            env.sendAllCalls turn state.toAddQueue state.autoSend)
          toAddQueue := env.requeued turn state.toAddQueue state.autoSend
          autoSend := [] }
        locked rfl (turn + 1)
      refine ⟨fun silent => ?_, fun notSilent => ?_⟩
      · obtain ⟨state', ran, empty⟩ := restSilent silent.2
        refine ⟨state', ?_, empty⟩
        rw [Prog.run_bind_ok (taskSilent silent.1), ran]
        rfl
      · by_cases first : Silent state.pointers (env.taskCalls task ++
            env.sendAllCalls turn state.toAddQueue state.autoSend)
        · obtain ⟨state', obs, ran⟩ := restStuck fun second =>
            notSilent ⟨first, second⟩
          refine ⟨state', [task] ++ obs, ?_⟩
          rw [Prog.run_bind_ok (taskSilent first), ran]
          rfl
        · obtain ⟨state', obs, ran⟩ := taskStuck first
          exact ⟨state', obs, Prog.run_bind_error ran _⟩

/-! ## Whether `shutdown` returns -/

/-- `shutdown` runs the queued tasks, each once and in order, and returns with
the list empty and the lock free. -/
structure Returns (env : Env) (state : State) : Prop where
  /-- It returns. -/
  val : ((shutdown env state.taskList.length).run state).val = .ok ()
  /-- The queued tasks have been run. -/
  ran : ((shutdown env state.taskList.length).run state).obs = state.taskList
  /-- The list is empty. -/
  empty : ((shutdown env state.taskList.length).run state).state.taskList = []
  /-- The lock is free. -/
  free :
    ((shutdown env state.taskList.length).run state).state.taskLock = false

/-- `shutdown` returns if and only if neither a queued task nor a `sendAll`
after one calls `addTask` or drops the last pointer to a message. -/
theorem shutdown_returns_iff
    (env : Env)
    (state : State)
    (free : state.taskLock = false) :
    Returns env state ↔
      Silent state.pointers
        (env.flushCalls 0 state.taskList state.toAddQueue state.autoSend) := by
  have unfolded : (shutdown env state.taskList.length).run state =
      (flush env state.taskList.length 0 >>= fun _ => unlock).run
        { state with taskLock := true, threadState := .terminated } := by
    simp [shutdown, lock, Prog.when, free]
  obtain ⟨silent, stuck⟩ := @run_flush_locked env state.taskList
    state.taskList.length (Nat.le_refl _)
    { state with taskLock := true, threadState := .terminated } rfl rfl 0
  constructor
  · intro returns
    by_contra notSilent
    obtain ⟨state', obs, ran⟩ := stuck notSilent
    have val := returns.val
    rw [unfolded, Prog.run_bind_error ran] at val
    cases val
  · intro isSilent
    obtain ⟨state', ran, empty⟩ := silent isSilent
    have ended : (shutdown env state.taskList.length).run state =
        ⟨.ok (), { state' with taskLock := false }, state.taskList⟩ := by
      rw [unfolded, Prog.run_bind_ok ran]
      simp [unlock]
    constructor <;> rw [ended]
    exact empty

/-- A message is released while another one, to which a pointer remains, is
sent. -/
theorem shutdown_returns_iff_of_two :
    Returns
        ⟨fun _ => [], fun _ _ => false, fun _ _ => .written none,
          fun _ _ => false⟩
        ⟨.running, [.release 1, .bound 0], false, fun _ => 2, [0], []⟩ ↔
      Silent (fun _ => 2) [.copy 0, .drop 0, .copy 0, .drop 0, .drop 0] :=
  shutdown_returns_iff _ _ rfl

/-- A task that closes a connection is in the list; or a message is left in
`m_toAddQueue`, and its connection is closed when `sendAll` comes to it after
an innocent task. -/
theorem shutdown_gets_stuck :
    ¬ Returns
        ⟨fun _ => [.addTask (.bound 1) false], fun _ _ => false,
          fun _ _ => .refused, fun _ _ => false⟩
        ⟨.running, [.bound 0], false, fun _ => 0, [], []⟩ ∧
    ¬ Returns
        ⟨fun _ => [], fun _ _ => false, fun _ _ => .refused,
          fun _ _ => false⟩
        ⟨.running, [.release 1], false, fun _ => 1, [0], []⟩ := by
  constructor
  · rintro ⟨val, -⟩
    cases val
  · rintro ⟨val, -⟩
    cases val

end DispatcherFlush
end Common
end Lotospp
