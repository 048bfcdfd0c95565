import Lotospp.Effect.Machine
import Mathlib.Data.Finset.Max
import Mathlib.Data.Fintype.BigOperators
import Mathlib.Algebra.Order.BigOperators.Group.Finset

/-!
# Locks

Several threads acquire and release locks, each as its program says, in any
order.  A thread that acquires a lock waits until no other thread holds it; it
may acquire a recursive lock again.

If the locks have ranks and every thread acquires them in the order of the
ranks, no interleaving leads to threads that wait for one another, and
whatever has happened the threads can still finish.  Two threads that acquire
two locks in different orders can be led to wait for each other for ever.
-/

namespace Effect

/-- What a thread does to a lock. -/
inductive LockOp (L : Type)
  | acquire (lock : L)
  | release (lock : L)
  deriving DecidableEq, Repr

/-- A thread that uses locks. -/
structure Thread (L : Type) where
  /-- What it has still to do. -/
  rest : List (LockOp L)
  /-- The locks it holds, each as often as it has acquired it. -/
  held : List L

namespace Thread

variable {L : Type}

/-- The lock that the thread acquires next. -/
def wants (thread : Thread L) : Option L :=
  match thread.rest with
  | .acquire lock :: _ => some lock
  | _ => none

/-- The thread after its next operation. -/
def next [DecidableEq L] (thread : Thread L) : Option (Thread L) :=
  match thread.rest with
  | [] => none
  | .acquire lock :: rest => some ⟨rest, lock :: thread.held⟩
  | .release lock :: rest => some ⟨rest, thread.held.erase lock⟩

theorem wants_eq_some_iff
    {thread : Thread L}
    {lock : L} :
    thread.wants = some lock ↔
      ∃ rest, thread.rest = .acquire lock :: rest := by
  obtain ⟨rest, held⟩ := thread
  cases rest with
  | nil => simp [wants]
  | cons op rest =>
      cases op with
      | acquire other => simp [wants, eq_comm]
      | release other => simp [wants]

theorem next_isSome_iff
    [DecidableEq L]
    {thread : Thread L} :
    thread.next.isSome ↔ thread.rest ≠ [] := by
  obtain ⟨rest, held⟩ := thread
  cases rest with
  | nil => simp [next]
  | cons op rest => cases op <;> simp [next]

theorem next_rest
    [DecidableEq L]
    {thread thread' : Thread L}
    (moves : thread.next = some thread') :
    ∃ op, thread.rest = op :: thread'.rest := by
  obtain ⟨rest, held⟩ := thread
  cases rest with
  | nil => simp [next] at moves
  | cons op rest =>
      refine ⟨op, ?_⟩
      cases op <;> simp only [next, Option.some.injEq] at moves <;> rw [← moves]

/-- A thread comes to hold only what it wants. -/
theorem next_held
    [DecidableEq L]
    {thread thread' : Thread L}
    (moves : thread.next = some thread')
    {lock : L}
    (holds : lock ∈ thread'.held) :
    lock ∈ thread.held ∨ thread.wants = some lock := by
  obtain ⟨rest, held⟩ := thread
  cases rest with
  | nil => simp [next] at moves
  | cons op rest =>
      cases op with
      | acquire other =>
          simp only [next, Option.some.injEq] at moves
          subst moves
          rcases List.mem_cons.mp holds with rfl | holds
          · exact .inr rfl
          · exact .inl holds
      | release other =>
          simp only [next, Option.some.injEq] at moves
          subst moves
          exact .inl (List.mem_of_mem_erase holds)

end Thread

/-! ## Programs -/

section Programs

variable {L α : Type} [DecidableEq L]

/-- Acquire a lock, do something while holding it, and release it. -/
def locked (lock : L) (inside : List (LockOp L)) : List (LockOp L) :=
  .acquire lock :: (inside ++ [.release lock])

/-- A program that begins and ends with these locks held acquires a lock only
if it is allowed to with the locks it holds then. -/
def Follows
    (allowed : List L → L → Prop) : List L → List (LockOp L) → List L → Prop
  | held, [], last => held = last
  | held, .acquire lock :: rest, last =>
      allowed held lock ∧ Follows allowed (lock :: held) rest last
  | held, .release lock :: rest, last =>
      Follows allowed (held.erase lock) rest last

/-- The program gives back what it acquires. -/
def Nests
    (allowed : List L → L → Prop)
    (held : List L)
    (prog : List (LockOp L)) : Prop :=
  Follows allowed held prog held

/-- The program comes to acquire the lock while it holds the last locks. -/
def Arrives
    (allowed : List L → L → Prop)
    (held : List L)
    (prog : List (LockOp L))
    (last : List L)
    (lock : L) : Prop :=
  ∃ first rest, prog = first ++ .acquire lock :: rest ∧
    Follows allowed held first last

variable {allowed : List L → L → Prop} {held mid last : List L}
variable {lock wanted : L} {first second : List (LockOp L)}

namespace Follows

theorem append
    (before : Follows allowed held first mid)
    (after : Follows allowed mid second last) :
    Follows allowed held (first ++ second) last := by
  induction first generalizing held with
  | nil => rwa [show held = mid from before]
  | cons op first inductionHypothesis =>
      cases op with
      | acquire lock => exact ⟨before.1, inductionHypothesis before.2⟩
      | release lock => exact inductionHypothesis before

theorem mono
    {other : List L → L → Prop}
    (allows : ∀ held lock, allowed held lock → other held lock)
    (follows : Follows allowed held first last) :
    Follows other held first last := by
  induction first generalizing held with
  | nil => exact follows
  | cons op first inductionHypothesis =>
      cases op with
      | acquire lock =>
          exact ⟨allows _ _ follows.1, inductionHypothesis follows.2⟩
      | release lock => exact inductionHypothesis follows

/-- What a thread has still to do goes on following. -/
theorem next
    {thread thread' : Thread L}
    (follows : Follows allowed thread.held thread.rest last)
    (moves : thread.next = some thread') :
    Follows allowed thread'.held thread'.rest last := by
  obtain ⟨rest, held⟩ := thread
  cases rest with
  | nil => simp [Thread.next] at moves
  | cons op rest =>
      cases op with
      | acquire lock =>
          simp only [Thread.next, Option.some.injEq] at moves
          subst moves
          exact follows.2
      | release lock =>
          simp only [Thread.next, Option.some.injEq] at moves
          subst moves
          exact follows

/-- A thread is allowed to acquire what it wants. -/
theorem allows
    {thread : Thread L}
    (follows : Follows allowed thread.held thread.rest last)
    (wants : thread.wants = some lock) :
    allowed thread.held lock := by
  obtain ⟨rest, begins⟩ := Thread.wants_eq_some_iff.mp wants
  rw [begins] at follows
  exact follows.1

end Follows

namespace Nests

@[simp] theorem nil : Nests allowed held [] := rfl

theorem append
    (before : Nests allowed held first)
    (after : Nests allowed held second) :
    Nests allowed held (first ++ second) :=
  Follows.append before after

theorem flatMap
    {prog : α → List (LockOp L)}
    {xs : List α}
    (nests : ∀ x ∈ xs, Nests allowed held (prog x)) :
    Nests allowed held (xs.flatMap prog) := by
  induction xs with
  | nil => exact nil
  | cons x xs inductionHypothesis =>
      rw [List.flatMap_cons]
      exact (nests x List.mem_cons_self).append
        (inductionHypothesis fun y member =>
          nests y (List.mem_cons_of_mem _ member))

theorem locked
    (allows : allowed held lock)
    (inside : Nests allowed (lock :: held) first) :
    Nests allowed held (locked lock first) := by
  refine ⟨allows, Follows.append inside ?_⟩
  exact List.erase_cons_head ..

end Nests

namespace Arrives

theorem locked
    (lock : L)
    (inside : List (LockOp L)) :
    Arrives allowed held (locked lock inside) held lock :=
  ⟨[], _, rfl, rfl⟩

theorem inside
    (allows : allowed held lock)
    (arrives : Arrives allowed (lock :: held) first last wanted) :
    Arrives allowed held (Effect.locked lock first) last wanted := by
  obtain ⟨before, rest, rfl, follows⟩ := arrives
  exact ⟨.acquire lock :: before, rest ++ [.release lock], by
    simp [Effect.locked], allows, follows⟩

theorem before
    (arrives : Arrives allowed held first last wanted)
    (second : List (LockOp L)) :
    Arrives allowed held (first ++ second) last wanted := by
  obtain ⟨before, rest, rfl, follows⟩ := arrives
  exact ⟨before, rest ++ second, by simp, follows⟩

theorem after
    (nests : Nests allowed held first)
    (arrives : Arrives allowed held second last wanted) :
    Arrives allowed held (first ++ second) last wanted := by
  obtain ⟨before, rest, rfl, follows⟩ := arrives
  exact ⟨first ++ before, rest, by simp, Follows.append nests follows⟩

theorem flatMap
    {prog : α → List (LockOp L)}
    {xs : List α}
    {x : α}
    (nests : ∀ x ∈ xs, Nests allowed held (prog x))
    (member : x ∈ xs)
    (arrives : Arrives allowed held (prog x) last wanted) :
    Arrives allowed held (xs.flatMap prog) last wanted := by
  obtain ⟨earlier, later, rfl⟩ := List.append_of_mem member
  rw [List.flatMap_append, List.flatMap_cons]
  refine after (Nests.flatMap fun y isEarlier => ?_) (arrives.before _)
  exact nests y (List.mem_append_left _ isEarlier)

end Arrives

end Programs

/-! ## Threads -/

section Threads

variable {L T : Type} [DecidableEq L] {recursive : L → Bool}

/-- The first thread wants a lock that the other holds; it waits for itself if
the lock is not recursive. -/
def WaitsFor
    (recursive : L → Bool)
    (threads : T → Thread L)
    (thread other : T) : Prop :=
  ∃ lock, (threads thread).wants = some lock ∧
    lock ∈ (threads other).held ∧ (other = thread → recursive lock = false)

instance
    [DecidableEq T]
    (threads : T → Thread L)
    (thread other : T) :
    Decidable (WaitsFor recursive threads thread other) :=
  match wants : (threads thread).wants with
  | none => isFalse fun ⟨_, wanted, _⟩ => nomatch wants.symm.trans wanted
  | some lock =>
      decidable_of_iff
        (lock ∈ (threads other).held ∧
          (other = thread → recursive lock = false))
        ⟨fun waits => ⟨lock, wants, waits⟩,
          fun ⟨_, wanted, waits⟩ =>
            Option.some.inj (wants.symm.trans wanted) ▸ waits⟩

/-- Every thread has done what its program says. -/
def Finished (threads : T → Thread L) : Prop :=
  ∀ thread, (threads thread).rest = []

/-- Some threads wait for one another, each for one of them. -/
def Deadlock
    (recursive : L → Bool)
    (threads : T → Thread L)
    (waiting : Finset T) : Prop :=
  waiting.Nonempty ∧
    ∀ thread ∈ waiting, ∃ other ∈ waiting,
      WaitsFor recursive threads thread other

/-! ## Orders -/

/-- An order in which threads acquire locks. -/
structure LockOrder (L T : Type) where
  /-- The locks that their thread may acquire again. -/
  recursive : L → Bool
  /-- Locks are acquired in the order of their ranks. -/
  rank : L → Nat
  /-- The one thread that may hold several locks of a rank. -/
  leader : Nat → T

/-- A thread that holds these locks may acquire the lock. -/
def LockOrder.Allows
    (order : LockOrder L T)
    (thread : T)
    (held : List L)
    (lock : L) : Prop :=
  (lock ∈ held → order.recursive lock) ∧
    (lock ∈ held ∨ ∀ other ∈ held,
      order.rank other < order.rank lock ∨
        order.rank other = order.rank lock ∧
          thread = order.leader (order.rank lock))

omit [DecidableEq L] in
/-- A lock of a higher rank than all locks held may be acquired. -/
theorem LockOrder.allows_of_lt
    {order : LockOrder L T}
    {held : List L}
    {lock : L}
    (thread : T)
    (lower : ∀ other ∈ held, order.rank other < order.rank lock) :
    order.Allows thread held lock :=
  ⟨fun holds => absurd (lower lock holds) (Nat.lt_irrefl _),
    .inr fun other member => .inl (lower other member)⟩

/-- What holds while threads acquire locks in an order. -/
structure Orderly
    (order : LockOrder L T)
    (threads : T → Thread L) : Prop where
  /-- A lock has one holder. -/
  exclusive : ∀ thread other lock, lock ∈ (threads thread).held →
    lock ∈ (threads other).held → thread = other
  /-- What is still to do is in the order, and gives back all locks. -/
  follows : ∀ thread, Follows (order.Allows thread)
    (threads thread).held (threads thread).rest []

namespace Orderly

variable {order : LockOrder L T} {threads : T → Thread L}
variable {thread holder other : T}

/-- A thread that waits does not hold what it waits for. -/
theorem not_held_of_waits
    (orderly : Orderly order threads)
    {lock : L}
    (wants : (threads holder).wants = some lock)
    (waits : WaitsFor order.recursive threads holder other) :
    lock ∉ (threads holder).held := by
  obtain ⟨wanted, isWanted, held, again⟩ := waits
  obtain rfl : lock = wanted := Option.some.inj (wants.symm.trans isWanted)
  intro holds
  have isRecursive :=
    ((orderly.follows holder).allows wants).1 holds
  have isNot := again (orderly.exclusive _ _ _ held holds)
  rw [isRecursive] at isNot
  cases isNot

/-- Along a chain of waiting threads the ranks rise, unless the leader of a
rank waits for a lock of the rank that it does not hold. -/
theorem climbs
    (orderly : Orderly order threads)
    {lock wanted : L}
    (held : lock ∈ (threads holder).held)
    (wants : (threads holder).wants = some wanted)
    (waits : WaitsFor order.recursive threads holder other) :
    order.rank lock < order.rank wanted ∨
      order.rank lock = order.rank wanted ∧
        holder = order.leader (order.rank wanted) := by
  rcases ((orderly.follows holder).allows wants).2 with again | ordered
  · exact absurd again (orderly.not_held_of_waits wants waits)
  · exact ordered lock held

/-- The thread that waits for a lock of the highest rank would wait for the
leader of the rank, and the leader for itself. -/
theorem not_deadlock
    (orderly : Orderly order threads)
    (waiting : Finset T) :
    ¬Deadlock order.recursive threads waiting := by
  rintro ⟨nonempty, waits⟩
  let wantedRank (thread : T) : Nat :=
    ((threads thread).wants.map order.rank).getD 0
  obtain ⟨top, topMember, highest⟩ :=
    waiting.exists_max_image wantedRank nonempty
  obtain ⟨second, secondMember, lock, topWants, secondHolds, -⟩ :=
    waits top topMember
  obtain ⟨third, thirdMember, secondWaits⟩ := waits second secondMember
  obtain ⟨wanted, secondWants, thirdHolds, -⟩ := id secondWaits
  obtain ⟨fourth, -, thirdWaits⟩ := waits third thirdMember
  obtain ⟨last, thirdWants, -, -⟩ := id thirdWaits
  have secondLow := highest second secondMember
  have thirdLow := highest third thirdMember
  simp only [wantedRank, topWants, secondWants, thirdWants, Option.map_some,
    Option.getD_some] at secondLow thirdLow
  rcases orderly.climbs secondHolds secondWants secondWaits with
    rises | ⟨level, secondLeads⟩
  · omega
  rcases orderly.climbs thirdHolds thirdWants thirdWaits with
    rises | ⟨sameLevel, thirdLeads⟩
  · omega
  have same : third = second := by rw [thirdLeads, secondLeads, sameLevel]
  exact orderly.not_held_of_waits secondWants secondWaits (same ▸ thirdHolds)

/-- A thread that has finished holds nothing. -/
theorem held_of_finished
    (orderly : Orderly order threads)
    (finished : (threads thread).rest = []) :
    (threads thread).held = [] := by
  have follows := orderly.follows thread
  rw [finished] at follows
  exact follows

end Orderly

/-! ## Runs -/

variable [DecidableEq T] [Fintype T]

/-- The threads after one of them has done its next operation. -/
def lockStep
    (recursive : L → Bool)
    (threads : T → Thread L)
    (thread : T) : Option (T → Thread L) :=
  if ∃ other, WaitsFor recursive threads thread other then none
  else (threads thread).next.map (Function.update threads thread)

/-- Threads that run these programs. -/
def lockMachine
    (recursive : L → Bool)
    (programs : T → List (LockOp L)) : Machine (T → Thread L) T where
  start thread := ⟨programs thread, []⟩
  step := lockStep recursive

/-- The thread does its next operation. -/
theorem lockStep_eq_some_iff
    {threads threads' : T → Thread L}
    {thread : T} :
    lockStep recursive threads thread = some threads' ↔
      (∀ other, ¬WaitsFor recursive threads thread other) ∧
        ∃ moved, (threads thread).next = some moved ∧
          Function.update threads thread moved = threads' := by
  unfold lockStep
  split
  case isTrue waits => simp [waits]
  case isFalse free =>
    rw [not_exists] at free
    simp [free]

/-- Whatever has happened, the threads can still finish. -/
def AlwaysFinishes
    (recursive : L → Bool)
    (programs : T → List (LockOp L)) : Prop :=
  ∀ schedule, ∃ more,
    Finished ((lockMachine recursive programs).after (schedule ++ more))

/-! ## Deadlocks stay -/

/-- Threads that wait for one another go on waiting. -/
theorem Deadlock.step
    {threads threads' : T → Thread L}
    {waiting : Finset T}
    {thread : T}
    (deadlock : Deadlock recursive threads waiting)
    (taken : lockStep recursive threads thread = some threads') :
    Deadlock recursive threads' waiting := by
  obtain ⟨free, moved, -, rfl⟩ := lockStep_eq_some_iff.mp taken
  have awake : thread ∉ waiting := by
    intro member
    obtain ⟨other, -, waits⟩ := deadlock.2 thread member
    exact free other waits
  refine ⟨deadlock.1, fun sleeper member => ?_⟩
  obtain ⟨other, otherMember, waits⟩ := deadlock.2 sleeper member
  have sleeperStays : sleeper ≠ thread := fun same => awake (same ▸ member)
  have otherStays : other ≠ thread := fun same => awake (same ▸ otherMember)
  refine ⟨other, otherMember, ?_⟩
  unfold WaitsFor
  rwa [Function.update_of_ne sleeperStays, Function.update_of_ne otherStays]

/-- Threads that wait for one another never finish. -/
theorem Deadlock.not_finished
    {programs : T → List (LockOp L)}
    {threads : T → Thread L}
    {waiting : Finset T}
    (deadlock : Deadlock recursive threads waiting)
    (schedule : List T) :
    ¬Finished ((lockMachine recursive programs).run threads schedule) := by
  have keeps : ∀ threads thread threads',
      Deadlock recursive threads waiting →
      (lockMachine recursive programs).step threads thread = some threads' →
      Deadlock recursive threads' waiting :=
    fun _ _ _ deadlock taken => Deadlock.step deadlock taken
  have stays := Machine.run_keeps keeps deadlock schedule
  intro finished
  obtain ⟨thread, member⟩ := stays.1
  obtain ⟨other, -, lock, wants, -⟩ := stays.2 thread member
  obtain ⟨rest, begins⟩ := Thread.wants_eq_some_iff.mp wants
  rw [finished thread] at begins
  cases begins

/-! ## Runs in order -/

namespace Orderly

variable {order : LockOrder L T} {threads threads' : T → Thread L}
variable {thread : T}

theorem start
    {programs : T → List (LockOp L)}
    (nests : ∀ thread, Nests (order.Allows thread) [] (programs thread)) :
    Orderly order (lockMachine order.recursive programs).start where
  exclusive := by
    intro thread other lock holds
    exact nomatch (show lock ∈ ([] : List L) from holds)
  follows := nests

/-- A thread that comes to hold a lock did not wait for its holder. -/
theorem step
    (orderly : Orderly order threads)
    (taken : lockStep order.recursive threads thread = some threads') :
    Orderly order threads' := by
  obtain ⟨free, moved, moves, rfl⟩ := lockStep_eq_some_iff.mp taken
  have alone : ∀ other lock, other ≠ thread → lock ∈ moved.held →
      lock ∉ (threads other).held := by
    intro other lock differs holds otherHolds
    rcases Thread.next_held moves holds with held | wants
    · exact differs (orderly.exclusive _ _ _ otherHolds held)
    · exact free other ⟨lock, wants, otherHolds, (absurd · differs)⟩
  constructor
  case exclusive =>
    intro first second lock firstHolds secondHolds
    by_cases isFirst : first = thread <;> by_cases isSecond : second = thread
    · rw [isFirst, isSecond]
    · subst isFirst
      rw [Function.update_self] at firstHolds
      rw [Function.update_of_ne isSecond] at secondHolds
      exact absurd secondHolds (alone second lock isSecond firstHolds)
    · subst isSecond
      rw [Function.update_self] at secondHolds
      rw [Function.update_of_ne isFirst] at firstHolds
      exact absurd firstHolds (alone first lock isFirst secondHolds)
    · rw [Function.update_of_ne isFirst] at firstHolds
      rw [Function.update_of_ne isSecond] at secondHolds
      exact orderly.exclusive _ _ _ firstHolds secondHolds
  case follows =>
    intro other
    by_cases same : other = thread
    · subst same
      rw [Function.update_self]
      exact (orderly.follows other).next moves
    · rw [Function.update_of_ne same]
      exact orderly.follows other

theorem run
    {programs : T → List (LockOp L)}
    (orderly : Orderly order threads)
    (schedule : List T) :
    Orderly order
      ((lockMachine order.recursive programs).run threads schedule) := by
  have keeps : ∀ threads thread threads', Orderly order threads →
      (lockMachine order.recursive programs).step threads thread =
        some threads' →
      Orderly order threads' :=
    fun _ _ _ orderly taken => orderly.step taken
  exact Machine.run_keeps keeps orderly schedule

/-- Unless all threads have finished, one of them can go on. -/
theorem exists_step
    (orderly : Orderly order threads)
    (unfinished : ¬Finished threads) :
    ∃ thread threads', lockStep order.recursive threads thread =
      some threads' := by
  by_contra! stuck
  refine orderly.not_deadlock
    (Finset.univ.filter fun thread => (threads thread).rest ≠ []) ⟨?_, ?_⟩
  · obtain ⟨thread, goesOn⟩ := not_forall.mp unfinished
    exact ⟨thread, by simpa using goesOn⟩
  · intro thread member
    have goesOn : (threads thread).rest ≠ [] := by simpa using member
    obtain ⟨moved, moves⟩ :=
      Option.isSome_iff_exists.mp (Thread.next_isSome_iff.mpr goesOn)
    have waits : ∃ other, WaitsFor order.recursive threads thread other := by
      by_contra! free
      exact stuck thread _ (lockStep_eq_some_iff.mpr ⟨free, moved, moves, rfl⟩)
    obtain ⟨other, waits⟩ := waits
    refine ⟨other, ?_, waits⟩
    obtain ⟨lock, -, held, -⟩ := waits
    rw [Finset.mem_filter]
    refine ⟨Finset.mem_univ other, fun finished => ?_⟩
    rw [orderly.held_of_finished finished] at held
    cases held

/-- How much is still to do. -/
theorem sum_rest_lt
    (taken : lockStep order.recursive threads thread = some threads') :
    ∑ thread, (threads' thread).rest.length <
      ∑ thread, (threads thread).rest.length := by
  obtain ⟨-, moved, moves, rfl⟩ := lockStep_eq_some_iff.mp taken
  obtain ⟨op, begins⟩ := Thread.next_rest moves
  refine Finset.sum_lt_sum (fun other _ => ?_)
    ⟨thread, Finset.mem_univ thread, ?_⟩
  · by_cases same : other = thread
    · subst same
      simp [begins]
    · simp [Function.update_of_ne same]
  · simp [begins]

/-- The threads can still finish. -/
theorem finishes
    {programs : T → List (LockOp L)}
    {threads : T → Thread L}
    (orderly : Orderly order threads) :
    ∃ more, Finished
      ((lockMachine order.recursive programs).run threads more) := by
  by_cases finished : Finished threads
  · exact ⟨[], finished⟩
  · obtain ⟨thread, threads', taken⟩ := orderly.exists_step finished
    have decreases := sum_rest_lt taken
    obtain ⟨more, finished⟩ := finishes (orderly.step taken)
    refine ⟨thread :: more, ?_⟩
    rwa [Machine.run_cons, Machine.next_of_step _ taken]
termination_by ∑ thread, (threads thread).rest.length

end Orderly

/-- Threads that acquire locks in an order can always finish. -/
theorem LockOrder.alwaysFinishes
    {order : LockOrder L T}
    {programs : T → List (LockOp L)}
    (nests : ∀ thread, Nests (order.Allows thread) [] (programs thread)) :
    AlwaysFinishes order.recursive programs := by
  intro schedule
  obtain ⟨more, finished⟩ :=
    ((Orderly.start nests).run schedule).finishes
  exact ⟨more, by rwa [Machine.after_append]⟩

/-! ## Crossed locks -/

/-- A thread that is alone may acquire every lock that it does not hold, and
the recursive ones again. -/
def Alone
    (recursive : L → Bool)
    (held : List L)
    (lock : L) : Prop :=
  lock ∈ held → recursive lock

/-- A thread that no other keeps from it runs the first part of its program
alone. -/
theorem run_alone
    {programs : T → List (LockOp L)}
    {threads : T → Thread L}
    {thread : T}
    {held last : List L}
    {first rest : List (LockOp L)}
    (program : threads thread = ⟨first ++ rest, held⟩)
    (follows : Follows
      (fun held lock => Alone recursive held lock ∧
        ∀ other, other ≠ thread → lock ∉ (threads other).held)
      held first last) :
    (lockMachine recursive programs).run threads
        (List.replicate first.length thread) =
      Function.update threads thread ⟨rest, last⟩ := by
  induction first generalizing threads held with
  | nil =>
      obtain rfl : held = last := follows
      rw [List.nil_append] at program
      simp [← program]
  | cons op first inductionHypothesis =>
      have goes : ∀ moved : Thread L, (threads thread).next = some moved →
          (∀ other, ¬WaitsFor recursive threads thread other) →
          (lockMachine recursive programs).next threads thread =
            Function.update threads thread moved := by
        intro moved moves free
        exact Machine.next_of_step _
          (lockStep_eq_some_iff.mpr ⟨free, moved, moves, rfl⟩)
      have others : ∀ (moved : Thread L) (other : T), other ≠ thread →
          (Function.update threads thread moved other).held =
            (threads other).held :=
        fun moved other differs => by rw [Function.update_of_ne differs]
      rw [List.length_cons, List.replicate_succ, Machine.run_cons]
      cases op with
      | acquire lock =>
          obtain ⟨allowed, follows⟩ := follows
          have free : ∀ other, ¬WaitsFor recursive threads thread other := by
            rintro other ⟨wanted, wants, holds, again⟩
            obtain rfl : lock = wanted := by
              simpa [program, Thread.wants] using wants
            by_cases same : other = thread
            · subst same
              rw [program] at holds
              have isNot := again rfl
              rw [allowed.1 holds] at isNot
              cases isNot
            · exact allowed.2 other same holds
          rw [goes ⟨first ++ rest, lock :: held⟩ (by rw [program]; rfl) free,
            inductionHypothesis (Function.update_self ..)]
          · rw [Function.update_idem]
          · refine follows.mono fun held lock allowed => ⟨allowed.1, ?_⟩
            intro other differs
            rw [others _ other differs]
            exact allowed.2 other differs
      | release lock =>
          have free : ∀ other, ¬WaitsFor recursive threads thread other := by
            rintro other ⟨wanted, wants, -⟩
            simp [program, Thread.wants] at wants
          rw [goes ⟨first ++ rest, held.erase lock⟩ (by rw [program]; rfl)
              free,
            inductionHypothesis (Function.update_self ..)]
          · rw [Function.update_idem]
          · refine Follows.mono (fun held lock allowed => ⟨allowed.1, ?_⟩)
              follows
            intro other differs
            rw [others _ other differs]
            exact allowed.2 other differs

/-- Two threads that each come to want what the other then holds can be led to
wait for each other for ever. -/
theorem not_alwaysFinishes_of_crossed
    {programs : T → List (LockOp L)}
    {first second : T}
    (differ : first ≠ second)
    {firstHeld secondHeld : List L}
    {firstWanted secondWanted : L}
    (firstArrives : Arrives (Alone recursive) [] (programs first)
      firstHeld firstWanted)
    (secondArrives : Arrives
      (fun held lock => Alone recursive held lock ∧ lock ∉ firstHeld)
      [] (programs second) secondHeld secondWanted)
    (firstWaits : firstWanted ∈ secondHeld)
    (secondWaits : secondWanted ∈ firstHeld) :
    ¬AlwaysFinishes recursive programs := by
  obtain ⟨firstProg, firstRest, firstProgram, firstFollows⟩ := firstArrives
  obtain ⟨secondProg, secondRest, secondProgram, secondFollows⟩ :=
    secondArrives
  let start := (lockMachine recursive programs).start
  let halfway := Function.update start first
    ⟨.acquire firstWanted :: firstRest, firstHeld⟩
  let crossed := Function.update halfway second
    ⟨.acquire secondWanted :: secondRest, secondHeld⟩
  have starts : ∀ thread, start thread = ⟨programs thread, []⟩ :=
    fun _ => rfl
  have firstRuns : (lockMachine recursive programs).run start
      (List.replicate firstProg.length first) = halfway := by
    have program := starts first
    rw [firstProgram] at program
    refine run_alone program (firstFollows.mono fun held lock allowed => ?_)
    exact ⟨allowed, fun other _ => by simp [starts]⟩
  have secondRuns : (lockMachine recursive programs).run halfway
      (List.replicate secondProg.length second) = crossed := by
    have program : halfway second = ⟨programs second, []⟩ :=
      Function.update_of_ne differ.symm ..
    rw [secondProgram] at program
    refine run_alone program (secondFollows.mono fun held lock allowed => ?_)
    refine ⟨allowed.1, fun other _ => ?_⟩
    by_cases isFirst : other = first
    · subst isFirst
      simpa [halfway] using allowed.2
    · simp [halfway, Function.update_of_ne isFirst, starts]
  have atFirst : crossed first =
      ⟨.acquire firstWanted :: firstRest, firstHeld⟩ := by
    simp [crossed, halfway, Function.update_of_ne differ]
  have atSecond : crossed second =
      ⟨.acquire secondWanted :: secondRest, secondHeld⟩ := by
    simp [crossed]
  have deadlock : Deadlock recursive crossed {first, second} := by
    refine ⟨⟨first, by simp⟩, fun thread member => ?_⟩
    rcases Finset.mem_insert.mp member with rfl | isSecond
    · refine ⟨second, by simp, firstWanted, ?_, ?_, fun same => ?_⟩
      · rw [atFirst]
        rfl
      · rwa [atSecond]
      · exact absurd same.symm differ
    · obtain rfl := Finset.mem_singleton.mp isSecond
      refine ⟨first, by simp, secondWanted, ?_, ?_, fun same => ?_⟩
      · rw [atSecond]
        rfl
      · rwa [atFirst]
      · exact absurd same differ
  intro finishes
  obtain ⟨more, finished⟩ := finishes
    (List.replicate firstProg.length first ++
      List.replicate secondProg.length second)
  rw [Machine.after_append, Machine.after, Machine.run_append, firstRuns,
    secondRuns] at finished
  exact deadlock.not_finished more finished

end Threads
end Effect
