import Mathlib.Logic.Function.Basic
import Mathlib.Tactic.Common

/-!
# Owning pointers

A heap of objects and a pointer for every owner.  Reading through a null
pointer, reading an object that has been deleted and deleting it again are
faults.  `Holds` says that the pointers own their objects, each its own, and
what values these have; every operation has a rule that keeps it.
-/

namespace Effect

/-- Objects by their addresses.  An address is not used twice. -/
structure Heap (α : Type) where
  /-- The next address. -/
  next : Nat := 0
  /-- The objects that have not been deleted. -/
  object : Nat → Option α := fun _ => none
  /-- No object has the next address or one behind it. -/
  unused : ∀ address, next ≤ address → object address = none := by
    intros
    rfl

namespace Heap

variable {α : Type}

theorem lt_next
    (heap : Heap α)
    {address : Nat}
    {value : α}
    (live : heap.object address = some value) : address < heap.next := by
  by_contra behind
  rw [heap.unused address (Nat.not_lt.mp behind)] at live
  cases live

/-- Another object, at the next address. -/
def new (heap : Heap α) (value : α) : Heap α where
  next := heap.next + 1
  object := Function.update heap.object heap.next (some value)
  unused := by
    intro address behind
    rw [Function.update_of_ne (by omega)]
    exact heap.unused address (by omega)

/-- The address holds something else, unless it has not been used yet. -/
def put (heap : Heap α) (address : Nat) (value : Option α) : Heap α where
  next := heap.next
  object := fun other =>
    if other = address ∧ address < heap.next then value
    else heap.object other
  unused := by
    intro other behind
    rw [if_neg (by omega)]
    exact heap.unused other behind

theorem object_put_self
    (heap : Heap α)
    {address : Nat}
    (used : address < heap.next)
    (value : Option α) : (heap.put address value).object address = value :=
  if_pos ⟨rfl, used⟩

theorem object_put_of_ne
    (heap : Heap α)
    {address other : Nat}
    (different : other ≠ address)
    (value : Option α) :
    (heap.put address value).object other = heap.object other :=
  if_neg fun same => different same.1

end Heap

/-- What can go wrong with a pointer. -/
inductive PointerFault
  /-- A null pointer is followed. -/
  | null
  /-- The object has been deleted. -/
  | dangling
  /-- The object is deleted again. -/
  | deletedTwice
  deriving DecidableEq, Repr

/-- A heap and the pointers into it. -/
structure Pointers (κ α : Type) where
  /-- The heap. -/
  heap : Heap α := {}
  /-- The pointers; a null pointer has no address. -/
  pointer : κ → Option Nat := fun _ => none

namespace Pointers

variable {κ α : Type} [DecidableEq κ]

omit [DecidableEq κ] in
/-- Follow a pointer to a value. -/
def read (pointers : Pointers κ α) (owner : κ) : Except PointerFault α :=
  match pointers.pointer owner with
  | none => .error .null
  | some address =>
      match pointers.heap.object address with
      | none => .error .dangling
      | some value => .ok value

/-- Make a pointer point to a new object. -/
def new (pointers : Pointers κ α) (owner : κ) (value : α) : Pointers κ α where
  heap := pointers.heap.new value
  pointer := Function.update pointers.pointer owner (some pointers.heap.next)

/-- Assign to the object of a pointer. -/
def assign (pointers : Pointers κ α) (owner : κ) (value : α) :
    Except PointerFault (Pointers κ α) :=
  match pointers.pointer owner with
  | none => .error .null
  | some address =>
      match pointers.heap.object address with
      | none => .error .dangling
      | some _ =>
          .ok { pointers with heap := pointers.heap.put address (some value) }

/-- Delete the object of a pointer; the pointer stays as it is.  Deleting
through a null pointer does nothing. -/
def delete (pointers : Pointers κ α) (owner : κ) :
    Except PointerFault (Pointers κ α) :=
  match pointers.pointer owner with
  | none => .ok pointers
  | some address =>
      match pointers.heap.object address with
      | none => .error .deletedTwice
      | some _ =>
          .ok { pointers with heap := pointers.heap.put address none }

/-- Make a pointer null. -/
def setNull (pointers : Pointers κ α) (owner : κ) : Pointers κ α :=
  { pointers with pointer := Function.update pointers.pointer owner none }

/-- Delete the object of a pointer and make the pointer null. -/
def release (pointers : Pointers κ α) (owner : κ) :
    Except PointerFault (Pointers κ α) :=
  (pointers.delete owner).map fun pointers => pointers.setNull owner

/-- Every pointer is null or owns an object, which no other pointer points to;
and these are the values of the objects. -/
structure Holds (pointers : Pointers κ α) (values : κ → Option α) : Prop where
  /-- Without a value the pointer is null. -/
  null : ∀ {owner}, pointers.pointer owner = none → values owner = none
  /-- The object has the value. -/
  live : ∀ {owner address}, pointers.pointer owner = some address →
    ∃ value, pointers.heap.object address = some value ∧
      values owner = some value
  /-- The objects have one owner each. -/
  apart : ∀ {owner other address}, pointers.pointer owner = some address →
    pointers.pointer other = some address → owner = other

/-- There is no fault, and these are the values afterwards. -/
def Leads
    (result : Except PointerFault (Pointers κ α))
    (values : κ → Option α) : Prop :=
  ∃ pointers, result = .ok pointers ∧ pointers.Holds values

omit [DecidableEq κ] in
theorem Leads.bind
    {result : Except PointerFault (Pointers κ α)}
    {next : Pointers κ α → Except PointerFault (Pointers κ α)}
    {values after : κ → Option α}
    (leads : Leads result values)
    (goesOn : ∀ pointers, pointers.Holds values →
      Leads (next pointers) after) : Leads (result >>= next) after := by
  obtain ⟨pointers, rfl, holds⟩ := leads
  exact goesOn pointers holds

namespace Holds

variable {pointers : Pointers κ α} {values : κ → Option α}
variable {owner : κ} {value : α}

omit [DecidableEq κ] in
/-- At the start all pointers are null. -/
theorem start : Holds ({} : Pointers κ α) fun _ => none where
  null _ := rfl
  live points := absurd points.symm (Option.some_ne_none _)
  apart points := absurd points.symm (Option.some_ne_none _)

omit [DecidableEq κ] in
/-- A pointer with a value. -/
theorem owned
    (holds : Holds pointers values)
    (known : values owner = some value) :
    ∃ address, pointers.pointer owner = some address ∧
      pointers.heap.object address = some value := by
  cases null : pointers.pointer owner with
  | none =>
      rw [holds.null null] at known
      cases known
  | some address =>
      obtain ⟨found, object, same⟩ := holds.live null
      rw [known] at same
      cases same
      exact ⟨address, rfl, object⟩

omit [DecidableEq κ] in
theorem null_iff (holds : Holds pointers values) :
    pointers.pointer owner = none ↔ values owner = none := by
  refine ⟨holds.null, fun missing => ?_⟩
  cases null : pointers.pointer owner with
  | none => rfl
  | some address =>
      obtain ⟨value, -, known⟩ := holds.live null
      rw [missing] at known
      cases known

omit [DecidableEq κ] in
theorem read
    (holds : Holds pointers values)
    (known : values owner = some value) :
    pointers.read owner = .ok value := by
  obtain ⟨address, pointer, object⟩ := holds.owned known
  rw [Pointers.read, pointer]
  simp only [object]

omit [DecidableEq κ] in
/-- Reading goes on with the value. -/
theorem reads
    {next : α → Except PointerFault (Pointers κ α)}
    {after : κ → Option α}
    (holds : Holds pointers values)
    (known : values owner = some value)
    (leads : Leads (next value) after) :
    Leads (pointers.read owner >>= next) after := by
  rw [holds.read known]
  exact leads

theorem new
    (holds : Holds pointers values)
    (owner : κ)
    (value : α) :
    Holds (pointers.new owner value)
      (Function.update values owner (some value)) where
  null {other} null := by
    simp only [Pointers.new, Function.update_apply] at null
    split at null
    · cases null
    · next isOther =>
        rw [Function.update_of_ne isOther]
        exact holds.null null
  live {other address} pointer := by
    simp only [Pointers.new, Function.update_apply] at pointer
    split at pointer
    · next same =>
        cases pointer
        rw [same, Function.update_self]
        exact ⟨value, Function.update_self .., rfl⟩
    · next isOther =>
        obtain ⟨found, object, known⟩ := holds.live pointer
        have used : address ≠ pointers.heap.next :=
          Nat.ne_of_lt (pointers.heap.lt_next object)
        refine ⟨found, ?_, ?_⟩
        · rw [← object]
          exact Function.update_of_ne used ..
        · rw [Function.update_of_ne isOther, known]
  apart {first second address} pointer pointer' := by
    -- The new address is not the address of an older object.
    have older : ∀ {other}, pointers.pointer other = some address →
        address ≠ pointers.heap.next := by
      intro other pointer
      obtain ⟨found, object, -⟩ := holds.live pointer
      exact Nat.ne_of_lt (pointers.heap.lt_next object)
    simp only [Pointers.new, Function.update_apply] at pointer pointer'
    split at pointer <;> split at pointer'
    · next same same' => rw [same, same']
    · cases pointer
      exact absurd rfl (older pointer')
    · cases pointer'
      exact absurd rfl (older pointer)
    · exact holds.apart pointer pointer'

theorem assign
    (holds : Holds pointers values)
    (known : values owner ≠ none)
    (value : α) :
    Leads (pointers.assign owner value)
      (Function.update values owner (some value)) := by
  obtain ⟨old, known⟩ := Option.ne_none_iff_exists'.mp known
  obtain ⟨address, pointer, object⟩ := holds.owned known
  have used := pointers.heap.lt_next object
  refine ⟨{ pointers with heap := pointers.heap.put address (some value) },
    ?_, fun {other} null => ?_, fun {other found} points => ?_, holds.apart⟩
  · rw [Pointers.assign, pointer]
    simp only [object]
  · have isOther : other ≠ owner := by
      rintro rfl
      rw [pointer] at null
      cases null
    rw [Function.update_of_ne isOther]
    exact holds.null null
  · by_cases same : other = owner
    · subst same
      rw [pointer] at points
      cases points
      exact ⟨value, pointers.heap.object_put_self used _,
        Function.update_self ..⟩
    · obtain ⟨kept, live, knownKept⟩ := holds.live points
      refine ⟨kept, ?_, ?_⟩
      · rw [← live]
        apply Heap.object_put_of_ne
        rintro rfl
        exact same (holds.apart points pointer)
      · rw [Function.update_of_ne same, knownKept]

/-- A pointer is made null; its object may be deleted. -/
theorem setNull
    {heap : Heap α}
    (holds : Holds pointers values)
    (others : ∀ {other address}, other ≠ owner →
      pointers.pointer other = some address →
        heap.object address = pointers.heap.object address) :
    Holds (Pointers.setNull { pointers with heap := heap } owner)
      (Function.update values owner none) := by
  refine ⟨fun {other} null => ?_, fun {other found} points => ?_,
    fun {first second found} points points' => ?_⟩
  · simp only [Pointers.setNull, Function.update_apply] at null
    rw [Function.update_apply]
    split at null
    · next same => exact if_pos same
    · next isOther => rw [if_neg isOther, holds.null null]
  · simp only [Pointers.setNull, Function.update_apply] at points
    split at points
    · cases points
    · next isOther =>
        obtain ⟨kept, live, known⟩ := holds.live points
        refine ⟨kept, ?_, ?_⟩
        · rw [← live]
          exact others isOther points
        · rw [Function.update_of_ne isOther, known]
  · simp only [Pointers.setNull, Function.update_apply] at points points'
    split at points
    · cases points
    · split at points'
      · cases points'
      · exact holds.apart points points'

/-- An object is deleted at most once. -/
theorem release
    (holds : Holds pointers values)
    (owner : κ) :
    Leads (pointers.release owner) (Function.update values owner none) := by
  rw [Pointers.release, Pointers.delete]
  cases pointer : pointers.pointer owner with
  | none => exact ⟨_, rfl, holds.setNull fun _ _ => rfl⟩
  | some address =>
      obtain ⟨value, object, -⟩ := holds.live pointer
      simp only [object]
      refine ⟨_, rfl, holds.setNull fun {other found} isOther points => ?_⟩
      apply Heap.object_put_of_ne
      rintro rfl
      exact isOther (holds.apart points pointer)

end Holds
end Pointers
end Effect
