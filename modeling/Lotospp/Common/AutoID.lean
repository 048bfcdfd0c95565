import Mathlib.Data.Finset.Card
import Mathlib.Order.Interval.Finset.Nat

/-!
# Identifiers

`AutoID` numbers the live users and commands.  The constructor takes the next
number that no live object has; it runs for ever when there is none.
-/

namespace Lotospp
namespace Common

/-- The static members of `AutoID`. -/
structure AutoID where
  /-- The number given last. -/
  count : Nat := 1000
  /-- The numbers of the live objects. -/
  list : List Nat := []
  deriving DecidableEq

namespace AutoID

/-- The first number. -/
def first : Nat := 1000

/-- The last number. -/
def last : Nat := 0xFFFFFF

/-- One turn of the constructor's loop. -/
def advance (count : Nat) : Nat :=
  if last ≤ count then first else count + 1

/-- The loop of the constructor, of at most `turns` turns. -/
def probe (list : List Nat) : (turns : Nat) → (count : Nat) → Option Nat
  | 0, _ => none
  | turns + 1, count =>
      if count ∈ list then probe list turns (advance count) else some count

/-- The constructor: the number of the new object, or `none` when its loop
never ends. -/
def construct (autoID : AutoID) : Option (Nat × AutoID) :=
  let count := (autoID.count + 1) % 2 ^ 32
  let count := if last ≤ count then first else count
  (probe autoID.list (last - first + 2) count).map fun count =>
    (count, { count := count, list := count :: autoID.list })

/-- The destructor. -/
def destruct (autoID : AutoID) (autoId : Nat) : AutoID :=
  { autoID with list := autoID.list.erase autoId }

/-! ## The constructor -/

/-- How many identifiers there are. -/
def capacity : Nat := last - first + 1

/-- The identifier that is probed after that many turns from `count`. -/
def probed (count turns : Nat) : Nat :=
  if count + turns ≤ last then count + turns else count + turns - capacity

theorem probed_advance
    {count turns : Nat}
    (inside : count ≤ last)
    (fewer : turns + 1 < capacity) :
    probed (advance count) turns = probed count (turns + 1) := by
  unfold probed advance capacity first last at *
  split_ifs <;> omega

/-- Every identifier is probed within a round. -/
theorem exists_probed
    {count autoId : Nat}
    (fromFirst : first ≤ count)
    (inside : count ≤ last)
    (idFirst : first ≤ autoId)
    (idLast : autoId ≤ last) :
    ∃ turns < capacity, probed count turns = autoId := by
  by_cases behind : count ≤ autoId
  · refine ⟨autoId - count, ?_, ?_⟩
    · unfold capacity first last at *
      omega
    · unfold probed last at *
      split_ifs <;> omega
  · refine ⟨autoId + capacity - count, ?_, ?_⟩
    · unfold capacity first last at *
      omega
    · unfold probed capacity first last at *
      split_ifs <;> omega

theorem first_le_advance
    {count : Nat}
    (fromFirst : first ≤ count) : first ≤ advance count := by
  unfold advance first last at *
  split_ifs <;> omega

theorem advance_le_last (count : Nat) : advance count ≤ last := by
  unfold advance first last
  split_ifs <;> omega

/-- What is found is free. -/
theorem probe_some
    {list : List Nat}
    {turns count found : Nat}
    (inside : count ≤ last)
    (probes : probe list turns count = some found) :
    found ∉ list ∧ found ≤ last := by
  induction turns generalizing count with
  | zero => exact absurd probes (by simp [probe])
  | succ turns inductionHypothesis =>
      rw [probe] at probes
      split at probes
      · exact inductionHypothesis (advance_le_last count) probes
      · rename_i free
        obtain rfl := Option.some.inj probes
        exact ⟨free, inside⟩

/-- What is found is in the range. -/
theorem first_le_of_probe
    {list : List Nat}
    {turns count found : Nat}
    (fromFirst : first ≤ count)
    (probes : probe list turns count = some found) : first ≤ found := by
  induction turns generalizing count with
  | zero => exact absurd probes (by simp [probe])
  | succ turns inductionHypothesis =>
      rw [probe] at probes
      split at probes
      · exact inductionHypothesis (first_le_advance fromFirst) probes
      · obtain rfl := Option.some.inj probes
        exact fromFirst

/-- A free identifier is found when enough turns are left to come to it. -/
theorem probe_isSome
    {list : List Nat}
    {turns ahead count : Nat}
    (fromFirst : first ≤ count)
    (inside : count ≤ last)
    (near : ahead < capacity)
    (enough : ahead < turns)
    (free : probed count ahead ∉ list) : (probe list turns count).isSome := by
  induction turns generalizing ahead count with
  | zero => omega
  | succ turns inductionHypothesis =>
      rw [probe]
      split
      · rename_i taken
        cases ahead with
        | zero =>
            have here : probed count 0 = count := by
              simp [probed, inside]
            rw [here] at free
            exact absurd taken free
        | succ ahead =>
            rw [← probed_advance inside near] at free
            exact inductionHypothesis (first_le_advance fromFirst)
              (advance_le_last count) (by omega) (by omega) free
      · rfl

/-- The number at which the constructor starts to probe. -/
def start (autoID : AutoID) : Nat :=
  if last ≤ (autoID.count + 1) % 2 ^ 32 then first
  else (autoID.count + 1) % 2 ^ 32

theorem construct_eq (autoID : AutoID) :
    autoID.construct =
      (probe autoID.list (capacity + 1) autoID.start).map fun count =>
        (count, { count := count, list := count :: autoID.list }) := rfl

theorem start_le_last (autoID : AutoID) : autoID.start ≤ last := by
  unfold start first last
  split_ifs <;> omega

theorem first_le_start
    {autoID : AutoID}
    (counted : first ≤ autoID.count)
    (below : autoID.count ≤ last) : first ≤ autoID.start := by
  unfold start first last at *
  split_ifs <;> omega

/-- A constructed identifier is new, and not behind the range. -/
theorem construct_fresh
    {autoID after : AutoID}
    {autoId : Nat}
    (constructed : autoID.construct = some (autoId, after)) :
    autoId ∉ autoID.list ∧ autoId ≤ last := by
  rw [construct_eq] at constructed
  obtain ⟨count, probes, same⟩ := Option.map_eq_some_iff.mp constructed
  simp only [Prod.mk.injEq] at same
  obtain ⟨rfl, -⟩ := same
  exact probe_some autoID.start_le_last probes

/-- The new identifier joins the live ones. -/
theorem construct_list
    {autoID after : AutoID}
    {autoId : Nat}
    (constructed : autoID.construct = some (autoId, after)) :
    after.list = autoId :: autoID.list := by
  rw [construct_eq] at constructed
  obtain ⟨count, -, same⟩ := Option.map_eq_some_iff.mp constructed
  simp only [Prod.mk.injEq] at same
  obtain ⟨rfl, rfl⟩ := same
  rfl

end AutoID
end Common
end Lotospp
