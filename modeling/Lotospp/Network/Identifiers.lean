import Lotospp.Effect.Machine
import Lotospp.Network.Linked

/-!
# Live identifiers

Objects of the classes derived from `AutoID` come and go, and `Creature::setID`
builds the identifiers of the users from theirs.  As long as some identifier is
free the constructor finds one, however often the counter has gone round.
-/

namespace Lotospp
namespace Network

open Common Effect

/-- An object with an `AutoID`. -/
structure Holder where
  /-- `auto_id`. -/
  autoId : Nat
  /-- `Creature::id`. -/
  id : Nat := 0
  /-- Whether `setID` has been called, which the program does not store. -/
  named : Bool := false
  deriving DecidableEq

/-- `Creature::setID` of a user. -/
def Holder.setID (holder : Holder) : Holder :=
  { holder with id := holder.autoId ||| idRange }

/-- A call of `setID`. -/
def Holder.callSetID (holder : Holder) : Holder :=
  { holder.setID with named := true }

/-- The static members of `AutoID` and the live objects. -/
structure Holders where
  /-- The static members. -/
  autoID : AutoID := {}
  /-- The live objects, in the order in which they were constructed. -/
  live : List Holder := []
  deriving DecidableEq

/-- What happens to an object, which is named by its place among the live
ones. -/
inductive HolderAction
  /-- An object is constructed. -/
  | construct
  /-- `setID` is called. -/
  | setID (position : Nat)
  /-- An object is destroyed. -/
  | destruct (position : Nat)
  deriving DecidableEq

/-- The state after an action, which is not possible if there is no such object
or if the constructor never ends. -/
def Holders.step (holders : Holders) : HolderAction → Option Holders
  | .construct =>
      holders.autoID.construct.map fun (autoId, autoID) =>
        { autoID := autoID, live := holders.live ++ [{ autoId := autoId }] }
  | .setID position =>
      if position < holders.live.length then
        some { holders with
          live := holders.live.modify position Holder.callSetID }
      else none
  | .destruct position =>
      holders.live[position]?.map fun holder =>
        { autoID := holders.autoID.destruct holder.autoId
          live := holders.live.eraseIdx position }

/-- Objects that come and go, none at the start. -/
def holders : Machine Holders HolderAction where
  start := {}
  step := Holders.step

/-- What holds of the identifiers. -/
structure Holders.Registered (holders : Holders) : Prop where
  /-- The counter is in the range. -/
  counted : AutoID.first ≤ holders.autoID.count ∧
    holders.autoID.count ≤ AutoID.last
  /-- The live identifiers are in the range. -/
  inside : ∀ autoId ∈ holders.autoID.list,
    AutoID.first ≤ autoId ∧ autoId ≤ AutoID.last
  /-- No identifier is listed twice. -/
  nodup : holders.autoID.list.Nodup
  /-- The identifiers listed are those of the live objects. -/
  perm : holders.autoID.list.Perm (holders.live.map Holder.autoId)
  /-- What `setID` has built. -/
  built : ∀ holder ∈ holders.live, holder.named →
    holder.id = holder.autoId ||| idRange

namespace Holders.Registered

variable {state : Holders}

/-- An object is constructed. -/
theorem constructed
    (registered : state.Registered)
    {autoId : Nat}
    {autoID : AutoID}
    (constructs : state.autoID.construct = some (autoId, autoID)) :
    Holders.Registered
      { autoID := autoID, live := state.live ++ [{ autoId := autoId }] } := by
  rw [AutoID.construct_eq] at constructs
  obtain ⟨count, probes, same⟩ := Option.map_eq_some_iff.mp constructs
  simp only [Prod.mk.injEq] at same
  obtain ⟨rfl, rfl⟩ := same
  have fromFirst := AutoID.first_le_start registered.counted.1
    registered.counted.2
  obtain ⟨free, idLast⟩ :=
    AutoID.probe_some state.autoID.start_le_last probes
  have idFirst := AutoID.first_le_of_probe fromFirst probes
  refine ⟨⟨idFirst, idLast⟩, ?_, ?_, ?_, ?_⟩
  · exact List.forall_mem_cons.mpr ⟨⟨idFirst, idLast⟩, registered.inside⟩
  · exact List.nodup_cons.mpr ⟨free, registered.nodup⟩
  · rw [List.map_append]
    exact (registered.perm.cons count).trans (List.perm_append_singleton ..).symm
  · intro holder isLive named
    rcases List.mem_append.mp isLive with old | new
    · exact registered.built holder old named
    · rw [List.mem_singleton.mp new] at named
      exact absurd named (by simp)

/-- `setID` is called. -/
theorem setID
    (registered : state.Registered)
    (position : Nat) :
    Holders.Registered { state with
      live := state.live.modify position Holder.callSetID } where
  counted := registered.counted
  inside := registered.inside
  nodup := registered.nodup
  perm := by
    have same :
        (state.live.modify position Holder.callSetID).map Holder.autoId =
        state.live.map Holder.autoId := by
      refine List.ext_getElem? fun place => ?_
      rw [List.getElem?_map, List.getElem?_map, List.getElem?_modify]
      split
      · cases state.live[place]? <;> rfl
      · cases state.live[place]? <;> rfl
    simp only [same]
    exact registered.perm
  built := by
    intro holder isLive named
    obtain ⟨place, found⟩ := List.mem_iff_getElem?.mp isLive
    rw [List.getElem?_modify] at found
    obtain ⟨old, atPlace, rfl⟩ := Option.map_eq_some_iff.mp found
    by_cases isPlace : position = place
    · simp only [isPlace, if_true]
      rfl
    · simp only [isPlace, if_false] at named ⊢
      exact registered.built old (List.mem_of_getElem? atPlace) named

/-- An object is destroyed. -/
theorem destructed
    (registered : state.Registered)
    {position : Nat}
    {holder : Holder}
    (isLive : state.live[position]? = some holder) :
    Holders.Registered
      { autoID := state.autoID.destruct holder.autoId
        live := state.live.eraseIdx position } where
  counted := registered.counted
  inside autoId listed :=
    registered.inside autoId (List.mem_of_mem_erase listed)
  nodup := registered.nodup.erase holder.autoId
  perm := by
    obtain ⟨inside, rfl⟩ := List.getElem?_eq_some_iff.mp isLive
    have parts := (List.getElem_cons_eraseIdx_perm inside).map Holder.autoId
    have erased := (registered.perm.trans parts.symm).erase
      state.live[position].autoId
    rwa [List.map_cons, List.erase_cons_head] at erased
  built other stays :=
    registered.built other (List.mem_of_mem_eraseIdx stays)

/-- What is possible keeps the identifiers in order. -/
theorem step
    {action : HolderAction}
    {state' : Holders}
    (registered : state.Registered)
    (taken : state.step action = some state') : state'.Registered := by
  cases action with
  | construct =>
      obtain ⟨⟨autoId, autoID⟩, constructs, rfl⟩ :=
        Option.map_eq_some_iff.mp taken
      exact registered.constructed constructs
  | setID position =>
      simp only [Holders.step] at taken
      split at taken
      · obtain rfl := Option.some.inj taken
        exact registered.setID position
      · exact absurd taken (by simp)
  | destruct position =>
      obtain ⟨holder, isLive, rfl⟩ := Option.map_eq_some_iff.mp taken
      exact registered.destructed isLive

end Holders.Registered

/-- The live objects for which `setID` has been called. -/
def Holders.users (holders : Holders) : List Holder :=
  holders.live.filter Holder.named

namespace Holders.Registered

variable {state : Holders}

end Holders.Registered

end Network
end Lotospp
