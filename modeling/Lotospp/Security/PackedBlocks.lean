import Lotospp.Cipher.PackedWords
import Lotospp.Security.KeySchedule

/-!
# Hashing with packed words

The subkeys and the boxes in two numbers.  What is computed from them agrees
with the rounds of a hash, and can be evaluated by the kernel.
-/

namespace Lotospp
namespace Security

open Cipher

/-! ## Tables of words -/

section Tables

variable {count : Nat} (words : Vector UInt32 count)

/-- The words of a table in one number. -/
def packedWords : Nat :=
  packed 32 (words.toList.map UInt32.toNat)

theorem word_small (word : Nat)
    (inside : word ∈ words.toList.map UInt32.toNat) : word < 2 ^ 32 := by
  obtain ⟨some_, -, rfl⟩ := List.mem_map.mp inside
  exact some_.toNat_lt

variable {place : Nat}

@[simp] theorem lane_packedWords (inside : place < count) :
    lane 32 (packedWords words) place = words[place].toNat := by
  rw [packedWords, lane_packed (word_small words) (by simpa using inside)]
  simp

theorem setLane_packedWords (inside : place < count) (word : UInt32) :
    setLane 32 (packedWords words) place word.toNat =
      packedWords (words.set place word) := by
  rw [packedWords, setLane_packed (word_small words) (by simpa using inside),
    packedWords]
  rw [Vector.toList_set, List.map_set]

theorem packedWords_xor (other : Vector UInt32 count) :
    packedWords words ^^^ packedWords other =
      packedWords (Vector.ofFn fun i => words[i] ^^^ other[i]) := by
  rw [packedWords, packedWords, packedWords,
    packed_xor (word_small words) (word_small other) (by simp)]
  congr 1
  apply List.ext_getElem (by simp)
  intro i left right
  simp

end Tables

/-- Go on with the subkeys and the boxes in two numbers. -/
def BFCtx.pass {α : Type} (ctx : BFCtx) (next : Nat → Nat → α) : α :=
  next (packedWords ctx.P) (packedWords ctx.S)

/-- Go on with the two words of a block. -/
def BFBlock.pass {α : Type} (block : BFBlock) (next : Nat → Nat → α) : α :=
  next block.1.toNat block.2.toNat

/-! ## One block -/

/-- What a round takes from the boxes. -/
def packedF (S L : Nat) : Nat :=
  Nat.mod
    (Nat.add
      (Nat.xor
        (Nat.mod
          (Nat.add
            (lane 32 S (Nat.add 0x100 (Nat.land (Nat.shiftRight L 16) 0xFF)))
            (lane 32 S (Nat.shiftRight L 24)))
          0x100000000)
        (lane 32 S (Nat.add 0x200 (Nat.land (Nat.shiftRight L 8) 0xFF))))
      (lane 32 S (Nat.add 0x300 (Nat.land L 0xFF))))
    0x100000000

/-- One round. -/
def packedRound {α : Type} (P S N L R : Nat) (next : Nat → α) : α :=
  demand (Nat.xor (Nat.xor R (lane 32 P (Nat.succ N))) (packedF S L)) next

/-- Encrypt a block. -/
def packedEncrypt {α : Type} (P S L R : Nat) (next : Nat → Nat → α) : α :=
  demand (Nat.xor L (lane 32 P 0)) fun L =>
    packedRound P S 0 L R fun R =>
    packedRound P S 1 R L fun L =>
    packedRound P S 2 L R fun R =>
    packedRound P S 3 R L fun L =>
    packedRound P S 4 L R fun R =>
    packedRound P S 5 R L fun L =>
    packedRound P S 6 L R fun R =>
    packedRound P S 7 R L fun L =>
    packedRound P S 8 L R fun R =>
    packedRound P S 9 R L fun L =>
    packedRound P S 10 L R fun R =>
    packedRound P S 11 R L fun L =>
    packedRound P S 12 L R fun R =>
    packedRound P S 13 R L fun L =>
    packedRound P S 14 L R fun R =>
    packedRound P S 15 R L fun L =>
    demand (Nat.xor R (lane 32 P 17)) fun R => next R L

theorem packedF_eq (ctx : BFCtx) (L : UInt32) :
    packedF (packedWords ctx.S) L.toNat = (bfF ctx L).toNat := by
  have last := and_lt_box L
  have third := and_lt_box (L >>> 8)
  have second := and_lt_box (L >>> 16)
  have first := shiftRight_lt_box L
  have read {place : Nat} (inside : place < 1024) :=
    lane_packedWords ctx.S inside
  simp only [bfF, UInt32.toNat_add, UInt32.toNat_xor, ← read]
  rfl

theorem packedRound_eq
    {α : Type}
    (ctx : BFCtx)
    (N : Fin 16)
    (L R : UInt32)
    (next : Nat → α) :
    packedRound (packedWords ctx.P) (packedWords ctx.S) N.val L.toNat R.toNat
        next =
      next (bfRound ctx N L R).toNat := by
  rw [packedRound, packedF_eq, lane_packedWords ctx.P (by omega), demand_eq]
  rw [bfRound, UInt32.toNat_xor, UInt32.toNat_xor]
  rfl

theorem packedEncrypt_eq
    {α : Type}
    (ctx : BFCtx)
    (block : BFBlock)
    (next : Nat → Nat → α) :
    packedEncrypt (packedWords ctx.P) (packedWords ctx.S) block.1.toNat
        block.2.toNat next =
      BFBlock.pass (bfEncrypt1B ctx block) next := by
  have turn (N : Fin 16) (L R : UInt32) (next : Nat → α) :=
    packedRound_eq ctx N L R next
  have mixed (L key : UInt32) : Nat.xor L.toNat key.toNat = (L ^^^ key).toNat :=
    (UInt32.toNat_xor L key).symm
  rw [packedEncrypt, demand_eq, lane_packedWords ctx.P (by decide), mixed]
  refine (turn 0 _ _ _).trans ?_
  refine (turn 1 _ _ _).trans ?_
  refine (turn 2 _ _ _).trans ?_
  refine (turn 3 _ _ _).trans ?_
  refine (turn 4 _ _ _).trans ?_
  refine (turn 5 _ _ _).trans ?_
  refine (turn 6 _ _ _).trans ?_
  refine (turn 7 _ _ _).trans ?_
  refine (turn 8 _ _ _).trans ?_
  refine (turn 9 _ _ _).trans ?_
  refine (turn 10 _ _ _).trans ?_
  refine (turn 11 _ _ _).trans ?_
  refine (turn 12 _ _ _).trans ?_
  refine (turn 13 _ _ _).trans ?_
  refine (turn 14 _ _ _).trans ?_
  refine (turn 15 _ _ _).trans ?_
  rw [demand_eq, lane_packedWords ctx.P (by decide), mixed]
  rfl

/-! ## The key schedule -/

/-- Replace two words. -/
def packedPair {α : Type} (table place L R : Nat) (next : Nat → α) : α :=
  demand (setLane 32 (setLane 32 table place L) (Nat.succ place) R) next

/-- Replace this many pairs of words, one after the other. -/
def packedChain {α : Type} (saltL saltR : Nat → Nat) :
    (count pair P S L R : Nat) → (next : Nat → Nat → α) → α
  | 0, _, P, S, _, _, next => next P S
  | count + 1, pair, P, S, L, R, next =>
      packedEncrypt P S (Nat.xor L (saltL pair)) (Nat.xor R (saltR pair))
        fun L R =>
          demand (Nat.succ pair) fun more =>
            bif Nat.blt pair 9 then
              packedPair P (Nat.mul 2 pair) L R fun P =>
                packedChain saltL saltR count more P S L R next
            else
              packedPair S (Nat.mul 2 (Nat.sub pair 9)) L R fun S =>
                packedChain saltL saltR count more P S L R next

/-- Expand a key. -/
def packedExpand {α : Type} (key P S : Nat) (next : Nat → Nat → α) : α :=
  demand (Nat.xor P key) fun P =>
    packedChain (fun _ => 0) (fun _ => 0) 521 0 P S 0 0 next

/-- The turns that the cost counts. -/
def packedTurns {α : Type} (key salt : Nat) :
    (turns P S : Nat) → (next : Nat → Nat → α) → α
  | 0, P, S, next => next P S
  | turns + 1, P, S, next =>
      packedExpand key P S fun P S =>
        packedExpand salt P S fun P S =>
          packedTurns key salt turns P S next

section Schedule

variable {α : Type} (ctx : BFCtx) (block : BFBlock)

theorem packedPair_eq
    {count : Nat}
    (words : Vector UInt32 count)
    {place : Nat}
    (inside : place + 1 < count)
    (next : Nat → α) :
    packedPair (packedWords words) place block.1.toNat block.2.toNat next =
      next (packedWords
        ((words.set place block.1).set (place + 1) block.2)) := by
  rw [packedPair, setLane_packedWords words (by omega), Nat.succ_eq_add_one,
    setLane_packedWords _ inside, demand_eq]

theorem packedChain_eq
    (salt : Fin 521 → BFBlock)
    (saltL saltR : Nat → Nat)
    (left : ∀ pair, saltL pair.val = (salt pair).1.toNat)
    (right : ∀ pair, saltR pair.val = (salt pair).2.toNat)
    {count first : Nat}
    (total : first + count = 521)
    (next : Nat → Nat → α) :
    packedChain saltL saltR count first (packedWords ctx.P) (packedWords ctx.S)
        block.1.toNat block.2.toNat next =
      ((pairsFrom first).foldl (chainStep salt) (ctx, block)).1.pass next := by
  induction count generalizing first ctx block with
  | zero =>
      obtain rfl : first = 521 := total
      rw [pairsFrom_end]
      rfl
  | succ count inductionHypothesis =>
      have inside : first < 521 := by omega
      have mixed : ∀ word other : UInt32,
          Nat.xor word.toNat other.toNat = (word ^^^ other).toNat :=
        fun word other => (UInt32.toNat_xor word other).symm
      rw [packedChain, left ⟨first, inside⟩, right ⟨first, inside⟩, mixed, mixed]
      refine (packedEncrypt_eq ctx (xorBlock block (salt ⟨first, inside⟩)) _).trans ?_
      rw [BFBlock.pass, demand_eq, pairsFrom_cons inside, List.foldl_cons, chainStep]
      generalize bfEncrypt1B ctx _ = encrypted
      have more : first + 1 + count = 521 := by omega
      have rest (ctx : BFCtx) := inductionHypothesis ctx encrypted more
      simp only [BFCtx.replace]
      by_cases inP : first < 9
      · rw [Nat.blt_eq.mpr inP, cond_true, dif_pos inP, Nat.mul_eq,
          packedPair_eq _ _ (show 2 * first + 1 < 18 by omega)]
        exact rest (ctx.storeP (2 * first) (by omega) encrypted)
      · have inS : Nat.blt first 9 = false :=
          Bool.eq_false_iff.mpr fun less => inP (Nat.blt_eq.mp less)
        rw [inS, cond_false, dif_neg inP, Nat.mul_eq, Nat.sub_eq,
          packedPair_eq _ _ (show 2 * (first - 9) + 1 < 1024 by omega)]
        exact rest (ctx.storeS (2 * (first - 9)) (by omega) encrypted)

theorem packedExpand_eq (key : BFKey) (next : Nat → Nat → α) :
    packedExpand (packedWords key) (packedWords ctx.P) (packedWords ctx.S) next =
      (expandKey noSalt key ctx).pass next := by
  have mixed : Nat.xor (packedWords ctx.P) (packedWords key) =
      packedWords (xorKey key ctx).P := packedWords_xor ctx.P key
  rw [packedExpand, demand_eq, mixed]
  have chain := packedChain_eq (xorKey key ctx) (0, 0) noSalt (fun _ => 0)
    (fun _ => 0) (fun _ => rfl) (fun _ => rfl) (Nat.zero_add 521) next
  rw [UInt32.toNat_zero] at chain
  rw [expandKey, replaceAll_eq, Nat.zero_div, ← chain, xorKey]

theorem packedTurns_eq (key salt : BFKey) (turns : Nat) (next : Nat → Nat → α) :
    packedTurns (packedWords key) (packedWords salt) turns (packedWords ctx.P)
        (packedWords ctx.S) next =
      ((fun ctx => expandKey noSalt salt
        (expandKey noSalt key ctx))^[turns] ctx).pass next := by
  induction turns generalizing ctx with
  | zero => rfl
  | succ turns inductionHypothesis =>
      rw [packedTurns, packedExpand_eq, BFCtx.pass, packedExpand_eq, BFCtx.pass,
        inductionHypothesis, Function.iterate_succ_apply]

end Schedule

/-! ## The hash -/

/-- Encrypt a block this often. -/
def packedTimes {α : Type} (P S : Nat) :
    (times L R : Nat) → (next : Nat → Nat → α) → α
  | 0, L, R, next => next L R
  | times + 1, L, R, next =>
      packedEncrypt P S L R fun L R => packedTimes P S times L R next

/-- Encrypt blocks 64 times. -/
def packedBlocks (P S : Nat) : (blocks : List BFBlock) → List (Nat × Nat)
  | [] => []
  | block :: blocks =>
      packedTimes P S 64 block.1.toNat block.2.toNat fun L R =>
        (L, R) :: packedBlocks P S blocks

/-- The word for an even or an odd pair. -/
def packedHalf (even odd pair : Nat) : Nat :=
  bif Nat.beq (Nat.mod pair 2) 0 then even else odd

/-- The words of a hash. -/
def packedHash
    (turns P S key saltKey salt0 salt1 salt2 salt3 : Nat) : List (Nat × Nat) :=
  packedChain (packedHalf salt0 salt2) (packedHalf salt1 salt3) 521 0 P S 0 0
    fun P S =>
      packedTurns key saltKey turns P S fun P S => packedBlocks P S magicBlocks

theorem packedTimes_eq
    {α : Type}
    (ctx : BFCtx)
    (times : Nat)
    (block : BFBlock)
    (next : Nat → Nat → α) :
    packedTimes (packedWords ctx.P) (packedWords ctx.S) times block.1.toNat
        block.2.toNat next =
      BFBlock.pass ((bfEncrypt1B ctx)^[times] block) next := by
  induction times generalizing block with
  | zero => rfl
  | succ times inductionHypothesis =>
      rw [packedTimes, packedEncrypt_eq, Function.iterate_succ_apply,
        BFBlock.pass, inductionHypothesis]

theorem packedBlocks_eq (ctx : BFCtx) (blocks : List BFBlock) :
    packedBlocks (packedWords ctx.P) (packedWords ctx.S) blocks =
      (blocks.map (bfEncrypt1B ctx)^[64]).map fun block =>
        (block.1.toNat, block.2.toNat) := by
  induction blocks with
  | nil => rfl
  | cons block blocks inductionHypothesis =>
      rw [packedBlocks, packedTimes_eq, BFBlock.pass, inductionHypothesis,
        List.map_cons, List.map_cons]

theorem packedHalf_eq (even odd : UInt32) (pair : Nat) :
    packedHalf even.toNat odd.toNat pair =
      (if pair % 2 = 0 then even else odd).toNat := by
  rw [packedHalf]
  split
  · next first => rw [show Nat.beq (Nat.mod pair 2) 0 = true from Nat.beq_eq.mpr first,
      cond_true]
  · next second =>
    rw [show Nat.beq (Nat.mod pair 2) 0 = false from
      Bool.eq_false_iff.mpr fun first => second (Nat.beq_eq.mp first), cond_false]

/-- The words of a hash are those of the abstract schedule. -/
theorem packedHash_eq
    (start : BFCtx)
    (cost : Nat)
    (salt : BFSalt)
    (key : BFKey) :
    packedHash (2 ^ cost) (packedWords start.P) (packedWords start.S)
        (packedWords key) (packedWords (saltKey salt)) (saltAt salt 0).toNat
        (saltAt salt 1).toNat (saltAt salt 2).toNat (saltAt salt 3).toNat =
      (magicBlocks.map
        (bfEncrypt1B (eksSetup start cost salt key))^[64]).map fun block =>
          (block.1.toNat, block.2.toNat) := by
  have left (pair : Fin 521) : packedHalf (saltAt salt 0).toNat
      (saltAt salt 2).toNat pair.val = (saltHalves salt pair).1.toNat := by
    rw [packedHalf_eq, saltHalves]
    split <;> rfl
  have right (pair : Fin 521) : packedHalf (saltAt salt 1).toNat
      (saltAt salt 3).toNat pair.val = (saltHalves salt pair).2.toNat := by
    rw [packedHalf_eq, saltHalves]
    split <;> rfl
  have chain (next : Nat → Nat → List (Nat × Nat)) :=
    packedChain_eq start (0, 0) (saltHalves salt) _ _ left right
      (Nat.zero_add 521) next
  rw [UInt32.toNat_zero] at chain
  rw [packedHash, chain, BFCtx.pass, packedTurns_eq, BFCtx.pass, packedBlocks_eq,
    eksSetup, replaceAll_eq]

end Security
end Lotospp
