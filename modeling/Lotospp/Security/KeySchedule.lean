import Lotospp.Security.ByteOrder
import Lotospp.Security.KeyCollisions

/-!
# The key schedule

The abstract schedule has one step: the words of the subkeys and of the boxes
are replaced two by two, each pair by the encryption of the pair before it
with a part of the salt mixed in.  The four loops of `BF_crypt` and `BF_body`,
with their pointers and their unrolled turns, all do this.
-/

namespace Lotospp
namespace Security

open Text

/-! ## The abstract schedule -/

/-- Exclusive or of blocks. -/
def xorBlock (left right : BFBlock) : BFBlock :=
  (left.1 ^^^ right.1, left.2 ^^^ right.2)

/-- Replace a pair of words, counted through the subkeys and the boxes. -/
def BFCtx.replace (ctx : BFCtx) (pair : Fin 521) (block : BFBlock) : BFCtx :=
  if inP : pair.val < 9 then ctx.storeP (2 * pair.val) (by omega) block
  else ctx.storeS (2 * (pair.val - 9)) (by omega) block

/-- A pair of words becomes the encryption of the pair before it. -/
def chainStep
    (salt : Fin 521 → BFBlock)
    (state : BFCtx × BFBlock)
    (pair : Fin 521) : BFCtx × BFBlock :=
  let block := bfEncrypt1B state.1 (xorBlock state.2 (salt pair))
  (state.1.replace pair block, block)

/-- All pairs of words are replaced, one after the other. -/
def replaceAll (salt : Fin 521 → BFBlock) (ctx : BFCtx) : BFCtx :=
  ((List.finRange 521).foldl (chainStep salt) (ctx, (0, 0))).1

/-- The two halves of the salt in turn. -/
def saltHalves (salt : BFSalt) (pair : Fin 521) : BFBlock :=
  if pair.val % 2 = 0 then (salt[0], salt[1]) else (salt[2], salt[3])

/-- No salt. -/
def noSalt (_ : Fin 521) : BFBlock := (0, 0)

/-- Expand a key into the subkeys and the boxes, with a salt. -/
def expandKey
    (salt : Fin 521 → BFBlock)
    (key : BFKey)
    (ctx : BFCtx) : BFCtx :=
  replaceAll salt (xorKey key ctx)

/-- The salt as a key. -/
def saltKey (salt : BFSalt) : BFKey :=
  Vector.ofFn fun i => saltAt salt i.val

/-- The expensive key schedule behind the mixing of the key into the subkeys:
all words are replaced with the salt, and then the key and the salt are expanded
in turn, without a salt. -/
def eksSetup (start : BFCtx) (cost : Nat) (salt : BFSalt) (key : BFKey) : BFCtx :=
  (fun ctx => expandKey noSalt (saltKey salt) (expandKey noSalt key ctx))^[2 ^ cost]
    (replaceAll (saltHalves salt) start)

/-! ## The loops -/

/-- The pairs from one on. -/
def pairsFrom (first : Nat) : List (Fin 521) :=
  (List.finRange 521).drop first

theorem pairsFrom_cons
    {first : Nat}
    (inside : first < 521) :
    pairsFrom first = ⟨first, inside⟩ :: pairsFrom (first + 1) := by
  rw [pairsFrom, pairsFrom, List.drop_eq_getElem_cons (by simpa using inside)]
  simp

theorem pairsFrom_end : pairsFrom 521 = [] :=
  List.drop_eq_nil_of_le List.length_finRange.le

theorem xorBlock_noSalt (block : BFBlock) (pair : Fin 521) :
    xorBlock block (noSalt pair) = block := by
  rw [xorBlock, noSalt, UInt32.xor_zero, UInt32.xor_zero]

section Replacing

variable (ctx : BFCtx) (block : BFBlock) {ptr : Nat}

theorem BFCtx.replace_storeP
    (even : ptr % 2 = 0)
    (pair : ptr / 2 < 521)
    (inside : ptr + 1 < 18) :
    ctx.replace ⟨ptr / 2, pair⟩ block = ctx.storeP ptr inside block := by
  have place : 2 * (ptr / 2) = ptr := by omega
  rw [replace, dif_pos (show ptr / 2 < 9 by omega)]
  simp only [place]

theorem BFCtx.replace_storeS
    (even : ptr % 2 = 0)
    (pair : 9 + ptr / 2 < 521)
    (inside : ptr + 1 < 1024) :
    ctx.replace ⟨9 + ptr / 2, pair⟩ block = ctx.storeS ptr inside block := by
  have place : 2 * (9 + ptr / 2 - 9) = ptr := by omega
  rw [replace, dif_neg (show ¬ 9 + ptr / 2 < 9 by omega)]
  simp only [place]

end Replacing

/-- A step at a pair of subkeys. -/
theorem foldl_storeP
    (salt : Fin 521 → BFBlock)
    (ctx : BFCtx)
    (block : BFBlock)
    {ptr : Nat}
    (even : ptr % 2 = 0)
    (pair : ptr / 2 < 521)
    (inside : ptr + 1 < 18) :
    let encrypted := bfEncrypt1B ctx (xorBlock block (salt ⟨ptr / 2, pair⟩))
    (pairsFrom (ptr / 2)).foldl (chainStep salt) (ctx, block) =
      (pairsFrom ((ptr + 2) / 2)).foldl (chainStep salt)
        (ctx.storeP ptr inside encrypted, encrypted) := by
  rw [show (ptr + 2) / 2 = ptr / 2 + 1 by omega, pairsFrom_cons pair,
    List.foldl_cons, chainStep]
  simp only [ctx.replace_storeP _ even pair inside]

/-- A step at a pair of words of the boxes. -/
theorem foldl_storeS
    (salt : Fin 521 → BFBlock)
    (ctx : BFCtx)
    (block : BFBlock)
    {ptr : Nat}
    (even : ptr % 2 = 0)
    (pair : 9 + ptr / 2 < 521)
    (inside : ptr + 1 < 1024) :
    let encrypted := bfEncrypt1B ctx (xorBlock block (salt ⟨9 + ptr / 2, pair⟩))
    (pairsFrom (9 + ptr / 2)).foldl (chainStep salt) (ctx, block) =
      (pairsFrom (9 + (ptr + 2) / 2)).foldl (chainStep salt)
        (ctx.storeS ptr inside encrypted, encrypted) := by
  rw [show 9 + (ptr + 2) / 2 = 9 + ptr / 2 + 1 by omega, pairsFrom_cons pair,
    List.foldl_cons, chainStep]
  simp only [ctx.replace_storeS _ even pair inside]

/-- The first loop of `BF_body` replaces the subkeys. -/
theorem foldl_bodyP
    (ctx : BFCtx)
    (block : BFBlock)
    (ptr : Nat)
    (even : ptr % 2 = 0)
    (inside : ptr < 18) :
    (pairsFrom (ptr / 2)).foldl (chainStep noSalt) (ctx, block) =
      (pairsFrom 9).foldl (chainStep noSalt)
        (bodyP ctx block ptr even inside) := by
  fun_induction bodyP ctx block ptr even inside with
  | case1 ctx block ptr even inside encrypted stored more inductionHypothesis =>
      rw [foldl_storeP _ _ _ even (by omega) (by omega), xorBlock_noSalt]
      exact inductionHypothesis
  | case2 ctx block ptr even inside encrypted stored done =>
      rw [foldl_storeP _ _ _ even (by omega) (by omega), xorBlock_noSalt,
        show (ptr + 2) / 2 = 9 by omega]

/-- The second loop of `BF_body` replaces the words of the boxes. -/
theorem foldl_bodyS
    (ctx : BFCtx)
    (block : BFBlock)
    (ptr : Nat)
    (even : ptr % 2 = 0)
    (inside : ptr < 1024) :
    ((pairsFrom (9 + ptr / 2)).foldl (chainStep noSalt) (ctx, block)).1 =
      bodyS ctx block ptr even inside := by
  fun_induction bodyS ctx block ptr even inside with
  | case1 ctx block ptr even inside encrypted stored more inductionHypothesis =>
      rw [foldl_storeS _ _ _ even (by omega) (by omega), xorBlock_noSalt]
      exact inductionHypothesis
  | case2 ctx block ptr even inside encrypted stored done =>
      rw [foldl_storeS _ _ _ even (by omega) (by omega), xorBlock_noSalt,
        show 9 + (ptr + 2) / 2 = 521 by omega, pairsFrom_end, List.foldl_nil]

theorem replaceAll_eq (salt : Fin 521 → BFBlock) (ctx : BFCtx) :
    replaceAll salt ctx =
      ((pairsFrom (0 / 2)).foldl (chainStep salt) (ctx, (0, 0))).1 := by
  rw [Nat.zero_div, pairsFrom, List.drop_zero, replaceAll]

/-- `BF_body` replaces all words, without a salt. -/
theorem bfBody_eq (ctx : BFCtx) : bfBody ctx = replaceAll noSalt ctx := by
  rw [replaceAll_eq, foldl_bodyP ctx (0, 0) 0 rfl (by decide), bfBody]
  exact (foldl_bodyS _ _ 0 rfl (by decide)).symm

/-! ## The loops with the salt -/

theorem and_two
    {i : Nat}
    (small : i < 18) : i &&& 2 = 2 * (i / 2 % 2) := by
  revert i
  decide

/-- The loop that encrypts the salt into the subkeys. -/
theorem foldl_saltP
    (salt : BFSalt)
    (ctx : BFCtx)
    (block : BFBlock)
    (i : Nat)
    (even : i % 2 = 0)
    (bounded : i ≤ 18) :
    (pairsFrom (i / 2)).foldl (chainStep (saltHalves salt)) (ctx, block) =
      (pairsFrom 9).foldl (chainStep (saltHalves salt))
        (saltP salt ctx block i even) := by
  fun_induction saltP salt ctx block i even with
  | case1 ctx block i even inside half mixed encrypted inductionHypothesis =>
      have halves : xorBlock block (saltHalves salt ⟨i / 2, by omega⟩) = mixed := by
        have place := and_two inside
        rw [saltHalves]
        split
        · next first => simp only [mixed, xorBlock, place, first]
        · next second =>
          have odd : i / 2 % 2 = 1 := Nat.mod_two_ne_zero.mp second
          simp only [mixed, xorBlock, place, odd]
      rw [foldl_storeP _ _ _ even (by omega) (by omega), halves]
      exact inductionHypothesis (by omega)
  | case2 ctx block i even done =>
      rw [show i / 2 = 9 by omega]

/-- A turn of the loop that encrypts the salt into the boxes is two steps. -/
theorem foldl_saltS_turn
    (salt : BFSalt)
    (ctx : BFCtx)
    (block : BFBlock)
    {ptr : Nat}
    (fourth : ptr % 4 = 0)
    (inside : ptr + 1 < 1024)
    (behind : ptr + 2 + 1 < 1024) :
    let encrypted := bfEncrypt1B ctx
      (xorBlock block (saltAt salt 2, saltAt salt 3))
    let stored := ctx.storeS ptr inside encrypted
    let next := bfEncrypt1B stored
      (xorBlock encrypted (saltAt salt 0, saltAt salt 1))
    (pairsFrom (9 + ptr / 2)).foldl (chainStep (saltHalves salt)) (ctx, block) =
      (pairsFrom (9 + (ptr + 4) / 2)).foldl (chainStep (saltHalves salt))
        (stored.storeS (ptr + 2) behind next, next) := by
  have second : saltHalves salt ⟨9 + ptr / 2, by omega⟩ =
      (saltAt salt 2, saltAt salt 3) :=
    if_neg (by change ¬ (9 + ptr / 2) % 2 = 0; omega)
  have first : saltHalves salt ⟨9 + (ptr + 2) / 2, by omega⟩ =
      (saltAt salt 0, saltAt salt 1) :=
    if_pos (by change (9 + (ptr + 2) / 2) % 2 = 0; omega)
  rw [foldl_storeS _ _ _ (by omega) (by omega) inside, second,
    foldl_storeS _ _ _ (by omega) (by omega) behind, first]

/-- The loop that encrypts the salt into the boxes. -/
theorem foldl_saltS
    (salt : BFSalt)
    (ctx : BFCtx)
    (block : BFBlock)
    (ptr : Nat)
    (fourth : ptr % 4 = 0)
    (inside : ptr < 1024) :
    ((pairsFrom (9 + ptr / 2)).foldl (chainStep (saltHalves salt))
        (ctx, block)).1 =
      saltS salt ctx block ptr fourth inside := by
  fun_induction saltS salt ctx block ptr fourth inside with
  | case1 ctx block ptr fourth inside mixed first stored mixedNext second storedNext more
      inductionHypothesis =>
      rw [← inductionHypothesis,
        foldl_saltS_turn salt ctx block fourth (by omega) (by omega)]
      rfl
  | case2 ctx block ptr fourth inside mixed first stored mixedNext second storedNext done =>
      rw [foldl_saltS_turn salt ctx block fourth (by omega) (by omega),
        show 9 + (ptr + 4) / 2 = 521 by omega, pairsFrom_end, List.foldl_nil]
      rfl

/-! ## The whole schedule -/

theorem xorSalt_eq (salt : BFSalt) (ctx : BFCtx) :
    xorSalt salt ctx = xorKey (saltKey salt) ctx := by
  simp only [xorSalt, xorKey, saltKey, Fin.getElem_fin, Vector.getElem_ofFn]

/-- `BF_crypt` sets up its subkeys and boxes by the abstract schedule. -/
theorem eksSchedule_eq
    (key : Bytes)
    (flags cost : Nat)
    (salt : BFSalt) :
    eksSchedule key flags cost salt =
      eksSetup { P := (bfSetKey key flags).2, S := initialBoxes } cost salt
        (bfSetKey key flags).1 := by
  have turn (expanded : BFKey) : costTurn expanded salt = fun ctx =>
      expandKey noSalt (saltKey salt) (expandKey noSalt expanded ctx) := by
    funext ctx
    rw [costTurn, bfBody_eq, bfBody_eq, xorSalt_eq, expandKey, expandKey]
  have boxes (ctx : BFCtx) (block : BFBlock) :
      ((pairsFrom 9).foldl (chainStep (saltHalves salt)) (ctx, block)).1 =
        saltS salt ctx block 0 rfl (by decide) := by
    rw [← foldl_saltS, Nat.zero_div, Nat.add_zero]
  rw [eksSetup, replaceAll_eq, foldl_saltP _ _ _ 0 rfl (by decide), boxes, ← turn,
    eksSchedule]

/-! ## The whole hash -/

/-- The four bytes of a word, the highest one first. -/
def wordBytes (word : UInt32) : Bytes :=
  (littleEndian 4 word.toNat).reverse

/-- The salt as words, the highest byte of each word first. -/
def readSalt (salt : Bytes) : BFSalt :=
  Vector.ofFn fun i => wordOf (slice salt (4 * i.val) 4)

/-- The words of a key: the password with its NUL, over and over. -/
def cyclicKey (key : Bytes) : BFKey :=
  Vector.ofFn fun i => wordOf (wordCharacters key i)

/-- The hash: the key is expanded with the salt and then, as often as the cost
says, the key and the salt in turn; three blocks are encrypted 64 times. -/
def bcrypt (cost : Nat) (salt : BFSalt) (key : BFKey) : Bytes :=
  let start := xorKey key { P := initialSubkeys, S := initialBoxes }
  (magicBlocks.map (bfEncrypt1B (eksSetup start cost salt key))^[64]).flatMap
    fun block => wordBytes block.1 ++ wordBytes block.2

/-- What `BF_set_key` makes of a key of the letters `b` and `y`, and of `a` where
nothing is flipped. -/
theorem bfSetKey_cyclic
    {key : Bytes}
    (noNul : 0 ∉ key)
    {flags : Nat}
    (correct : flags &&& 1 = 0)
    (steady : deviation key flags = 0) :
    bfSetKey key flags =
      (cyclicKey key, (xorKey (cyclicKey key)
        { P := initialSubkeys, S := initialBoxes }).P) := by
  have word (i : Fin 18) : keyWord key 0 i = wordOf (wordCharacters key i) := if_pos rfl
  rw [bfSetKey_eq noNul, expandedKey, initialKey, correct, steady]
  simp only [cyclicKey, xorKey, word, UInt32.xor_zero, ite_self,
    Fin.getElem_fin, Vector.getElem_ofFn]
  rfl

/-- With the letters `b` and `y`, and with `a` where nothing is flipped,
`BF_crypt` computes the abstract hash, whatever the order of the bytes is. -/
theorem eksRun_bcrypt
    (order : ByteOrder)
    {key : Bytes}
    (noNul : 0 ∉ key)
    {flags : Nat}
    (plain : flags = 4 ∨ flags = 2 ∧ ¬Deviates key)
    (cost : Nat)
    {salt : Bytes}
    (whole : salt.length = 16) :
    eksRun order key flags cost salt =
      bcrypt cost (readSalt salt) (cyclicKey key) := by
  have correct : flags &&& 1 = 0 := by
    rcases plain with rfl | ⟨rfl, -⟩ <;> rfl
  have steady : deviation key flags = 0 := by
    rcases plain with rfl | ⟨rfl, steady⟩
    · rw [deviation]
      split <;> rfl
    · exact (deviation_safe key).mpr steady
  rw [eksRun_order order .big key flags cost whole, eksRun, eksSchedule_eq,
    bfSetKey_cyclic noNul correct steady, saltWords_eq .big whole]
  rfl

/-- The hash of `secret` for a salt of 16 letters, with the lowest cost. -/
theorem eksRun_bcrypt_secret :
    eksRun .little (lit "secret") 4 4 (lit "abcdefghijklmnop") =
      bcrypt 4 (readSalt (lit "abcdefghijklmnop"))
        (cyclicKey (lit "secret")) :=
  eksRun_bcrypt .little (by decide) (Or.inl rfl) 4 rfl

end Security
end Lotospp
