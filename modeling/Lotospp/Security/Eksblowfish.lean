import Lotospp.Security.Blowfish
import Lotospp.Security.PiTables
import Lotospp.Text.Buffer
import Mathlib.Logic.Function.Iterate

/-!
# The rounds of a hash

The part of `BF_crypt` between the decoding of the salt and the encoding of
the hash: `BF_set_key` fills the words of a key with the characters of the
password and its terminating NUL, over and over; the subkeys and the boxes are
replaced by what they encrypt, first with the salt and then, as often as the
cost says, with the key and the salt in turn.

`BF_set_key` reads the words twice, with and without the sign extension of an
old mistake, and looks for passwords for which the two agree by chance.
-/

namespace Lotospp
namespace Security

open Text Common

/-! ## Setting the key -/

/-- `BF_key`. -/
abbrev BFKey : Type := Vector UInt32 18

/-- `*ptr`, where `ptr` is this far behind the start of the key. -/
def keyAt (key : Bytes) (ptr : Nat) : UInt8 := key.getD ptr 0

/-- `ptr` behind a character; behind the NUL it is the start again. -/
def nextPtr (key : Bytes) (ptr : Nat) : Nat :=
  if keyAt key ptr = 0 then 0 else ptr + 1

/-- `(BF_word_signed)(signed char)character`. -/
def signExtended (character : UInt8) : UInt32 :=
  character.toInt8.toInt32.toUInt32

/-- `ptr`, `tmp` and `sign` while a word is read. -/
structure WordReader where
  /-- `ptr`. -/
  ptr : Nat
  /-- `tmp[0]`, the correct word. -/
  correct : UInt32 := 0
  /-- `tmp[1]`, the word with the mistake. -/
  buggy : UInt32 := 0
  /-- `sign`. -/
  sign : UInt32

/-- A character is shifted into the words; `j` is its number. -/
def readCharacter (key : Bytes) (reader : WordReader) (j : Nat) : WordReader :=
  let character := keyAt key reader.ptr
  let buggy := (reader.buggy <<< 8) ||| signExtended character
  { ptr := nextPtr key reader.ptr
    correct := (reader.correct <<< 8) ||| character.toUInt32
    buggy := buggy
    sign := if j = 0 then reader.sign else reader.sign ||| (buggy &&& 0x80) }

/-- The loop of `BF_set_key` over the words. -/
structure KeySetter where
  /-- `ptr`. -/
  ptr : Nat := 0
  /-- `sign`. -/
  sign : UInt32 := 0
  /-- `diff`. -/
  diff : UInt32 := 0
  /-- `expanded`. -/
  expanded : BFKey := Vector.replicate 18 0
  /-- `initial`. -/
  initial : BFKey := Vector.replicate 18 0

/-- The word `i`; `bug` chooses which of the two words is taken. -/
def setWord
    (key : Bytes)
    (bug : Nat)
    (setter : KeySetter)
    (i : Fin 18) : KeySetter :=
  let reader := [0, 1, 2, 3].foldl (readCharacter key)
    { ptr := setter.ptr, sign := setter.sign }
  let word := if bug = 0 then reader.correct else reader.buggy
  { ptr := reader.ptr
    sign := reader.sign
    diff := setter.diff ||| (reader.correct ^^^ reader.buggy)
    expanded := setter.expanded.set i word
    initial := setter.initial.set i (initialSubkeys[i] ^^^ word) }

/-- What becomes of `sign` behind the loop. -/
def settleSign (diff sign safety : UInt32) : UInt32 :=
  let diff := diff ||| (diff >>> 16)
  let diff := diff &&& 0xffff
  let diff := diff + 0xffff
  let sign := sign <<< 9
  sign &&& (~~~diff &&& safety)

/-- `BF_set_key`: the keys `expanded` and `initial`. -/
def bfSetKey (key : Bytes) (flags : Nat) : BFKey × BFKey :=
  let bug := flags &&& 1
  let safety := (UInt32.ofNat flags &&& 2) <<< 15
  let setter := (List.finRange 18).foldl (setWord key bug) {}
  let sign := settleSign setter.diff setter.sign safety
  (setter.expanded, setter.initial.set 0 (setter.initial[0] ^^^ sign))

/-! ## One block -/

/-- `L` and `R`. -/
abbrev BFBlock : Type := UInt32 × UInt32

/-- `BF_KEY`. -/
structure BFCtx where
  /-- `P`, the subkeys. -/
  P : BFKey
  /-- `S`, the boxes. -/
  S : Vector UInt32 1024

/-- The last byte of a word. -/
theorem and_lt_box (word : UInt32) : (word &&& 0xFF).toNat < 0x100 := by
  rw [UInt32.toNat_and]
  exact Nat.and_lt_two_pow word.toNat (n := 8) (by decide)

/-- The first byte of a word. -/
theorem shiftRight_lt_box (word : UInt32) : (word >>> 24).toNat < 0x100 := by
  rw [UInt32.toNat_shiftRight]
  have small := word.toNat_lt
  change word.toNat >>> 24 < 0x100
  rw [Nat.shiftRight_eq_div_pow]
  omega

/-- What `BF_ROUND` takes from the boxes. -/
def bfF (ctx : BFCtx) (L : UInt32) : UInt32 :=
  let tmp1 := L &&& 0xFF
  let tmp2 := (L >>> 8) &&& 0xFF
  let tmp3 := (L >>> 16) &&& 0xFF
  let tmp4 := L >>> 24
  have inside1 : tmp1.toNat < 0x100 := and_lt_box L
  have inside2 : tmp2.toNat < 0x100 := and_lt_box (L >>> 8)
  have inside3 : tmp3.toNat < 0x100 := and_lt_box (L >>> 16)
  have inside4 : tmp4.toNat < 0x100 := shiftRight_lt_box L
  let tmp1 := ctx.S[0x300 + tmp1.toNat]
  let tmp2 := ctx.S[0x200 + tmp2.toNat]
  let tmp3 := ctx.S[0x100 + tmp3.toNat]
  ((tmp3 + ctx.S[tmp4.toNat]) ^^^ tmp2) + tmp1

/-- `BF_ROUND`: the new `R`. -/
def bfRound (ctx : BFCtx) (N : Fin 16) (L R : UInt32) : UInt32 :=
  (R ^^^ ctx.P[N.val + 1]) ^^^ bfF ctx L

/-- `BF_ENCRYPT_1B`. -/
def bfEncrypt1B (ctx : BFCtx) (block : BFBlock) : BFBlock :=
  let (L, R) := block
  let L := L ^^^ ctx.P[0]
  let R := bfRound ctx 0 L R
  let L := bfRound ctx 1 R L
  let R := bfRound ctx 2 L R
  let L := bfRound ctx 3 R L
  let R := bfRound ctx 4 L R
  let L := bfRound ctx 5 R L
  let R := bfRound ctx 6 L R
  let L := bfRound ctx 7 R L
  let R := bfRound ctx 8 L R
  let L := bfRound ctx 9 R L
  let R := bfRound ctx 10 L R
  let L := bfRound ctx 11 R L
  let R := bfRound ctx 12 L R
  let L := bfRound ctx 13 R L
  let R := bfRound ctx 14 L R
  let L := bfRound ctx 15 R L
  (R ^^^ ctx.P[17], L)

/-! ## Replacing the subkeys and the boxes -/

/-- `*(ptr-2)=L; *(ptr-1)=R`, where `ptr-2` is this place in `P`. -/
def BFCtx.storeP
    (ctx : BFCtx)
    (ptr : Nat)
    (inside : ptr + 1 < 18)
    (block : BFBlock) : BFCtx where
  P := (ctx.P.set ptr block.1).set (ptr + 1) block.2
  S := ctx.S

/-- `*(ptr-2)=L; *(ptr-1)=R`, where `ptr-2` is this place in `S`. -/
def BFCtx.storeS
    (ctx : BFCtx)
    (ptr : Nat)
    (inside : ptr + 1 < 1024)
    (block : BFBlock) : BFCtx where
  P := ctx.P
  S := (ctx.S.set ptr block.1).set (ptr + 1) block.2

/-- The first loop of `BF_body`. -/
def bodyP
    (ctx : BFCtx)
    (block : BFBlock)
    (ptr : Nat)
    (even : ptr % 2 = 0)
    (inside : ptr < 18) : BFCtx × BFBlock :=
  let block := bfEncrypt1B ctx block
  let ctx := ctx.storeP ptr (by omega) block
  if more : ptr + 2 < 18 then
    bodyP ctx block (ptr + 2) (by omega) more
  else (ctx, block)
termination_by 18 - ptr

/-- The second loop of `BF_body`. -/
def bodyS
    (ctx : BFCtx)
    (block : BFBlock)
    (ptr : Nat)
    (even : ptr % 2 = 0)
    (inside : ptr < 1024) : BFCtx :=
  let block := bfEncrypt1B ctx block
  let ctx := ctx.storeS ptr (by omega) block
  if more : ptr + 2 < 0x300 + 0xFF then
    bodyS ctx block (ptr + 2) (by omega) (by omega)
  else ctx
termination_by 1024 - ptr

/-- `BF_body`. -/
def bfBody (ctx : BFCtx) : BFCtx :=
  let (ctx, block) := bodyP ctx (0, 0) 0 rfl (by decide)
  bodyS ctx block 0 rfl (by decide)

/-- The words of the salt. -/
abbrev BFSalt : Type := Vector UInt32 4

/-- The loop that encrypts the salt into the subkeys, from `i` on. -/
def saltP
    (salt : BFSalt)
    (ctx : BFCtx)
    (block : BFBlock)
    (i : Nat)
    (even : i % 2 = 0) : BFCtx × BFBlock :=
  if inside : i < 18 then
    have half : i &&& 2 ≤ 2 := Nat.and_le_right
    let block := (block.1 ^^^ salt[i &&& 2], block.2 ^^^ salt[(i &&& 2) + 1])
    let block := bfEncrypt1B ctx block
    saltP salt (ctx.storeP i (by omega) block) block (i + 2) (by omega)
  else (ctx, block)
termination_by 18 - i

/-- The loop that encrypts the salt into the boxes, two blocks at a time. -/
def saltS
    (salt : BFSalt)
    (ctx : BFCtx)
    (block : BFBlock)
    (ptr : Nat)
    (fourth : ptr % 4 = 0)
    (inside : ptr < 1024) : BFCtx :=
  -- The places in the salt are `(BF_ROUNDS+2) & 3` and those behind it.
  let block := (block.1 ^^^ salt[2], block.2 ^^^ salt[3])
  let block := bfEncrypt1B ctx block
  let ctx := ctx.storeS ptr (by omega) block
  let block := (block.1 ^^^ salt[0], block.2 ^^^ salt[1])
  let block := bfEncrypt1B ctx block
  let ctx := ctx.storeS (ptr + 2) (by omega) block
  if more : ptr + 4 < 0x300 + 0xFF then
    saltS salt ctx block (ptr + 4) (by omega) (by omega)
  else ctx
termination_by 1024 - ptr

/-- The expanded key is mixed into the subkeys. -/
def xorKey (expanded : BFKey) (ctx : BFCtx) : BFCtx where
  P := Vector.ofFn fun i => ctx.P[i] ^^^ expanded[i]
  S := ctx.S

/-- The word of the salt for the subkey `i`: over and over again from `tmp1`. -/
def saltAt (salt : BFSalt) (i : Nat) : UInt32 :=
  have inside : i % 4 < 4 := Nat.mod_lt i (by decide)
  salt[i % 4]

/-- The salt is mixed into the subkeys, over and over. -/
def xorSalt (salt : BFSalt) (ctx : BFCtx) : BFCtx where
  P := Vector.ofFn fun i => ctx.P[i] ^^^ saltAt salt i.val
  S := ctx.S

/-- One turn of the loop that the cost counts.  The loop inside is left when
`BF_body` has run with `done` set. -/
def costTurn (expanded : BFKey) (salt : BFSalt) (ctx : BFCtx) : BFCtx :=
  bfBody (xorSalt salt (bfBody (xorKey expanded ctx)))

/-! ## The order of the bytes -/

/-- The order in which a machine stores the bytes of a word. -/
inductive ByteOrder
  /-- The lowest byte comes first. -/
  | little
  /-- The highest byte comes first. -/
  | big
  deriving DecidableEq, Repr

/-- The word that is read from four bytes. -/
def ByteOrder.load : ByteOrder → Bytes → UInt32
  | .little, bytes => UInt32.ofNat (ofLittleEndian bytes)
  | .big, bytes => UInt32.ofNat (ofLittleEndian bytes.reverse)

/-- The four bytes of a word. -/
def ByteOrder.store : ByteOrder → UInt32 → Bytes
  | .little, word => littleEndian 4 word.toNat
  | .big, word => (littleEndian 4 word.toNat).reverse

/-- `BF_swap` of a word. -/
def bfSwap (order : ByteOrder) (word : UInt32) : UInt32 :=
  match order with
  | .little =>
      let tmp := (word <<< 16) ||| (word >>> 16)
      ((tmp &&& 0x00FF00FF) <<< 8) ||| ((tmp >>> 8) &&& 0x00FF00FF)
  | .big => word

/-! ## The hash -/

/-- `BF_magic_w`, two words a block. -/
def magicBlocks : List BFBlock :=
  [(0x4F727068, 0x65616E42), (0x65686F6C, 0x64657253), (0x63727944, 0x6F756274)]

/-- `data.binary.salt` behind `BF_swap`. -/
def saltWords (order : ByteOrder) (salt : Bytes) : BFSalt :=
  Vector.ofFn fun i => bfSwap order (order.load (slice salt (4 * i.val) 4))

/-- The subkeys and boxes behind all the turns. -/
def eksSchedule (key : Bytes) (flags cost : Nat) (salt : BFSalt) : BFCtx :=
  let (expanded, initial) := bfSetKey key flags
  let (ctx, block) :=
    saltP salt { P := initial, S := initialBoxes } (0, 0) 0 rfl
  let ctx := saltS salt ctx block 0 rfl (by decide)
  (costTurn expanded salt)^[2 ^ cost] ctx

/-- `data.binary.output` as bytes, behind `BF_swap`. -/
def eksRun
    (order : ByteOrder)
    (key : Bytes)
    (flags cost : Nat)
    (salt : Bytes) : Bytes :=
  let ctx := eksSchedule key flags cost (saltWords order salt)
  let blocks := magicBlocks.map (bfEncrypt1B ctx)^[64]
  blocks.flatMap fun block =>
    order.store (bfSwap order block.1) ++ order.store (bfSwap order block.2)

/-- The key of the self-test of `BF_set_key`. -/
def setKeyTest : Bytes :=
  [0xff, 0xa3] ++ lit "34" ++ [0xff, 0xff, 0xff, 0xa3] ++ lit "345"

/-- The self-test of `BF_set_key`: for `ai[0]` the safety is undone. -/
def setsKeys : Bool :=
  let (ae, ai) := bfSetKey setKeyTest 2
  let (ye, yi) := bfSetKey setKeyTest 4
  let ai := ai.set 0 (ai[0] ^^^ 0x10000)
  ai[0] = 0xdb9c59bc ∧ ye[17] = 0x33343500 ∧ ae = ye ∧ ai = yi

end Security
end Lotospp
