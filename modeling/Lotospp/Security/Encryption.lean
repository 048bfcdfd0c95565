import Lotospp.Cipher.Feistel
import Lotospp.Security.Eksblowfish

/-!
# Encrypting a block

`BF_ENCRYPT_1B` is a Feistel network, whatever the subkeys and the boxes are.
So it never maps two blocks to one, and with the subkeys in the reverse order
it undoes itself.
-/

namespace Lotospp
namespace Security

open Cipher

/-- Exclusive or of words. -/
def xorWords : Mixing UInt32 where
  mix left right := left ^^^ right
  mix_mix value key := by
    rw [UInt32.xor_assoc, UInt32.xor_self, UInt32.xor_zero]
  mix_comm value key other := by
    rw [UInt32.xor_assoc, UInt32.xor_comm key, ← UInt32.xor_assoc]

/-- The network of `BF_ENCRYPT_1B`. -/
def BFCtx.network (ctx : BFCtx) : Equiv.Perm BFBlock :=
  xorWords.network (bfF ctx) (ctx.P.get 0)
    ((List.finRange 16).map fun N => ctx.P.get N.succ.castSucc)
    (ctx.P.get (Fin.last 17))

theorem bfEncrypt1B_eq (ctx : BFCtx) (block : BFBlock) :
    bfEncrypt1B ctx block = ctx.network block := by
  -- The subkey may be mixed in behind the function of the round.
  have round (N : Fin 16) (L R : UInt32) :
      bfRound ctx N L R = (R ^^^ bfF ctx L) ^^^ ctx.P[N.val + 1] :=
    xorWords.mix_comm R ctx.P[N.val + 1] (bfF ctx L)
  simp only [bfEncrypt1B, round]
  rfl

/-- The subkeys in the reverse order. -/
def BFCtx.reversed (ctx : BFCtx) : BFCtx where
  P := ctx.P.reverse
  S := ctx.S

theorem BFCtx.network_reversed (ctx : BFCtx) :
    ctx.reversed.network = ctx.network⁻¹ := by
  have get (i : Fin 18) : ctx.reversed.P.get i = ctx.P.get i.rev := by
    have place : 18 - 1 - i.val = i.rev.val := by
      rw [Fin.val_rev]
      omega
    change ctx.P.reverse[i.val] = ctx.P[i.rev.val]
    simp only [Vector.getElem_reverse, place]
  have between (N : Fin 16) :
      N.succ.castSucc.rev = N.rev.succ.castSucc := by
    rw [Fin.rev_castSucc, Fin.rev_succ, Fin.succ_castSucc]
  rw [network, network, Mixing.network_inv, ← List.map_reverse,
    List.finRange_reverse, List.map_map]
  simp only [get, between]
  rfl

/-- However often a block is encrypted, encrypting it as often with the
subkeys in the reverse order gives the block again. -/
theorem bfEncrypt1B_reversed (ctx : BFCtx) (count : Nat) (block : BFBlock) :
    (bfEncrypt1B ctx.reversed)^[count] ((bfEncrypt1B ctx)^[count] block) =
      block := by
  have undoes : Function.LeftInverse (bfEncrypt1B ctx.reversed)
      (bfEncrypt1B ctx) := by
    intro block
    rw [bfEncrypt1B_eq, bfEncrypt1B_eq, ctx.network_reversed]
    exact ctx.network.symm_apply_apply block
  exact undoes.iterate count block

end Security
end Lotospp
