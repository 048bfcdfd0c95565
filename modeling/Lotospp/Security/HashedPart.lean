import Lotospp.Security.ByteOrder
import Lotospp.Security.KeyCollisions

/-!
# What a hash depends on

`Blowfish::crypt` sees no more of a password than the characters that
`BF_set_key` reads, and the hash is the same on machines with either order of
bytes.
-/

namespace Lotospp
namespace Security

open Text Common

/-! ## The salt that is decoded -/

theorem length_readSextet
    {setting salt : Bytes}
    {left sptr : Nat}
    {next : UInt8 → Except CryptFault (Option Bytes)}
    (rest : ∀ bits, next bits = .ok (some salt) → salt.length = left)
    (read : readSextet setting left sptr next = .ok (some salt)) :
    salt.length = left := by
  rw [readSextet] at read
  simp only [bind, Except.bind] at read
  split at read
  · exact absurd read (by simp)
  · split at read
    · exact rest _ read
    · obtain rfl : List.replicate left 0 = salt := by
        simpa [pure, Except.pure] using read
      exact List.length_replicate
    · exact absurd read (by simp [pure, Except.pure])

theorem length_emitByte
    {salt : Bytes}
    {left : Nat}
    {byte : UInt8}
    {result : Except CryptFault (Option Bytes)}
    (rest : ∀ bytes, result = .ok (some bytes) → bytes.length = left)
    (written : emitByte byte result = .ok (some salt)) :
    salt.length = left + 1 := by
  rw [emitByte] at written
  cases result with
  | error fault => exact absurd written (by simp [bind, Except.bind])
  | ok decoded =>
      cases decoded with
      | none => exact absurd written (by simp [bind, Except.bind, pure, Except.pure])
      | some bytes =>
          obtain rfl : byte :: bytes = salt := by
            simpa [bind, Except.bind, pure, Except.pure] using written
          rw [List.length_cons, rest bytes rfl]

/-- `BF_decode` writes as many bytes as it is asked for, also where a dollar
sign ends the decoding. -/
theorem length_bfDecode
    {setting salt : Bytes}
    {left sptr : Nat}
    (decoded : bfDecode setting left sptr = .ok (some salt)) :
    salt.length = left := by
  induction left, sptr using bfDecode.induct generalizing salt with
  | case1 sptr =>
      obtain rfl : [] = salt := by
        simpa [bfDecode, pure, Except.pure] using decoded
      rfl
  | case2 sptr =>
      rw [bfDecode] at decoded
      refine length_readSextet (fun c1 => length_readSextet fun c2 => ?_) decoded
      refine length_emitByte fun bytes done => ?_
      obtain rfl : [] = bytes := by simpa [pure, Except.pure] using done
      rfl
  | case3 sptr =>
      rw [bfDecode] at decoded
      refine length_readSextet (fun c1 => length_readSextet fun c2 => ?_) decoded
      refine length_emitByte fun bytes => length_readSextet fun c3 => ?_
      refine length_emitByte fun bytes done => ?_
      obtain rfl : [] = bytes := by simpa [pure, Except.pure] using done
      rfl
  | case4 left sptr inductionHypothesis =>
      rw [bfDecode] at decoded
      refine length_readSextet (fun c1 => length_readSextet fun c2 => ?_) decoded
      refine length_emitByte fun bytes => length_readSextet fun c3 => ?_
      refine length_emitByte fun bytes => length_readSextet fun c4 => ?_
      exact length_emitByte fun bytes done => inductionHypothesis done

/-! ## Rounds that agree -/

/-- Two rounds give the same bytes for two keys and any salt. -/
def SameRuns (rounds rounds' : Eksblowfish) (key key' : Bytes) : Prop :=
  ∀ flags cost salt, salt.length = 16 →
    rounds.run key flags cost salt = rounds'.run key' flags cost salt

theorem bfCrypt_congr
    {rounds rounds' : Eksblowfish}
    {key key' : Bytes}
    (same : SameRuns rounds rounds' key key')
    (setting : Bytes)
    (size min : Nat) :
    bfCrypt rounds key setting size min = bfCrypt rounds' key' setting size min := by
  unfold bfCrypt
  split
  · rfl
  · congr 1
    funext header
    cases header with
    | none => rfl
    | some header =>
        simp only
        split
        · rfl
        · cases decoded : bfDecode setting 16 7 with
          | error fault => rfl
          | ok salt =>
              cases salt with
              | none => rfl
              | some salt =>
                  simp only [bind, Except.bind,
                    same header.1 header.2 salt (length_bfDecode decoded)]

theorem cryptBlowfishRn_congr
    {rounds rounds' : Eksblowfish}
    {key key' : Bytes}
    (same : SameRuns rounds rounds' key key')
    (tests : ∀ subtype, selfTest rounds subtype = selfTest rounds' subtype)
    (setting output : Bytes)
    (size : Nat) :
    cryptBlowfishRn rounds key setting output size =
      cryptBlowfishRn rounds' key' setting output size := by
  unfold cryptBlowfishRn
  simp only [bfCrypt_congr same, tests]

/-! ## The characters that count -/

theorem noNul_cStr (text : Bytes) : 0 ∉ cStr text :=
  fun inside => ne_zero_of_mem_cStr inside rfl

theorem eksRun_congr
    (order order' : ByteOrder)
    {key other : Bytes}
    (noNul : 0 ∉ key)
    (noNul' : 0 ∉ other)
    (agree : key.take 72 = other.take 72) :
    SameRuns (eksblowfish order) (eksblowfish order') key other := by
  intro flags cost salt whole
  refine (eksRun_order order order' key flags cost whole).trans ?_
  change eksRun order' key flags cost salt = eksRun order' other flags cost salt
  rw [eksRun, eksRun, eksSchedule, eksSchedule,
    bfSetKey_of_take noNul noNul' agree]

theorem selfTest_order (order order' : ByteOrder) (subtype : UInt8) :
    selfTest (eksblowfish order) subtype =
      selfTest (eksblowfish order') subtype := by
  have noNul : 0 ∉ testKey := by decide
  rw [selfTest, selfTest, bfCrypt_congr (eksRun_congr order order' noNul noNul rfl)]
  rfl

/-- A hash is the same for passwords that agree in their first 72 characters,
and on machines with either order of bytes. -/
theorem crypt_of_take
    (order order' : ByteOrder)
    (draws : Fin 22 → Fin 64)
    {password other : Bytes}
    (algo : Bytes)
    (agree : (cStr password).take 72 = (cStr other).take 72) :
    crypt (eksblowfish order) draws password algo =
      crypt (eksblowfish order') draws other algo := by
  have same := eksRun_congr order order' (noNul_cStr password)
    (noNul_cStr other) agree
  rw [crypt, crypt]
  simp only [cryptBlowfishRn_congr same (selfTest_order order order')]

end Security
end Lotospp
