import Lotospp.Security.HashedPart
import Lotospp.Security.PackedBlocks
import Lotospp.Security.Verification

/-!
# The self-test

`crypt_blowfish_rn` hashes a test key before it trusts a hash.  With the
rounds of `BF_crypt` the test passes on machines with either order of bytes,
so a password that is hashed for an account is right when it is entered later.
-/

namespace Lotospp
namespace Security

open Text Common Cipher

/-! ## Evaluating the rounds -/

/-- The words of `bf_init.S` in one number. -/
def packedBoxes : Nat :=
  packed 32 ((initialBox0.toList ++ (initialBox1.toList ++
    (initialBox2.toList ++ initialBox3.toList))).map UInt32.toNat)

theorem packedBoxes_eq : packedBoxes = packedWords initialBoxes := by
  rw [packedWords, initialBoxes, packedBoxes]
  simp only [Vector.toList_append, List.append_assoc]

/-- The words that `BF_crypt` encrypts, each with its highest byte first. -/
def packedRun (key : Bytes) (flags cost : Nat) (salt : BFSalt) :
    List (Nat × Nat) :=
  packedHash (2 ^ cost) (packedWords (bfSetKey key flags).2) packedBoxes
    (packedWords (bfSetKey key flags).1) (packedWords (saltKey salt))
    (saltAt salt 0).toNat (saltAt salt 1).toNat (saltAt salt 2).toNat
    (saltAt salt 3).toNat

theorem eksRun_packed
    (key : Bytes)
    (flags cost : Nat)
    (salt : Bytes) :
    eksRun .big key flags cost salt =
      (packedRun key flags cost (saltWords .big salt)).flatMap fun words =>
        (littleEndian 4 words.1).reverse ++ (littleEndian 4 words.2).reverse := by
  rw [packedRun, packedBoxes_eq,
    packedHash_eq { P := (bfSetKey key flags).2, S := initialBoxes },
    List.flatMap_map, eksRun, eksSchedule_eq]
  rfl

/-! ## The hashes of the test -/

/-- The salt of `test_setting`. -/
def testSalt : Bytes :=
  [113, 215, 159, 130, 24, 163, 146, 89, 167, 162, 154, 171, 178, 219, 175, 195]

set_option maxRecDepth 4096 in
theorem packedRun_correct :
    packedRun testKey 2 0 (saltWords .big testSalt) =
      [(2473688539, 4234244748), (663914952, 2060299443),
        (2511454567, 784623558)] := by
  decide +kernel

set_option maxRecDepth 4096 in
theorem packedRun_buggy :
    packedRun testKey 1 0 (saltWords .big testSalt) =
      [(1567314337, 2440867866), (1464945405, 2901500689),
        (1073149810, 2703833314)] := by
  decide +kernel

/-- The test key has the same subkeys with and without the safety. -/
theorem bfSetKey_testKey : bfSetKey testKey 4 = bfSetKey testKey 2 := by
  decide +kernel

theorem packedRun_testKey :
    packedRun testKey 4 0 (saltWords .big testSalt) =
      packedRun testKey 2 0 (saltWords .big testSalt) := by
  rw [packedRun, bfSetKey_testKey, packedRun]

theorem bfEncode_test
    (order : ByteOrder)
    {flags : Nat}
    (known : flags ∈ [2, 4, 1]) :
    bfEncode (((eksblowfish order).run testKey flags 0 testSalt).take 23) =
      testHash flags := by
  rw [show (eksblowfish order).run testKey flags 0 testSalt =
    eksRun .big testKey flags 0 testSalt from
      eksRun_order order .big testKey flags 0 rfl, eksRun_packed]
  rcases List.mem_cons.mp known with rfl | known
  · rw [packedRun_correct]
    decide +kernel
  · rcases List.mem_cons.mp known with rfl | known
    · rw [packedRun_testKey, packedRun_correct]
      decide +kernel
    · obtain rfl := List.mem_singleton.mp known
      rw [packedRun_buggy]
      decide +kernel

/-- The setting of the test is valid for each letter. -/
theorem testSetting_valid :
    ∀ subtype ∈ lit "abxy", flagsOf subtype ∈ [2, 4, 1] ∧
      ValidHeader (testSetting subtype) ∧
      (testSetting subtype).take 28 ++
        [masked ((testSetting subtype).getD 28 0)] = testSetting subtype := by
  decide +kernel

theorem decodedBytes_testSetting (subtype : UInt8) :
    decodedBytes 16 ((testSetting subtype).drop 7) = testSalt := by
  change decodedBytes 16 (lit "abcdefghijklmnopqrstuu") = testSalt
  decide +kernel

/-- The test of `BF_set_key` passes. -/
theorem setsKeys_passes : setsKeys = true := by
  decide +kernel

/-- The self-test passes for each letter. -/
theorem selfTest_passes
    (order : ByteOrder)
    {subtype : UInt8}
    (letter : subtype ∈ lit "abxy") :
    selfTest (eksblowfish order) subtype := by
  obtain ⟨known, valid, front⟩ := testSetting_valid subtype letter
  have header : headerOf (testSetting subtype) = (flagsOf subtype, 0) := rfl
  have cost : 1 ≤ 2 ^ (headerOf (testSetting subtype)).2 := Nat.one_le_two_pow
  have written := bfCrypt_whole (eksblowfish order) testKey valid cost rfl
  rw [hashOf, header, decodedBytes_testSetting, bfEncode_test order known,
    front] at written
  have sets : (eksblowfish order).setsKeys = true := by
    rw [eksblowfish, setsKeys_passes]
  rw [selfTest, decide_eq_true_iff]
  exact ⟨written, sets⟩

/-! ## Registered passwords -/

/-- A password that has been hashed verifies the hash. -/
theorem crypt_storedHash
    (rounds : Eksblowfish)
    (draws later : Fin 22 → Fin 64)
    (password : Bytes)
    (passes : selfTest rounds 121) :
    crypt rounds later password (storedHash rounds draws password) =
      .ok (storedHash rounds draws password) := by
  have complete := isBcryptHash_storedHash rounds draws password
  have some_ : storedHash rounds draws password ≠ [] := by
    rw [← List.length_pos_iff, complete.length]
    decide
  have long : 28 ≤ (freshSetting draws).length := by
    rw [length_freshSetting]
    decide
  have front := validHeader_fresh draws
  have header := headerOf_fresh draws
  have valid : ValidHeader (storedHash rounds draws password) :=
    validHeader_hashOf rounds _ _ long front
  have written := bfCrypt_hashOf rounds (cStr password) front
    (show 16 ≤ 2 ^ (headerOf (freshSetting draws)).2 by rw [header]; decide)
    (saltStop_fresh draws)
  rw [drop_freshSetting] at written
  have letter : (storedHash rounds draws password).getD 2 0 = 121 := by
    rw [storedHash, getD_hashOf rounds _ _ long (by decide),
      ← getD_take (show 2 < 7 by decide), take_freshSetting]
    rfl
  rw [crypt_stored rounds later password some_, complete.cStr,
    cryptBlowfishRn_some rounds _ valid written, letter, if_pos passes]
  exact congrArg Except.ok complete.cStr

/-- A hash is verified on every machine, by all passwords with the same first
72 characters. -/
theorem storedHash_verifies
    (order order' : ByteOrder)
    (draws later : Fin 22 → Fin 64)
    {password other : Bytes}
    (agree : (cStr password).take 72 = (cStr other).take 72) :
    crypt (eksblowfish order') later other
        (storedHash (eksblowfish order) draws password) =
      .ok (storedHash (eksblowfish order) draws password) := by
  have passes := selfTest_passes order (show 121 ∈ lit "abxy" by decide)
  rw [← crypt_of_take order order' later _ agree]
  exact crypt_storedHash _ draws later password passes

/-- A password is hashed for an account. -/
theorem crypt_registered
    (order : ByteOrder)
    (draws : Fin 22 → Fin 64)
    (password : Bytes) :
    crypt (eksblowfish order) draws password [] =
      .ok (storedHash (eksblowfish order) draws password) :=
  crypt_registers _ draws password
    (selfTest_passes order (show 121 ∈ lit "abxy" by decide))

/-- A password that is hashed for an account is right on every machine, and so
is any other one with the same first 72 characters. -/
theorem registered_verifies
    (order order' : ByteOrder)
    (draws later : Fin 22 → Fin 64)
    {password other : Bytes}
    (agree : (cStr password).take 72 = (cStr other).take 72) :
    ∃ hash, crypt (eksblowfish order) draws password [] = .ok hash ∧
      IsBcryptHash hash ∧ hash.take 7 = lit "$2y$10$" ∧
      crypt (eksblowfish order') later other hash = .ok hash :=
  ⟨_, crypt_registered order draws password,
    isBcryptHash_storedHash _ draws password,
    take_seven_storedHash _ draws password,
    storedHash_verifies order order' draws later agree⟩

/-- What follows the first 72 characters does not matter. -/
theorem registered_verifies_long :
    ∃ hash,
      crypt (eksblowfish .little) (fun _ => 0)
        (List.replicate 72 97 ++ lit "x") [] = .ok hash ∧
      IsBcryptHash hash ∧ hash.take 7 = lit "$2y$10$" ∧
      crypt (eksblowfish .big) (fun _ => 1)
        (List.replicate 72 97 ++ lit "y") hash = .ok hash :=
  registered_verifies .little .big (fun _ => 0) (fun _ => 1) (by decide)

end Security
end Lotospp
