import Lotospp.Security.Hashes

/-!
# Verification of passwords

A password is right when `Blowfish::crypt` with the stored hash as its setting
returns the stored hash.  A hash of a registration verifies the password it
was made from.  A stored text that is no hash verifies no password, unless a
dollar sign stands among the characters of its salt.
-/

namespace Lotospp
namespace Security

open Text Common

/-! ## The checks around `BF_crypt` -/

/-- What is returned when there is no hash. -/
def refusal (setting : Bytes) : Bytes :=
  if setting.getD 0 0 = 42 ∧ setting.getD 1 0 = 48 then lit "*1" else lit "*0"

theorem cryptOutputMagic_eq (setting output : Bytes) :
    cryptOutputMagic setting output 61 = .ok (refusal setting) := by
  have first : readAt setting 0 = .ok (setting.getD 0 0) := by
    rw [readAt, if_pos (Nat.zero_le _)]
  rw [cryptOutputMagic, if_neg (by decide), first]
  simp only [bind, Except.bind]
  by_cases star : setting.getD 0 0 = 42
  · have long : 1 ≤ setting.length := lt_of_getD_ne (by rw [star]; decide)
    have second : readAt setting 1 = .ok (setting.getD 1 0) := by
      rw [readAt, if_pos long]
    rw [if_pos star, second]
    simp only [refusal, star, true_and]
    split <;> rfl
  · rw [if_neg star, refusal, if_neg (fun both => star both.1)]
    rfl

/-- A refusal differs from the setting. -/
theorem refusal_ne (setting : Bytes) : refusal setting ≠ setting := by
  intro same
  rw [refusal] at same
  split at same <;> rename_i front
  · rw [← same] at front
    exact absurd front (by decide)
  · rw [← same] at front
    exact absurd front (by decide)

theorem cStr_refusal (setting : Bytes) :
    cStr (refusal setting) = refusal setting := by
  rw [refusal]
  split <;> decide

section Rounds

variable (rounds : Eksblowfish) (key : Bytes) {setting : Bytes}

theorem cryptBlowfishRn_none
    (nothing : bfCrypt rounds key setting 61 16 = .ok none) :
    cryptBlowfishRn rounds key setting [] 61 = .ok (refusal setting) := by
  rw [cryptBlowfishRn, cryptOutputMagic_eq]
  simp only [bind, Except.bind, nothing, cryptOutputMagic_eq]
  split <;> rfl

theorem cryptBlowfishRn_some
    {hash : Bytes}
    (valid : ValidHeader setting)
    (written : bfCrypt rounds key setting 61 16 = .ok (some hash)) :
    cryptBlowfishRn rounds key setting [] 61 =
      .ok (if selfTest rounds (setting.getD 2 0) then hash
        else refusal setting) := by
  have long := valid.length
  have letter : readAt setting 2 = .ok (setting.getD 2 0) := by
    rw [readAt, if_pos (by omega)]
  rw [cryptBlowfishRn, cryptOutputMagic_eq]
  simp only [bind, Except.bind, written, letter, cryptOutputMagic_eq]
  split <;> rfl

theorem cryptBlowfishRn_error
    {fault : CryptFault}
    (failed : bfCrypt rounds key setting 61 16 = .error fault) :
    cryptBlowfishRn rounds key setting [] 61 = .error fault := by
  rw [cryptBlowfishRn, cryptOutputMagic_eq]
  simp only [bind, Except.bind, failed]

end Rounds

/-! ## A fresh hash -/

/-- The front of a fresh setting. -/
def freshFront : Bytes := lit "$2y$10$"

/-- A fresh setting. -/
def freshSetting (draws : Fin 22 → Fin 64) : Bytes :=
  freshFront ++ freshSalt draws

theorem saltCharacters_mem (index : Fin 64) :
    saltCharacters.getD index 0 ∈ alphabet := by
  have all : ∀ index : Fin 64,
      sextet (saltCharacters.getD index 0) < 64 ∧
        itoa64 (sextet (saltCharacters.getD index 0)) =
          saltCharacters.getD index 0 := by
    decide +kernel
  obtain ⟨small, same⟩ := all index
  rw [← same]
  exact itoa64_mem small

theorem freshSalt_mem (draws : Fin 22 → Fin 64) :
    ∀ character ∈ freshSalt draws, character ∈ alphabet := by
  intro character inside
  obtain ⟨index, rfl⟩ := List.mem_ofFn.mp inside
  exact saltCharacters_mem (draws index)

theorem length_freshSalt (draws : Fin 22 → Fin 64) :
    (freshSalt draws).length = 22 :=
  List.length_ofFn

theorem length_freshSetting (draws : Fin 22 → Fin 64) :
    (freshSetting draws).length = 29 := by
  rw [freshSetting, List.length_append, length_freshSalt]
  rfl

/-- The header is in the first seven characters. -/
theorem getD_take
    {text : Bytes}
    {count position : Nat}
    (small : position < count) :
    (text.take count).getD position 0 = text.getD position 0 := by
  simp only [List.getD_eq_getElem?_getD, List.getElem?_take_of_lt small]

theorem getD_drop (text : Bytes) (count position : Nat) :
    (text.drop count).getD position 0 = text.getD (count + position) 0 := by
  simp

theorem validHeader_take (setting : Bytes) :
    ValidHeader (setting.take 7) ↔ ValidHeader setting := by
  simp only [ValidHeader, getD_take (show 0 < 7 by decide),
    getD_take (show 1 < 7 by decide), getD_take (show 2 < 7 by decide),
    getD_take (show 3 < 7 by decide), getD_take (show 4 < 7 by decide),
    getD_take (show 5 < 7 by decide), getD_take (show 6 < 7 by decide)]

theorem headerOf_take (setting : Bytes) :
    headerOf (setting.take 7) = headerOf setting := by
  simp only [headerOf, getD_take (show 2 < 7 by decide),
    getD_take (show 4 < 7 by decide), getD_take (show 5 < 7 by decide)]

theorem take_freshSetting (draws : Fin 22 → Fin 64) :
    (freshSetting draws).take 7 = freshFront :=
  List.take_left' rfl

theorem drop_freshSetting (draws : Fin 22 → Fin 64) :
    (freshSetting draws).drop 7 = freshSalt draws :=
  List.drop_left' rfl

theorem validHeader_fresh (draws : Fin 22 → Fin 64) :
    ValidHeader (freshSetting draws) := by
  rw [← validHeader_take, take_freshSetting]
  decide +kernel

theorem headerOf_fresh (draws : Fin 22 → Fin 64) :
    headerOf (freshSetting draws) = (4, 10) := by
  rw [← headerOf_take, take_freshSetting]
  decide +kernel

theorem saltStop_fresh (draws : Fin 22 → Fin 64) :
    saltStop (freshSetting draws) = none := by
  rw [saltStop, drop_freshSetting]
  refine firstStop_of_mem (length_freshSalt draws).ge fun character inside => ?_
  exact freshSalt_mem draws character (List.mem_of_mem_take inside)

/-! ## The parts of a hash -/

section HashOf

variable (rounds : Eksblowfish) (key : Bytes) {setting : Bytes} (salt : Bytes)

/-- The characters that `BF_encode` writes for a hash. -/
theorem length_encoded :
    (bfEncode ((rounds.run key (headerOf setting).1 (headerOf setting).2
      salt).take 23)).length = 31 := by
  rw [length_bfEncode, List.length_take, rounds.length_run]
  rfl

theorem length_hashOf
    (long : 28 ≤ setting.length) :
    (hashOf rounds key setting salt).length = 60 := by
  rw [hashOf, List.length_append, List.length_append, List.length_take,
    length_encoded, min_eq_left long]
  rfl

theorem take_hashOf
    (long : 28 ≤ setting.length) :
    (hashOf rounds key setting salt).take 28 = setting.take 28 := by
  rw [hashOf, List.append_assoc]
  apply List.take_left'
  rw [List.length_take, min_eq_left long]

theorem drop_hashOf
    (long : 28 ≤ setting.length) :
    (hashOf rounds key setting salt).drop 28 =
      masked (setting.getD 28 0) ::
        bfEncode ((rounds.run key (headerOf setting).1 (headerOf setting).2
          salt).take 23) := by
  rw [hashOf, List.append_assoc]
  apply List.drop_left'
  rw [List.length_take, min_eq_left long]

theorem getD_hashOf
    {position : Nat}
    (long : 28 ≤ setting.length)
    (small : position < 28) :
    (hashOf rounds key setting salt).getD position 0 =
      setting.getD position 0 := by
  rw [← getD_take small, take_hashOf rounds key salt long, getD_take small]

theorem getD_hashOf_masked
    (long : 28 ≤ setting.length) :
    (hashOf rounds key setting salt).getD 28 0 =
      masked (setting.getD 28 0) := by
  have last := getD_drop (hashOf rounds key setting salt) 28 0
  rw [drop_hashOf rounds key salt long] at last
  exact last.symm

theorem take_seven_hashOf
    (long : 28 ≤ setting.length) :
    (hashOf rounds key setting salt).take 7 = setting.take 7 := by
  have front := congrArg (List.take 7) (take_hashOf rounds key salt long)
  rwa [List.take_take, List.take_take] at front

theorem validHeader_hashOf
    (long : 28 ≤ setting.length)
    (valid : ValidHeader setting) :
    ValidHeader (hashOf rounds key setting salt) := by
  rw [← validHeader_take, take_seven_hashOf rounds key salt long]
  exact (validHeader_take setting).mpr valid

theorem headerOf_hashOf
    (long : 28 ≤ setting.length) :
    headerOf (hashOf rounds key setting salt) = headerOf setting := by
  rw [← headerOf_take, take_seven_hashOf rounds key salt long, headerOf_take]

/-- Everything behind the header is of the alphabet when the salt is. -/
theorem alphabet_hashOf
    (whole : saltStop setting = none) :
    ∀ character ∈ (hashOf rounds key setting salt).drop 7,
      character ∈ alphabet := by
  obtain ⟨long, values⟩ := firstStop_none whole
  rw [List.length_drop] at long
  have parts : (hashOf rounds key setting salt).drop 7 =
      (setting.take 28).drop 7 ++ ((hashOf rounds key setting salt).drop 28) := by
    conv_lhs => rw [← List.take_append_drop 28 (hashOf rounds key setting salt)]
    rw [take_hashOf rounds key salt (by omega), List.drop_append_of_le_length]
    rw [List.length_take]
    omega
  rw [parts, drop_hashOf rounds key salt (by omega)]
  intro character inside
  rcases List.mem_append.mp inside with front | back
  · apply values character
    rw [List.drop_take] at front
    exact List.mem_of_mem_take (i := 21) (by
      rwa [List.take_take])
  · rcases List.mem_cons.mp back with rfl | encoded
    · exact masked_mem _
    · exact mem_bfEncode _ character encoded

theorem saltStop_hashOf
    (whole : saltStop setting = none) :
    saltStop (hashOf rounds key setting salt) = none := by
  have long := (firstStop_none whole).1
  rw [List.length_drop] at long
  refine firstStop_of_mem ?_ fun character inside => ?_
  · rw [List.length_drop, length_hashOf rounds key salt (by omega)]
    decide
  · exact alphabet_hashOf rounds key salt whole character
      (List.mem_of_mem_take inside)

end HashOf

/-- Sixteen bytes are decoded from 22 characters, of the last of which two
bits count. -/
theorem decodedBytes_congr
    {characters others : Bytes}
    (front : ∀ position < 21,
      others.getD position 0 = characters.getD position 0)
    (last : others.getD 21 0 = masked (characters.getD 21 0)) :
    decodedBytes 16 others = decodedBytes 16 characters := by
  have twice (bits : UInt8) : bits &&& 0x30 &&& 0x30 = bits &&& 0x30 := by
    rw [UInt8.and_assoc, UInt8.and_self]
  have bits : sextet (others.getD 21 0) &&& 0x30 =
      sextet (characters.getD 21 0) &&& 0x30 := by
    rw [last, sextet_masked, twice]
  simp only [decodedBytes, List.drop_drop, getD_drop, Nat.reduceAdd, bits]
  simp (disch := decide) only [front]

/-- A hash is its own hash: it carries the salt that it was made with. -/
theorem bfCrypt_hashOf
    (rounds : Eksblowfish)
    (key : Bytes)
    {setting : Bytes}
    {min : Nat}
    (valid : ValidHeader setting)
    (cost : min ≤ 2 ^ (headerOf setting).2)
    (whole : saltStop setting = none) :
    let hash := hashOf rounds key setting (decodedBytes 16 (setting.drop 7))
    bfCrypt rounds key hash 61 min = .ok (some hash) := by
  intro hash
  have long := (firstStop_none whole).1
  rw [List.length_drop] at long
  have header : headerOf hash = headerOf setting :=
    headerOf_hashOf rounds key _ (by omega)
  have last : hash.getD 28 0 = masked (setting.getD 28 0) :=
    getD_hashOf_masked rounds key _ (by omega)
  have salt : decodedBytes 16 (hash.drop 7) =
      decodedBytes 16 (setting.drop 7) := by
    refine decodedBytes_congr (fun position small => ?_) ?_
    · rw [getD_drop, getD_drop]
      exact getD_hashOf rounds key _ (by omega) (by omega)
    · rw [getD_drop, getD_drop]
      exact last
  have same : hashOf rounds key hash (decodedBytes 16 (setting.drop 7)) =
      hash := by
    rw [hashOf, header, last, masked_masked,
      take_hashOf rounds key _ (by omega)]
    rfl
  rw [bfCrypt_whole rounds key
    (validHeader_hashOf rounds key _ (by omega) valid) (header ▸ cost)
    (saltStop_hashOf rounds key _ whole), salt, same]

/-! ## `Blowfish::crypt` -/

/-- With a stored hash, its C string is the setting. -/
theorem crypt_stored
    (rounds : Eksblowfish)
    (draws : Fin 22 → Fin 64)
    (password : Bytes)
    {stored : Bytes}
    (some : stored ≠ []) :
    crypt rounds draws password stored =
      (cryptBlowfishRn rounds (cStr password) (cStr stored) [] 61).map
        cStr := by
  rw [crypt]
  simp only [if_neg some]
  cases cryptBlowfishRn rounds (cStr password) (cStr stored) [] 61 <;> rfl

/-- Without a stored hash, the setting is fresh. -/
theorem crypt_fresh
    (rounds : Eksblowfish)
    (draws : Fin 22 → Fin 64)
    (password : Bytes) :
    crypt rounds draws password [] =
      (cryptBlowfishRn rounds (cStr password) (freshSetting draws) [] 61).map
        cStr := by
  have text : cStr (freshSetting draws) = freshSetting draws := by
    refine cStr_of_ne_zero fun character inside => ?_
    rcases List.mem_append.mp inside with front | salt
    · have noNul : ∀ character ∈ freshFront, character ≠ 0 := by
        decide +kernel
      exact noNul character front
    · exact ne_zero_of_mem (freshSalt_mem draws character salt)
  rw [crypt]
  simp only [if_true]
  rw [show lit "$2y$10$" ++ freshSalt draws = freshSetting draws from rfl, text]
  cases cryptBlowfishRn rounds (cStr password) (freshSetting draws) [] 61 <;>
    rfl

/-- The hash that a registration stores. -/
def storedHash
    (rounds : Eksblowfish)
    (draws : Fin 22 → Fin 64)
    (password : Bytes) : Bytes :=
  hashOf rounds (cStr password) (freshSetting draws)
    (decodedBytes 16 (freshSalt draws))

/-- A complete bcrypt hash. -/
structure IsBcryptHash (hash : Bytes) : Prop where
  /-- It has 60 characters. -/
  length : hash.length = 60
  /-- The letter and the cost stand in front. -/
  front : ∃ subtype ∈ lit "abxy", ∃ tens ones : UInt8,
    hash.take 7 = [36, 50, subtype, 36, tens, ones, 36] ∧
      (48 ≤ tens ∧ tens ≤ 57) ∧ (48 ≤ ones ∧ ones ≤ 57) ∧
      4 ≤ costOf tens ones ∧ costOf tens ones ≤ 31
  /-- The salt and the digest are of the alphabet. -/
  characters : ∀ character ∈ hash.drop 7, character ∈ alphabet

/-- It contains no NUL. -/
theorem IsBcryptHash.cStr
    {hash : Bytes}
    (complete : IsBcryptHash hash) : cStr hash = hash := by
  obtain ⟨subtype, known, tens, ones, front, tensDigit, onesDigit, -⟩ :=
    complete.front
  refine cStr_of_ne_zero fun character inside => ?_
  rw [← List.take_append_drop 7 hash, front] at inside
  rcases List.mem_append.mp inside with header | rest
  · have subtypeNul : subtype ≠ 0 := by
      rintro rfl
      revert known
      decide
    have tensNul : tens ≠ 0 := by
      rintro rfl
      exact absurd tensDigit.1 (by decide)
    have onesNul : ones ≠ 0 := by
      rintro rfl
      exact absurd onesDigit.1 (by decide)
    rintro rfl
    simp [subtypeNul.symm, tensNul.symm, onesNul.symm] at header
  · exact ne_zero_of_mem (complete.characters character rest)

/-- The letters for which there are flags. -/
theorem flagsOf_ne_zero (subtype : UInt8) :
    flagsOf subtype ≠ 0 ↔ subtype ∈ lit "abxy" :=
  forall_byte (fun subtype => flagsOf subtype ≠ 0 ↔ subtype ∈ lit "abxy")
    (by decide +kernel) subtype

/-- The digits of a header give a cost of at most 31. -/
theorem costOf_le
    {tens ones : UInt8}
    (tensDigit : 48 ≤ tens ∧ tens ≤ 51)
    (onesDigit : (48 ≤ ones ∧ ones ≤ 57) ∧ ¬ (tens = 51 ∧ ones > 49)) :
    costOf tens ones ≤ 31 := by
  have tensNat : tens.toNat ≤ 51 := tensDigit.2
  have onesNat : ones.toNat ≤ 57 := onesDigit.1.2
  have thirties : tens.toNat = 51 → ones.toNat ≤ 49 := by
    intro three
    by_contra above
    refine onesDigit.2 ⟨UInt8.toNat_inj.mp three, ?_⟩
    exact UInt8.lt_iff_toNat_lt.mpr (not_le.mp above)
  unfold costOf
  omega

/-- The first seven characters. -/
theorem take_seven
    {text : Bytes}
    (long : 7 ≤ text.length) :
    text.take 7 = [text.getD 0 0, text.getD 1 0, text.getD 2 0,
      text.getD 3 0, text.getD 4 0, text.getD 5 0, text.getD 6 0] := by
  match text, long with
  | c0 :: c1 :: c2 :: c3 :: c4 :: c5 :: c6 :: rest, _ => rfl

/-- What is written for a setting with a whole salt is complete. -/
theorem isBcryptHash_hashOf
    (rounds : Eksblowfish)
    (key salt : Bytes)
    {setting : Bytes}
    (valid : ValidHeader setting)
    (cost : 16 ≤ 2 ^ (headerOf setting).2)
    (whole : saltStop setting = none) :
    IsBcryptHash (hashOf rounds key setting salt) := by
  have long := (firstStop_none whole).1
  rw [List.length_drop] at long
  refine ⟨length_hashOf rounds key salt (by omega), ?_,
    alphabet_hashOf rounds key salt whole⟩
  rw [take_seven_hashOf rounds key salt (by omega), take_seven valid.length]
  obtain ⟨first, second, letter, third, tens, ones, last⟩ := valid
  refine ⟨setting.getD 2 0, (flagsOf_ne_zero _).mp letter, setting.getD 4 0,
    setting.getD 5 0, ?_, ⟨tens.1, ?_⟩, ones.1, ?_, ?_⟩
  · rw [first, second, third, last]
    rfl
  · exact UInt8.le_trans tens.2 (by decide)
  · exact (Nat.pow_le_pow_iff_right (by decide)).mp
      (show 2 ^ 4 ≤ 2 ^ (headerOf setting).2 from cost)
  · exact costOf_le tens ones

/-! ## Registration and login -/

section Registration

variable (rounds : Eksblowfish) (draws : Fin 22 → Fin 64) (password : Bytes)

theorem isBcryptHash_storedHash :
    IsBcryptHash (storedHash rounds draws password) := by
  refine isBcryptHash_hashOf rounds _ _ (validHeader_fresh draws) ?_
    (saltStop_fresh draws)
  rw [headerOf_fresh]
  decide

/-- The letter is `y` and the cost is 10. -/
theorem take_seven_storedHash :
    (storedHash rounds draws password).take 7 = lit "$2y$10$" := by
  have long : 28 ≤ (freshSetting draws).length := by
    rw [length_freshSetting]
    decide
  rw [storedHash, take_seven_hashOf rounds _ _ long, take_freshSetting]
  rfl

/-- A registration stores a hash, or a refusal when the self-test fails. -/
theorem crypt_fresh_eq :
    crypt rounds draws password [] =
      .ok (if selfTest rounds 121 then storedHash rounds draws password
        else refusal (freshSetting draws)) := by
  have valid := validHeader_fresh draws
  have written := bfCrypt_whole rounds (cStr password) valid
    (by rw [headerOf_fresh]; decide : 16 ≤ 2 ^ (headerOf _).2)
    (saltStop_fresh draws)
  have letter : (freshSetting draws).getD 2 0 = 121 := by
    rw [← getD_take (show 2 < 7 by decide), take_freshSetting]
    rfl
  rw [crypt_fresh, cryptBlowfishRn_some rounds _ valid written, letter,
    drop_freshSetting]
  have text := (isBcryptHash_storedHash rounds draws password).cStr
  split
  · exact congrArg Except.ok text
  · exact congrArg Except.ok (cStr_refusal _)

/-- A registration stores a hash. -/
theorem crypt_registers
    (passes : selfTest rounds 121) :
    crypt rounds draws password [] =
      .ok (storedHash rounds draws password) := by
  rw [crypt_fresh_eq, if_pos passes]

/-- Whatever a registration stores is not empty. -/
theorem crypt_fresh_ne_nil
    {hash : Bytes}
    (stored : crypt rounds draws password [] = .ok hash) : hash ≠ [] := by
  rw [crypt_fresh_eq] at stored
  rw [← Except.ok.inj stored]
  split
  · rw [← List.length_pos_iff,
      (isBcryptHash_storedHash rounds draws password).length]
    decide
  · rw [refusal]
    split <;> decide

/-- The password of a registration verifies at a login. -/
theorem crypt_verifies
    (later : Fin 22 → Fin 64)
    (passes : selfTest rounds 121) :
    ∃ hash, crypt rounds draws password [] = .ok hash ∧
      crypt rounds later password hash = .ok hash := by
  refine ⟨_, crypt_registers rounds draws password passes, ?_⟩
  have complete := isBcryptHash_storedHash rounds draws password
  have stored : storedHash rounds draws password ≠ [] := by
    rw [← List.length_pos_iff, complete.length]
    decide
  have long : 28 ≤ (freshSetting draws).length := by
    rw [length_freshSetting]
    decide
  have cost : 16 ≤ 2 ^ (headerOf (freshSetting draws)).2 := by
    rw [headerOf_fresh]
    decide
  have written := bfCrypt_hashOf rounds (cStr password)
    (validHeader_fresh draws) cost (saltStop_fresh draws)
  rw [drop_freshSetting] at written
  have valid : ValidHeader (storedHash rounds draws password) :=
    validHeader_hashOf rounds _ _ long (validHeader_fresh draws)
  have letter : (storedHash rounds draws password).getD 2 0 = 121 := by
    rw [storedHash, getD_hashOf rounds _ _ long (by decide),
      ← getD_take (show 2 < 7 by decide), take_freshSetting]
    rfl
  rw [crypt_stored rounds later password stored, complete.cStr,
    cryptBlowfishRn_some rounds _ valid written, letter, if_pos passes]
  exact congrArg Except.ok complete.cStr

end Registration

/-! ## Sample rounds -/

/-- The digest that these characters are written for. -/
def digestOf (characters : Bytes) : Bytes :=
  decodedBytes 23 characters ++ [0]

theorem length_digestOf (characters : Bytes) :
    (digestOf characters).length = 24 := by
  rfl

/-- Rounds with the digests of the self-test, and this one for all other
keys. -/
def roundsWith (digest : Bytes) (whole : digest.length = 24) : Eksblowfish where
  run key flags _ _ :=
    if key = testKey then digestOf (testHash flags) else digest
  length_run key flags _ _ := by
    split
    · exact length_digestOf _
    · exact whole
  setsKeys := true

/-- The digest of `secret` for the salt `abcdefghijklmnopqrstuu`. -/
def secretRounds : Eksblowfish :=
  roundsWith (digestOf (lit "qflPDzB6gcMhKa1rZqKiun2YGL5sa2u"))
    (length_digestOf _)

/-- The letters `a` to `v` are drawn, of the last of which `u` is stored. -/
theorem crypt_verifies_secret :
    ∃ hash,
      crypt secretRounds (Fin.castLE (by decide)) (lit "secret") [] =
        .ok hash ∧
      crypt secretRounds (fun _ => 0) (lit "secret") hash = .ok hash :=
  crypt_verifies secretRounds (Fin.castLE (by decide)) (lit "secret")
    (fun _ => 0) (by decide +kernel)

example :
    crypt secretRounds (Fin.castLE (by decide)) (lit "secret") [] =
      .ok (lit "$2y$10$abcdefghijklmnopqrstuu" ++
        lit "qflPDzB6gcMhKa1rZqKiun2YGL5sa2u") := by
  decide +kernel

end Security
end Lotospp
