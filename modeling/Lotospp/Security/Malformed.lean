import Lotospp.Security.Verification

/-!
# Malformed hashes

A stored text that is not a complete hash verifies no password, and its
reading stops at its NUL.  The exception is a dollar sign among the characters
of the salt: it ends the decoding without an error, and the rest of the
setting is used unchecked.
-/

namespace Lotospp
namespace Security

open Text Common

/-- The stored text is read up to its NUL, and it is returned only if it is a
complete hash. -/
def Sound
    (rounds : Eksblowfish)
    (draws : Fin 22 → Fin 64)
    (password stored : Bytes) : Prop :=
  crypt rounds draws password stored ≠ .error .behindNul ∧
    (crypt rounds draws password stored = .ok stored → IsBcryptHash stored)

/-- The text has the length of a hash, and behind its salt stands what some
digest is written as. -/
structure Echoes (stored : Bytes) : Prop where
  /-- There is no NUL in it. -/
  text : cStr stored = stored
  /-- It has 60 characters. -/
  length : stored.length = 60
  /-- The last character of the salt has two bits. -/
  last : masked (stored.getD 28 0) = stored.getD 28 0
  /-- A digest stands behind it. -/
  digest : ∃ digest : Bytes, digest.length = 24 ∧
    stored.drop 29 = bfEncode (digest.take 23)

/-- A dollar sign ends the salt of the text, and the text is too short to have
a salt or has the other parts of a hash. -/
def Misread (stored : Bytes) : Prop :=
  ValidHeader (cStr stored) ∧ 16 ≤ 2 ^ (headerOf (cStr stored)).2 ∧
    saltStop (cStr stored) = some dollar ∧
      ((cStr stored).length < 28 ∨ Echoes stored)

/-! ## Texts that verify nothing -/

section Refused

variable (rounds : Eksblowfish) (draws : Fin 22 → Fin 64) (password : Bytes)

/-- Without a stored hash a hash is written, which is not empty. -/
theorem sound_nil : Sound rounds draws password [] := by
  have valid := validHeader_fresh draws
  have written := bfCrypt_whole rounds (cStr password) valid
    (by rw [headerOf_fresh]; decide : 16 ≤ 2 ^ (headerOf _).2)
    (saltStop_fresh draws)
  have result := cryptBlowfishRn_some rounds (cStr password) valid written
  rw [Sound, crypt_fresh, result]
  refine ⟨by simp [Except.map], fun same => ?_⟩
  have empty := Except.ok.inj same
  rw [drop_freshSetting] at empty
  split at empty
  · have text := (isBcryptHash_storedHash rounds draws password).cStr
    have nothing := congrArg List.length (text.symm.trans empty)
    rw [(isBcryptHash_storedHash rounds draws password).length] at nothing
    exact absurd nothing (by decide)
  · rw [cStr_refusal, refusal] at empty
    split at empty <;> exact absurd empty (by decide)

variable {stored : Bytes}

/-- A stored text that is refused is not returned. -/
theorem sound_of_none
    (some : stored ≠ [])
    (nothing : bfCrypt rounds (cStr password) (cStr stored) 61 16 =
      .ok none) : Sound rounds draws password stored := by
  rw [Sound, crypt_stored rounds draws password some,
    cryptBlowfishRn_none rounds _ nothing]
  refine ⟨by simp [Except.map], fun same => ?_⟩
  have returned := congrArg cStr (Except.ok.inj same)
  rw [cStr_refusal, cStr_refusal] at returned
  exact absurd returned (refusal_ne (cStr stored))

/-- Another fault than reading behind the NUL returns nothing. -/
theorem sound_of_error
    (some : stored ≠ [])
    (failed : bfCrypt rounds (cStr password) (cStr stored) 61 16 =
      .error .outsideTable) : Sound rounds draws password stored := by
  rw [Sound, crypt_stored rounds draws password some,
    cryptBlowfishRn_error rounds _ failed]
  exact ⟨by simp [Except.map], fun same => absurd same (by simp [Except.map])⟩

/-- If a hash is written, the text is returned only if it is this hash. -/
theorem sound_of_some
    {hash : Bytes}
    (valid : ValidHeader (cStr stored))
    (written : bfCrypt rounds (cStr password) (cStr stored) 61 16 =
      .ok (some hash))
    (complete : cStr hash = stored → IsBcryptHash stored) :
    Sound rounds draws password stored := by
  have some : stored ≠ [] := by
    rintro rfl
    exact absurd valid.length (by decide)
  rw [Sound, crypt_stored rounds draws password some,
    cryptBlowfishRn_some rounds _ valid written]
  refine ⟨by simp [Except.map], fun same => ?_⟩
  have returned := Except.ok.inj same
  split at returned
  · exact complete returned
  · have text := congrArg cStr returned
    rw [cStr_refusal, cStr_refusal] at text
    exact absurd text (refusal_ne (cStr stored))

end Refused

/-- What is written for a setting without NUL has none. -/
theorem cStr_hashOf
    (rounds : Eksblowfish)
    (key salt : Bytes)
    {setting : Bytes}
    (noNul : ∀ character ∈ setting, character ≠ 0) :
    cStr (hashOf rounds key setting salt) =
      hashOf rounds key setting salt := by
  refine cStr_of_ne_zero fun character inside => ?_
  rw [hashOf, List.append_assoc] at inside
  rcases List.mem_append.mp inside with front | back
  · exact noNul character (List.mem_of_mem_take front)
  · rcases List.mem_cons.mp back with rfl | encoded
    · exact ne_zero_of_mem (masked_mem _)
    · exact ne_zero_of_mem (mem_bfEncode _ character encoded)

/-- A text that is returned although a dollar sign ends its salt has the other
parts of a hash. -/
theorem echoes_of_returned
    (rounds : Eksblowfish)
    (key salt : Bytes)
    {stored : Bytes}
    (long : 28 ≤ (cStr stored).length)
    (returned : cStr (hashOf rounds key (cStr stored) salt) = stored) :
    Echoes stored := by
  rw [cStr_hashOf rounds key salt fun character inside =>
    ne_zero_of_mem_cStr inside] at returned
  have text : cStr stored = stored := by
    rw [← returned]
    exact cStr_hashOf rounds key salt fun character inside =>
      ne_zero_of_mem_cStr inside
  rw [text] at returned long
  refine ⟨text, ?_, ?_, ?_⟩
  · rw [← returned]
    exact length_hashOf rounds key salt long
  · have last := getD_hashOf_masked rounds key salt long
    rw [returned] at last
    exact last.symm
  · refine ⟨_, rounds.length_run key (headerOf stored).1 (headerOf stored).2
      salt, ?_⟩
    have back := congrArg (List.drop 1) (drop_hashOf rounds key salt long)
    rw [returned, List.drop_drop] at back
    exact back

/-- Every text that is not misread is sound, for all rounds. -/
theorem sound_of_not_misread
    (rounds : Eksblowfish)
    (draws : Fin 22 → Fin 64)
    (password : Bytes)
    {stored : Bytes}
    (read : ¬ Misread stored) : Sound rounds draws password stored := by
  by_cases empty : stored = []
  · rw [empty]
    exact sound_nil rounds draws password
  by_cases accepted :
      ValidHeader (cStr stored) ∧ 16 ≤ 2 ^ (headerOf (cStr stored)).2
  swap
  · exact sound_of_none rounds draws password empty
      (bfCrypt_noHeader rounds _ accepted)
  obtain ⟨valid, cost⟩ := accepted
  match stop : saltStop (cStr stored) with
  | none =>
      refine sound_of_some rounds draws password valid
        (bfCrypt_whole rounds _ valid cost stop) fun returned => ?_
      have complete := isBcryptHash_hashOf rounds (cStr password)
        (decodedBytes 16 ((cStr stored).drop 7)) valid cost stop
      rw [complete.cStr] at returned
      rwa [returned] at complete
  | some character =>
      by_cases isDollar : character = dollar
      swap
      · exact sound_of_none rounds draws password empty
          (bfCrypt_invalid rounds _ valid cost stop isDollar)
      subst isDollar
      have long : 28 ≤ (cStr stored).length := by
        by_contra short
        exact read ⟨valid, cost, stop, .inl (not_le.mp short)⟩
      obtain ⟨salt, written⟩ :=
        bfCrypt_dollar rounds (cStr password) valid cost stop long
      cases last : tableAt ((cStr stored).getD 28 0) with
      | error fault =>
          rw [last, tableAt_error last] at written
          exact sound_of_error rounds draws password empty written
      | ok bits =>
          rw [last] at written
          refine sound_of_some rounds draws password valid written
            fun returned => ?_
          exact absurd ⟨valid, cost, stop,
            .inr (echoes_of_returned rounds _ salt long returned)⟩ read

/-! ## Texts that are misread -/

/-- A short text is read behind its NUL, whatever the password. -/
theorem crypt_short
    (rounds : Eksblowfish)
    (draws : Fin 22 → Fin 64)
    (password : Bytes)
    {stored : Bytes}
    (valid : ValidHeader (cStr stored))
    (cost : 16 ≤ 2 ^ (headerOf (cStr stored)).2)
    (stop : saltStop (cStr stored) = some dollar)
    (short : (cStr stored).length < 28) :
    crypt rounds draws password stored = .error .behindNul := by
  have some : stored ≠ [] := by
    rintro rfl
    exact absurd valid.length (by decide)
  rw [crypt_stored rounds draws password some,
    cryptBlowfishRn_error rounds _ (bfCrypt_short rounds _ valid cost stop short)]
  rfl

/-- The self-test passes with the sample rounds. -/
theorem selfTest_roundsWith
    (digest : Bytes)
    (whole : digest.length = 24)
    {subtype : UInt8}
    (known : subtype ∈ lit "abxy") :
    selfTest (roundsWith digest whole) subtype := by
  have letters : ∀ subtype ∈ lit "abxy",
      ValidHeader (testSetting subtype) ∧
        1 ≤ 2 ^ (headerOf (testSetting subtype)).2 ∧
        saltStop (testSetting subtype) = none ∧
        (testSetting subtype).take 28 ++
            [masked ((testSetting subtype).getD 28 0)] ++
            bfEncode ((digestOf (testHash
              (headerOf (testSetting subtype)).1)).take 23) =
          testSetting subtype ++ testHash (flagsOf subtype) := by
    decide +kernel
  obtain ⟨valid, cost, stop, expected⟩ := letters subtype known
  have written : hashOf (roundsWith digest whole) testKey
      (testSetting subtype) (decodedBytes 16 ((testSetting subtype).drop 7)) =
        testSetting subtype ++ testHash (flagsOf subtype) := by
    rw [← expected]
    simp only [hashOf, roundsWith, if_true]
  rw [selfTest, bfCrypt_whole _ testKey valid cost stop, written]
  simp only [roundsWith, and_self, decide_true]

/-- A text that has the other parts of a hash is returned with some rounds. -/
theorem crypt_echoes
    {stored : Bytes}
    (valid : ValidHeader stored)
    (cost : 16 ≤ 2 ^ (headerOf stored).2)
    (stop : saltStop stored = some dollar)
    (echoes : Echoes stored) :
    ∃ rounds draws password, crypt rounds draws password stored =
      .ok stored := by
  obtain ⟨digest, whole, back⟩ := echoes.digest
  have long : 28 ≤ stored.length := by
    rw [echoes.length]
    decide
  have last : tableAt (stored.getD 28 0) = .ok (sextet (stored.getD 28 0)) := by
    apply tableAt_of_mem
    rw [← echoes.last]
    exact masked_mem _
  refine ⟨roundsWith digest whole, fun _ => 0, [], ?_⟩
  obtain ⟨salt, written⟩ :=
    bfCrypt_dollar (roundsWith digest whole) [] valid cost stop long
  rw [last] at written
  have same : hashOf (roundsWith digest whole) [] stored salt = stored := by
    have inside : 28 < stored.length := by
      rw [echoes.length]
      decide
    have character : stored.drop 28 = stored.getD 28 0 :: stored.drop 29 := by
      rw [List.drop_eq_getElem_cons inside]
      simp [List.getElem?_eq_getElem inside]
    conv_rhs => rw [← List.take_append_drop 28 stored, character, back]
    rw [hashOf, echoes.last, List.append_assoc]
    rfl
  rw [same] at written
  have some : stored ≠ [] := by
    rintro rfl
    exact absurd echoes.length (by decide)
  have letter := selfTest_roundsWith digest whole
    ((flagsOf_ne_zero _).mp valid.2.2.1)
  have result := cryptBlowfishRn_some _ [] valid written
  rw [if_pos letter] at result
  rw [crypt_stored _ _ _ some, echoes.text]
  exact (congrArg (Except.map cStr) result).trans
    (congrArg Except.ok echoes.text)

/-- A text with a dollar sign in its salt is no complete hash. -/
theorem not_isBcryptHash
    {stored : Bytes}
    (text : cStr stored = stored)
    (stop : saltStop (cStr stored) = some dollar) :
    ¬ IsBcryptHash stored := by
  intro complete
  rw [text, saltStop, firstStop_of_mem] at stop
  · exact absurd stop (by simp)
  · rw [List.length_drop, complete.length]
    decide
  · intro character inside
    exact complete.characters character (List.mem_of_mem_take inside)

/-- The stored texts that are sound for all rounds and passwords. -/
theorem sound_iff
    (stored : Bytes) :
    (∀ rounds draws password, Sound rounds draws password stored) ↔
      ¬ Misread stored := by
  constructor
  · rintro sound ⟨valid, cost, stop, short | echoes⟩
    · refine (sound secretRounds (fun _ => 0) []).1 ?_
      exact crypt_short _ _ _ valid cost stop short
    · have text := echoes.text
      rw [text] at valid cost stop
      obtain ⟨rounds, draws, password, returned⟩ :=
        crypt_echoes valid cost stop echoes
      refine not_isBcryptHash text ?_
        ((sound rounds draws password).2 returned)
      rwa [text]
  · intro read rounds draws password
    exact sound_of_not_misread rounds draws password read

/-- The eight characters `$2a$04$$` are read behind their NUL. -/
theorem short_not_sound :
    ¬ Sound secretRounds (fun _ => 0) (lit "any") (lit "$2a$04$$") :=
  fun sound => sound.1 (by decide +kernel)

end Security
end Lotospp
