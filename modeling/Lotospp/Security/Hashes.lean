import Lotospp.Security.Blowfish

/-!
# Hashes and settings

What `BF_crypt` makes of a setting.  The salt is decoded up to the first
character that is not of the alphabet; a dollar sign there ends the decoding
without an error.
-/

namespace Lotospp
namespace Security

open Text Common

/-! ## The alphabet -/

/-- The six bits of a character. -/
def sextet (character : UInt8) : UInt8 :=
  atoi64.getD (character - 0x20).toNat 64

/-- The character for the two bits that a last character of a salt gives. -/
def masked (character : UInt8) : UInt8 :=
  itoa64 (sextet character &&& 0x30)

/-- The characters of the alphabet are read back from the table. -/
theorem reads_of_mem
    {character : UInt8}
    (inside : character ∈ alphabet) :
    sextet character < 64 ∧ itoa64 (sextet character) = character ∧
      tableAt character = .ok (sextet character) ∧
      safeAtoi64 character = .value (sextet character) := by
  have all : ∀ character ∈ alphabet,
      sextet character < 64 ∧ itoa64 (sextet character) = character ∧
        tableAt character = .ok (sextet character) ∧
        safeAtoi64 character = .value (sextet character) := by
    decide +kernel
  exact all character inside

theorem sextet_lt
    {character : UInt8}
    (inside : character ∈ alphabet) : sextet character < 64 :=
  (reads_of_mem inside).1

theorem itoa64_sextet
    {character : UInt8}
    (inside : character ∈ alphabet) : itoa64 (sextet character) = character :=
  (reads_of_mem inside).2.1

theorem tableAt_of_mem
    {character : UInt8}
    (inside : character ∈ alphabet) :
    tableAt character = .ok (sextet character) :=
  (reads_of_mem inside).2.2.1

theorem itoa64_mem
    {index : UInt8}
    (small : index < 64) : itoa64 index ∈ alphabet := by
  have inside : index.toNat < alphabet.length := UInt8.lt_iff_toNat_lt.mp small
  rw [itoa64, List.getD_eq_getElem?_getD, List.getElem?_eq_getElem inside]
  exact List.getElem_mem inside

/-- The other characters have no value. -/
theorem reads_or_mem (character : UInt8) :
    safeAtoi64 character =
        (if character = dollar then .dollar else .invalid) ∨
      character ∈ alphabet := by
  have all := forall_byte
    (fun character =>
      safeAtoi64 character =
          (if character = dollar then .dollar else .invalid) ∨
        sextet character < 64 ∧ itoa64 (sextet character) = character)
    (by decide +kernel) character
  refine all.imp_right fun found => ?_
  rw [← found.2]
  exact itoa64_mem found.1

theorem safeAtoi64_eq (character : UInt8) :
    safeAtoi64 character =
      if character ∈ alphabet then .value (sextet character)
      else if character = dollar then .dollar
      else .invalid := by
  split
  · next inside => exact (reads_of_mem inside).2.2.2
  · next outside => exact (reads_or_mem character).resolve_right outside

theorem ne_zero_of_mem
    {character : UInt8}
    (inside : character ∈ alphabet) : character ≠ 0 := by
  rintro rfl
  exact absurd inside (by decide +kernel)

theorem tableAt_ok
    {character bits : UInt8}
    (read : tableAt character = .ok bits) : bits = sextet character := by
  unfold tableAt at read
  split at read
  · exact (Except.ok.inj read).symm
  · exact absurd read (by simp)

theorem tableAt_error
    {character : UInt8}
    {fault : CryptFault}
    (failed : tableAt character = .error fault) : fault = .outsideTable := by
  unfold tableAt at failed
  split at failed
  · exact absurd failed (by simp)
  · exact (Except.error.inj failed).symm

theorem sextet_itoa64
    {index : UInt8}
    (small : index < 64) : sextet (itoa64 index) = index := by
  have all : ∀ place : Fin 64,
      sextet (itoa64 (UInt8.ofNat place)) = UInt8.ofNat place := by
    decide +kernel
  have same := all ⟨index.toNat, UInt8.lt_iff_toNat_lt.mp small⟩
  rwa [UInt8.ofNat_toNat] at same

theorem and_lt (bits : UInt8) : bits &&& 0x30 < 64 := by
  rw [UInt8.lt_iff_toNat_lt, UInt8.toNat_and]
  exact Nat.lt_of_le_of_lt Nat.and_le_right (by decide)

theorem masked_mem (character : UInt8) : masked character ∈ alphabet :=
  itoa64_mem (and_lt _)

theorem sextet_masked (character : UInt8) :
    sextet (masked character) = sextet character &&& 0x30 :=
  sextet_itoa64 (and_lt _)

theorem masked_masked (character : UInt8) :
    masked (masked character) = masked character := by
  rw [masked, sextet_masked, UInt8.and_assoc, UInt8.and_self, masked]

/-! ## Decoding a salt -/

/-- The number of characters that so many bytes are decoded from. -/
def sextetsFor : Nat → Nat
  | 0 => 0
  | 1 => 2
  | 2 => 3
  | left + 3 => sextetsFor left + 4

/-- The first of so many characters that is not of the alphabet; a NUL stands
at the end of the text. -/
def firstStop : (count : Nat) → Bytes → Option UInt8
  | 0, _ => none
  | _ + 1, [] => some 0
  | count + 1, character :: rest =>
      if character ∈ alphabet then firstStop count rest else some character

/-- The bytes that characters of the alphabet stand for. -/
def decodedBytes : (left : Nat) → (characters : Bytes) → Bytes
  | 0, _ => []
  | 1, characters =>
      let c1 := sextet (characters.getD 0 0)
      let c2 := sextet (characters.getD 1 0)
      [(c1 <<< 2) ||| ((c2 &&& 0x30) >>> 4)]
  | 2, characters =>
      let c1 := sextet (characters.getD 0 0)
      let c2 := sextet (characters.getD 1 0)
      let c3 := sextet (characters.getD 2 0)
      [(c1 <<< 2) ||| ((c2 &&& 0x30) >>> 4),
        ((c2 &&& 0x0F) <<< 4) ||| ((c3 &&& 0x3C) >>> 2)]
  | left + 3, characters =>
      let c1 := sextet (characters.getD 0 0)
      let c2 := sextet (characters.getD 1 0)
      let c3 := sextet (characters.getD 2 0)
      let c4 := sextet (characters.getD 3 0)
      ((c1 <<< 2) ||| ((c2 &&& 0x30) >>> 4)) ::
        (((c2 &&& 0x0F) <<< 4) ||| ((c3 &&& 0x3C) >>> 2)) ::
        (((c3 &&& 0x03) <<< 6) ||| c4) ::
        decodedBytes left (characters.drop 4)

/-- How the decoding ends: it stops at a dollar sign, it fails at another
character that is not of the alphabet, or it gives the bytes. -/
def Decodes
    (stop : Option UInt8)
    (bytes : Bytes)
    (result : Except CryptFault (Option Bytes)) : Prop :=
  match stop with
  | none => result = .ok (some bytes)
  | some character =>
      if character = dollar then ∃ zeroed, result = .ok (some zeroed)
      else result = .ok none

namespace Decodes

variable {setting : Bytes} {left sptr count : Nat} {bytes : Bytes}

theorem nothing : Decodes none [] (pure (some [])) := rfl

theorem emit
    {stop : Option UInt8}
    {result : Except CryptFault (Option Bytes)}
    (byte : UInt8)
    (decodes : Decodes stop bytes result) :
    Decodes stop (byte :: bytes) (emitByte byte result) := by
  cases stop with
  | none =>
      have same : result = .ok (some bytes) := decodes
      rw [same]
      rfl
  | some character =>
      unfold Decodes at decodes ⊢
      by_cases isDollar : character = dollar
      · simp only [isDollar, if_true] at decodes ⊢
        obtain ⟨zeroed, rfl⟩ := decodes
        exact ⟨byte :: zeroed, rfl⟩
      · simp only [isDollar, if_false] at decodes ⊢
        rw [decodes]
        rfl

/-- One character is read. -/
theorem read
    {next : UInt8 → Except CryptFault (Option Bytes)}
    (inside : sptr ≤ setting.length)
    (rest : sptr + 1 ≤ setting.length →
      Decodes (firstStop count (setting.drop (sptr + 1))) bytes
        (next (sextet ((setting.drop sptr).getD 0 0)))) :
    Decodes (firstStop (count + 1) (setting.drop sptr)) bytes
      (readSextet setting left sptr next) := by
  have character : readAt setting sptr =
      .ok ((setting.drop sptr).getD 0 0) := by
    rw [readAt, if_pos inside]
    simp
  rw [readSextet, character]
  simp only [bind, Except.bind, safeAtoi64_eq]
  cases front : setting.drop sptr with
  | nil =>
      have nul : (0 : UInt8) ∉ alphabet ∧ (0 : UInt8) ≠ dollar := by
        decide +kernel
      simp only [List.getD_nil, nul, if_false, firstStop]
      rfl
  | cons first others =>
      have longer : sptr + 1 ≤ setting.length := by
        have length := congrArg List.length front
        simp only [List.length_drop, List.length_cons] at length
        omega
      have tail : setting.drop (sptr + 1) = others := by
        rw [← List.drop_drop, front]
        rfl
      have later := rest longer
      rw [tail, front] at later
      simp only [List.getD_cons_zero, firstStop] at later ⊢
      by_cases isValue : first ∈ alphabet
      · simpa only [isValue, if_true] using later
      · simp only [isValue, if_false, Decodes]
        split
        · exact ⟨_, rfl⟩
        · rfl

end Decodes

theorem drop_getD (setting : Bytes) (sptr index : Nat) :
    (setting.drop (sptr + index)).getD 0 0 =
      (setting.drop sptr).getD index 0 := by
  simp

/-- What `BF_decode` makes of a setting. -/
theorem bfDecode_decodes
    (setting : Bytes)
    (left sptr : Nat)
    (inside : sptr ≤ setting.length) :
    Decodes (firstStop (sextetsFor left) (setting.drop sptr))
      (decodedBytes left (setting.drop sptr)) (bfDecode setting left sptr) := by
  induction left, sptr using bfDecode.induct with
  | case1 sptr => exact .nothing
  | case2 sptr =>
      rw [decodedBytes]
      refine .read inside fun inside => .read inside fun inside => ?_
      rw [drop_getD]
      exact .emit _ .nothing
  | case3 sptr =>
      rw [decodedBytes]
      refine .read inside fun inside => .read inside fun inside => ?_
      rw [drop_getD]
      refine .emit _ (.read inside fun inside => ?_)
      rw [show sptr + 1 + 1 = sptr + 2 from rfl, drop_getD]
      exact .emit _ .nothing
  | case4 left sptr inductionHypothesis =>
      rw [decodedBytes]
      refine .read inside fun inside => .read inside fun inside => ?_
      rw [drop_getD]
      refine .emit _ (.read inside fun inside => ?_)
      rw [show sptr + 1 + 1 = sptr + 2 from rfl, drop_getD]
      refine .emit _ (.read inside fun inside => ?_)
      rw [show sptr + 2 + 1 = sptr + 3 from rfl, drop_getD]
      refine .emit _ ?_
      rw [List.drop_drop]
      exact inductionHypothesis inside

/-! ## The header -/

/-- A setting starts with a letter that is known and a cost. -/
def ValidHeader (setting : Bytes) : Prop :=
  setting.getD 0 0 = dollar ∧ setting.getD 1 0 = 50 ∧
    flagsOf (setting.getD 2 0) ≠ 0 ∧ setting.getD 3 0 = dollar ∧
    (48 ≤ setting.getD 4 0 ∧ setting.getD 4 0 ≤ 51) ∧
    ((48 ≤ setting.getD 5 0 ∧ setting.getD 5 0 ≤ 57) ∧
      ¬ (setting.getD 4 0 = 51 ∧ setting.getD 5 0 > 49)) ∧
    setting.getD 6 0 = dollar

instance (setting : Bytes) : Decidable (ValidHeader setting) :=
  inferInstanceAs (Decidable (_ ∧ _ ∧ _ ∧ _ ∧ _ ∧ _ ∧ _))

/-- The flags and the cost in a header. -/
def headerOf (setting : Bytes) : Nat × Nat :=
  (flagsOf (setting.getD 2 0), costOf (setting.getD 4 0) (setting.getD 5 0))

/-- A character that is no NUL is in the text. -/
theorem lt_of_getD_ne
    {setting : Bytes}
    {position : Nat}
    (notNul : setting.getD position 0 ≠ 0) : position < setting.length := by
  by_contra behind
  exact notNul (by simp [List.getElem?_eq_none (not_lt.mp behind)])

/-- A test that no NUL passes ends the reading at the NUL. -/
theorem check_eq
    {α : Type}
    {setting : Bytes}
    {position : Nat}
    {passes : UInt8 → Bool}
    {next : UInt8 → Except CryptFault (Option α)}
    {wanted : Prop} [Decidable wanted]
    {answer : Option α}
    (inside : position ≤ setting.length)
    (nul : passes 0 = false)
    (rest : passes (setting.getD position 0) →
      position + 1 ≤ setting.length →
        next (setting.getD position 0) =
          .ok (if wanted then answer else none)) :
    check setting position passes next =
      .ok (if passes (setting.getD position 0) ∧ wanted then answer
        else none) := by
  have character : readAt setting position =
      .ok (setting.getD position 0) := by
    rw [readAt, if_pos inside]
  rw [check, character]
  simp only [bind, Except.bind]
  by_cases passed : passes (setting.getD position 0)
  · have longer : position < setting.length := by
      refine lt_of_getD_ne fun isNul => ?_
      rw [isNul, nul] at passed
      exact absurd passed (by decide)
    simp only [passed, if_true, true_and]
    exact rest passed longer
  · simp only [passed, Bool.false_eq_true, if_false, false_and]
    rfl

/-- The test of the header never reads behind the NUL. -/
theorem readHeader_eq (setting : Bytes) :
    readHeader setting =
      .ok (if ValidHeader setting then some (headerOf setting) else none) := by
  have last : ∀ wanted : Option (Nat × Nat),
      (pure wanted : Except CryptFault (Option (Nat × Nat))) =
        .ok (if True then wanted else none) := by
    intro wanted
    rw [if_pos trivial]
    rfl
  refine (check_eq (Nat.zero_le _) (by decide) fun _ inside =>
    check_eq inside (by decide) fun _ inside =>
      check_eq inside (by decide) fun _ inside =>
        check_eq inside (by decide) fun _ inside =>
          check_eq inside (by decide) fun _ inside =>
            check_eq inside (by simp) fun _ inside =>
              check_eq inside (by decide) fun _ _ => last _).trans ?_
  simp only [ValidHeader, headerOf, Bool.and_eq_true, Bool.not_eq_true',
    ← Bool.not_eq_true, decide_eq_true_eq, and_true, ne_eq, Nat.zero_add,
    Nat.reduceAdd]
  congr

theorem ValidHeader.length
    {setting : Bytes}
    (valid : ValidHeader setting) : 7 ≤ setting.length := by
  have last := valid.2.2.2.2.2.2
  exact lt_of_getD_ne (by rw [last]; decide)

/-! ## Encoding a hash -/

theorem length_bfEncode (bytes : Bytes) :
    (bfEncode bytes).length = sextetsFor bytes.length := by
  fun_induction bfEncode bytes with
  | case1 => rfl
  | case2 => rfl
  | case3 => rfl
  | case4 first second third rest inductionHypothesis =>
      simp [sextetsFor, inductionHypothesis]

/-- Two numbers of six bits give one. -/
theorem or_lt
    {left right : UInt8}
    (leftSmall : left < 64)
    (rightSmall : right < 64) : left ||| right < 64 := by
  have leftNat : left.toNat < 2 ^ 6 := leftSmall
  have rightNat : right.toNat < 2 ^ 6 := rightSmall
  have both : (left ||| right).toNat < 2 ^ 6 := by
    rw [UInt8.toNat_or]
    exact Nat.or_lt_two_pow leftNat rightNat
  exact both

/-- The parts of a byte that `BF_encode` takes have six bits. -/
theorem parts_lt (byte : UInt8) :
    byte >>> 2 < 64 ∧ (byte &&& 0x03) <<< 4 < 64 ∧ byte >>> 4 < 64 ∧
      (byte &&& 0x0F) <<< 2 < 64 ∧ byte >>> 6 < 64 ∧ byte &&& 0x3F < 64 := by
  have small := byte.toNat_lt
  have two : byte.toNat &&& 3 = byte.toNat % 4 :=
    Nat.and_two_pow_sub_one_eq_mod _ 2
  have four : byte.toNat &&& 15 = byte.toNat % 16 :=
    Nat.and_two_pow_sub_one_eq_mod _ 4
  have six : byte.toNat &&& 63 = byte.toNat % 64 :=
    Nat.and_two_pow_sub_one_eq_mod _ 6
  simp only [UInt8.lt_iff_toNat_lt, UInt8.toNat_shiftRight,
    UInt8.toNat_shiftLeft, UInt8.toNat_and, UInt8.reduceToNat, two, four, six,
    Nat.reduceMod, Nat.shiftRight_eq_div_pow, Nat.shiftLeft_eq]
  omega

/-- `BF_encode` writes characters of the alphabet. -/
theorem mem_bfEncode
    (bytes : Bytes) :
    ∀ character ∈ bfEncode bytes, character ∈ alphabet := by
  fun_induction bfEncode bytes with
  | case1 => simp
  | case2 first =>
      obtain ⟨high, low, -⟩ := parts_lt first
      simp only [List.forall_mem_cons]
      exact ⟨itoa64_mem high, itoa64_mem low, by simp⟩
  | case3 first second =>
      obtain ⟨high, low, -⟩ := parts_lt first
      obtain ⟨-, -, middle, end_, -⟩ := parts_lt second
      simp only [List.forall_mem_cons]
      exact ⟨itoa64_mem high, itoa64_mem (or_lt low middle), itoa64_mem end_,
        by simp⟩
  | case4 first second third rest inductionHypothesis =>
      obtain ⟨high, low, -⟩ := parts_lt first
      obtain ⟨-, -, middle, end_, -⟩ := parts_lt second
      obtain ⟨-, -, -, -, top, bottom⟩ := parts_lt third
      simp only [List.forall_mem_cons]
      exact ⟨itoa64_mem high, itoa64_mem (or_lt low middle),
        itoa64_mem (or_lt end_ top), itoa64_mem bottom, inductionHypothesis⟩

/-! ## The outcome of `BF_crypt` -/

/-- The hash that `BF_crypt` writes for a setting with this salt. -/
def hashOf
    (rounds : Eksblowfish)
    (key setting salt : Bytes) : Bytes :=
  setting.take 28 ++ [masked (setting.getD 28 0)] ++
    bfEncode ((rounds.run key (headerOf setting).1 (headerOf setting).2
      salt).take 23)

/-- The first character of the salt that is not of the alphabet. -/
def saltStop (setting : Bytes) : Option UInt8 :=
  firstStop 22 (setting.drop 7)

/-- Characters of the alphabet are in the text. -/
theorem firstStop_none
    {count : Nat}
    {characters : Bytes}
    (whole : firstStop count characters = none) :
    count ≤ characters.length ∧
      ∀ character ∈ characters.take count, character ∈ alphabet := by
  induction count generalizing characters with
  | zero => simp
  | succ count inductionHypothesis =>
      cases characters with
      | nil => simp [firstStop] at whole
      | cons first rest =>
          simp only [firstStop] at whole
          split at whole
          · rename_i isValue
            obtain ⟨long, values⟩ := inductionHypothesis whole
            refine ⟨by simpa using long, ?_⟩
            rw [List.take_succ_cons, List.forall_mem_cons]
            exact ⟨isValue, values⟩
          · exact absurd whole (by simp)

theorem firstStop_of_mem
    {count : Nat}
    {characters : Bytes}
    (long : count ≤ characters.length)
    (values : ∀ character ∈ characters.take count, character ∈ alphabet) :
    firstStop count characters = none := by
  induction count generalizing characters with
  | zero => cases characters <;> rfl
  | succ count inductionHypothesis =>
      cases characters with
      | nil => simp at long
      | cons first rest =>
          rw [List.take_succ_cons, List.forall_mem_cons] at values
          rw [firstStop, if_pos values.1]
          exact inductionHypothesis (by simpa using long) values.2

section BfCrypt

variable (rounds : Eksblowfish) (key : Bytes) {setting : Bytes} {min : Nat}

/-- Without a header, or with a cost that is too low, there is no hash. -/
theorem bfCrypt_noHeader
    (rejected : ¬ (ValidHeader setting ∧ min ≤ 2 ^ (headerOf setting).2)) :
    bfCrypt rounds key setting 61 min = .ok none := by
  rw [bfCrypt, readHeader_eq]
  simp only [bind, Except.bind]
  by_cases valid : ValidHeader setting
  · have low : 2 ^ (headerOf setting).2 < min := by
      by_contra enough
      exact rejected ⟨valid, not_lt.mp enough⟩
    simp only [valid, if_true]
    rw [if_neg (by decide)]
    exact if_pos low
  · simp only [valid, if_false]
    rw [if_neg (by decide)]
    rfl

/-- What is done with the decoded salt. -/
def withSalt
    (setting : Bytes) : Option Bytes → Except CryptFault (Option Bytes)
  | none => pure none
  | some salt => do
      let front ← copySetting setting 28
      let last ← tableAt (← readAt setting 28)
      pure (some (front ++ [itoa64 (last &&& 0x30)] ++
        bfEncode ((rounds.run key (headerOf setting).1 (headerOf setting).2
          salt).take 23)))

/-- With a header, the salt decides. -/
theorem bfCrypt_header
    (valid : ValidHeader setting)
    (cost : min ≤ 2 ^ (headerOf setting).2) :
    bfCrypt rounds key setting 61 min =
      bfDecode setting 16 7 >>= withSalt rounds key setting := by
  rw [bfCrypt, readHeader_eq]
  simp only [bind, Except.bind, valid, if_true]
  rw [if_neg (by decide)]
  apply (if_neg (not_lt.mpr cost)).trans
  rcases bfDecode setting 16 7 with fault | (_ | salt) <;> rfl

/-- In a setting that is long enough the salt is used, if the last character
can be looked up. -/
theorem withSalt_of_long
    (long : 28 ≤ setting.length)
    (salt : Bytes) :
    withSalt rounds key setting (some salt) =
      (tableAt (setting.getD 28 0)).map fun _ =>
        some (hashOf rounds key setting salt) := by
  have front : copySetting setting 28 = .ok (setting.take 28) := by
    rw [copySetting, if_pos (by omega), List.take_append_of_le_length long]
  have character : readAt setting 28 = .ok (setting.getD 28 0) := by
    rw [readAt, if_pos long]
  simp only [bind, Except.bind, withSalt, front, character]
  cases last : tableAt (setting.getD 28 0) with
  | error fault => rfl
  | ok bits =>
      rw [tableAt_ok last]
      rfl

/-- The salt is decoded up to its first character that is not of the
alphabet. -/
theorem bfDecode_salt (valid : ValidHeader setting) :
    Decodes (saltStop setting) (decodedBytes 16 (setting.drop 7))
      (bfDecode setting 16 7) :=
  bfDecode_decodes setting 16 7 valid.length

/-- A salt of the alphabet is used. -/
theorem bfCrypt_whole
    (valid : ValidHeader setting)
    (cost : min ≤ 2 ^ (headerOf setting).2)
    (whole : saltStop setting = none) :
    bfCrypt rounds key setting 61 min =
      .ok (some (hashOf rounds key setting
        (decodedBytes 16 (setting.drop 7)))) := by
  obtain ⟨long, values⟩ := firstStop_none whole
  rw [List.length_drop] at long
  have decoded := bfDecode_salt valid
  rw [whole] at decoded
  have inside : setting.getD 28 0 ∈ alphabet := by
    refine values _ (List.mem_iff_getElem.mpr ⟨21, ?_, ?_⟩)
    · simp only [List.length_take, List.length_drop]
      omega
    · simp [List.getElem?_eq_getElem (show 28 < setting.length by omega)]
  rw [bfCrypt_header rounds key valid cost,
    show bfDecode setting 16 7 = _ from decoded]
  change withSalt rounds key setting (some _) = _
  rw [withSalt_of_long rounds key (by omega), tableAt_of_mem inside]
  rfl

/-- A character that is neither of the alphabet nor a dollar sign fails. -/
theorem bfCrypt_invalid
    {character : UInt8}
    (valid : ValidHeader setting)
    (cost : min ≤ 2 ^ (headerOf setting).2)
    (stop : saltStop setting = some character)
    (noDollar : character ≠ dollar) :
    bfCrypt rounds key setting 61 min = .ok none := by
  have decoded := bfDecode_salt valid
  rw [stop] at decoded
  simp only [Decodes, noDollar, if_false] at decoded
  rw [bfCrypt_header rounds key valid cost, decoded]
  rfl

/-- A dollar sign ends the decoding, and the bytes decoded so far are used. -/
theorem bfDecode_dollar
    (valid : ValidHeader setting)
    (stop : saltStop setting = some dollar) :
    ∃ salt, bfDecode setting 16 7 = .ok (some salt) := by
  have decoded := bfDecode_salt valid
  rw [stop] at decoded
  simpa only [Decodes, if_true] using decoded

/-- A dollar sign in a short setting leads behind its NUL. -/
theorem bfCrypt_short
    (valid : ValidHeader setting)
    (cost : min ≤ 2 ^ (headerOf setting).2)
    (stop : saltStop setting = some dollar)
    (short : setting.length < 28) :
    bfCrypt rounds key setting 61 min = .error .behindNul := by
  obtain ⟨salt, decoded⟩ := bfDecode_dollar valid stop
  have behind : readAt setting 28 = .error .behindNul := by
    rw [readAt, if_neg (by omega)]
  rw [bfCrypt_header rounds key valid cost, decoded]
  by_cases copied : 28 ≤ setting.length + 1
  · simp only [bind, Except.bind, withSalt, behind, copySetting, copied, if_true]
  · simp only [bind, Except.bind, withSalt, copySetting, copied, if_false]

/-- A dollar sign in a setting that is long enough leaves a salt of some
bytes. -/
theorem bfCrypt_dollar
    (valid : ValidHeader setting)
    (cost : min ≤ 2 ^ (headerOf setting).2)
    (stop : saltStop setting = some dollar)
    (long : 28 ≤ setting.length) :
    ∃ salt, bfCrypt rounds key setting 61 min =
      (tableAt (setting.getD 28 0)).map fun _ =>
        some (hashOf rounds key setting salt) := by
  obtain ⟨salt, decoded⟩ := bfDecode_dollar valid stop
  refine ⟨salt, ?_⟩
  rw [bfCrypt_header rounds key valid cost, decoded]
  exact withSalt_of_long rounds key long salt

end BfCrypt

end Security
end Lotospp
