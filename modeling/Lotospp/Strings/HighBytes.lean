import Lotospp.Strings.Misc
import Lotospp.Strings.WordGrammar

/-!
# Bytes from 128 on

`Splitline`, `hasWhitespace` and `terminate` compare plain characters with 32
and 33.  Where `char` is signed a byte from 128 on is negative, and so counts
as a control character: it separates words, is white space and cuts a string.
-/

namespace Lotospp
namespace Strings

open Text

/-! ## Narrower tests -/

section Narrower

variable {α : Type} {narrow wide : α → Bool}

/-- A narrower test keeps the same elements exactly when it accepts all that
the wider one keeps. -/
theorem filter_eq_filter_iff
    (narrower : ∀ each, narrow each = true → wide each = true)
    (list : List α) :
    list.filter narrow = list.filter wide ↔
      ∀ each ∈ list.filter wide, narrow each = true := by
  have twice : (list.filter wide).filter narrow = list.filter narrow := by
    rw [List.filter_filter]
    congr 1
    funext each
    specialize narrower each
    cases accepted : narrow each
    · rfl
    · simp [narrower accepted]
  rw [← twice, List.filter_eq_self]

/-- A narrower test takes the same front exactly when it accepts all that the
wider one takes. -/
theorem takeWhile_eq_takeWhile_iff
    (narrower : ∀ each, narrow each = true → wide each = true)
    (list : List α) :
    list.takeWhile narrow = list.takeWhile wide ↔
      ∀ each ∈ list.takeWhile wide, narrow each = true := by
  have twice : (list.takeWhile wide).takeWhile narrow =
      list.takeWhile narrow := by
    rw [List.takeWhile_takeWhile]
    congr 1
    funext each
    specialize narrower each
    cases accepted : narrow each
    · simp
    · simp [narrower accepted]
  rw [← twice, List.takeWhile_eq_self_iff]

end Narrower

/-! ## Signed characters -/

/-- A character that a signed comparison with a bound below 128 passes is an
ASCII character that an unsigned one passes. -/
theorem le_signed_iff
    {bound : Nat}
    (small : 0 < bound)
    (byte : UInt8) :
    (bound : Int) ≤ signed byte ↔ byte < 128 ∧ bound ≤ byte.toNat := by
  have below : byte.toNat < 256 := byte.toNat_lt
  change _ ↔ byte.toNat < 128 ∧ _
  rw [signed]
  split <;> omega

/-- A character is no blank where it is above 32 and ASCII. -/
theorem not_isBlank_iff (byte : UInt8) :
    (!isBlank byte) = true ↔ byte < 128 ∧ 32 < byte := by
  rw [isBlank, ← decide_not, decide_eq_true_iff, Int.not_lt]
  exact @le_signed_iff 33 (by decide) byte

/-- A character cuts no string where it is at least 32 and ASCII. -/
theorem not_signed_lt_iff (byte : UInt8) :
    (!decide (signed byte < 32)) = true ↔ byte < 128 ∧ 32 ≤ byte := by
  rw [← decide_not, decide_eq_true_iff, Int.not_lt]
  exact @le_signed_iff 32 (by decide) byte

/-- `terminate` keeps the front without control characters. -/
theorem terminate_eq (str : Bytes) :
    terminate str = str.takeWhile fun byte => !decide (signed byte < 32) := by
  induction str with
  | nil => rfl
  | cons byte rest inductionHypothesis =>
      rw [terminate, List.takeWhile_cons, inductionHypothesis]
      by_cases control : signed byte < 32 <;> simp [control]

/-! ## What the three functions should do -/

/-- The words of the line hold all its characters but the separators. -/
def KeepsLetters (line : Bytes) : Prop :=
  ∀ split : Splitline, ∃ after, split.parse line = .ok after ∧
    after.word.flatten = line.filter fun byte => 32 < byte

/-- `hasWhitespace` finds the characters up to 32 only. -/
def FindsWhitespace (str : Bytes) : Prop :=
  hasWhitespace str = true ↔ ∃ byte ∈ str, byte ≤ 32

/-- `terminate` cuts the string at its first control character. -/
def CutsAtControl (str : Bytes) : Prop :=
  terminate str = str.takeWhile fun byte => 32 ≤ byte

/-- Without quotes the words of a line hold what is no blank. -/
theorem flatten_words
    {line : Bytes}
    (noQuote : quote ∉ line) :
    (Splitline.words line).flatten = line.filter fun byte => !isBlank byte := by
  obtain ⟨tokens, cuts⟩ := lineMarks.exists_cuts 0 line
  have letters := cuts.flatMap_letters noQuote
  have plain := cuts.plain_of_noQuote noQuote
  rw [lineMarks] at letters
  rw [Splitline.words, Splitline.cut_eq_tokens cuts rfl (Nat.lt_succ_self _),
    List.map_map, ← letters, List.flatMap_def]
  congr 1
  apply List.map_congr_left
  intro token inside
  obtain ⟨run, isPlain⟩ := plain token inside
  rw [Function.comp_apply, isPlain]
  rfl

/-- The words of a line without quotes hold all but its separators exactly
when the line is ASCII. -/
theorem keepsLetters_iff
    {line : Bytes}
    (noQuote : quote ∉ line) :
    KeepsLetters line ↔ ∀ byte ∈ line, byte < 128 := by
  have parsed : KeepsLetters line ↔ (line.filter fun byte => !isBlank byte) =
      line.filter fun byte => 32 < byte := by
    rw [← flatten_words noQuote]
    constructor
    · intro keeps
      obtain ⟨after, ran, kept⟩ := keeps {}
      obtain ⟨startQuote, endQuote, ran'⟩ := ({} : Splitline).parse_eq line
      rw [ran] at ran'
      rw [← kept, Except.ok.inj ran']
    · intro same split
      obtain ⟨startQuote, endQuote, ran⟩ := split.parse_eq line
      exact ⟨_, ran, same⟩
  rw [parsed, filter_eq_filter_iff]
  · constructor
    · intro accepted byte inside
      by_contra high
      have letter : 32 < byte :=
        UInt8.lt_of_lt_of_le (by decide) (UInt8.not_lt.mp high)
      have kept := accepted byte
        (List.mem_filter.mpr ⟨inside, by simpa using letter⟩)
      exact high ((not_isBlank_iff byte).mp kept).1
    · intro ascii byte kept
      obtain ⟨inside, letter⟩ := List.mem_filter.mp kept
      exact (not_isBlank_iff byte).mpr ⟨ascii byte inside, by simpa using letter⟩
  · intro byte kept
    simpa using ((not_isBlank_iff byte).mp kept).2

/-- `hasWhitespace` is right exactly when the string is ASCII or has a
separator anyway. -/
theorem findsWhitespace_iff (str : Bytes) :
    FindsWhitespace str ↔
      (∀ byte ∈ str, byte < 128) ∨ ∃ byte ∈ str, byte ≤ 32 := by
  have blank : ∀ byte : UInt8, isBlank byte = true ↔ 128 ≤ byte ∨ byte ≤ 32 := by
    intro byte
    have letter := not_congr (not_isBlank_iff byte)
    simpa [or_iff_not_imp_left] using letter
  rw [FindsWhitespace, hasWhitespace, List.any_eq_true]
  by_cases separated : ∃ byte ∈ str, byte ≤ 32
  · obtain ⟨byte, inside, separator⟩ := separated
    have found : ∃ byte ∈ str, isBlank byte = true :=
      ⟨byte, inside, (blank byte).mpr (.inr separator)⟩
    exact iff_of_true (iff_of_true found ⟨byte, inside, separator⟩)
      (.inr ⟨byte, inside, separator⟩)
  · rw [iff_false_right separated, or_iff_left separated]
    constructor
    · intro missing byte inside
      by_contra high
      exact missing ⟨byte, inside, (blank byte).mpr (.inl (UInt8.not_lt.mp high))⟩
    · rintro ascii ⟨byte, inside, isBlank⟩
      rcases (blank byte).mp isBlank with high | separator
      · exact absurd (ascii byte inside) (UInt8.not_lt.mpr high)
      · exact separated ⟨byte, inside, separator⟩

/-- `terminate` is right exactly when no byte from 128 on stands before the
first control character. -/
theorem cutsAtControl_iff (str : Bytes) :
    CutsAtControl str ↔
      ∀ byte ∈ str.takeWhile (fun byte => 32 ≤ byte), byte < 128 := by
  rw [CutsAtControl, terminate_eq, takeWhile_eq_takeWhile_iff]
  · apply forall₂_congr
    intro byte taken
    have printable := List.mem_takeWhile_imp taken
    rw [not_signed_lt_iff]
    exact and_iff_left (by simpa using printable)
  · intro byte taken
    simpa using ((not_signed_lt_iff byte).mp taken).2

/-- Each of the three functions treats a text as one of unsigned characters
exactly when no byte from 128 on decides. -/
theorem highBytes_iff
    {line : Bytes}
    (noQuote : quote ∉ line)
    (str : Bytes) :
    (KeepsLetters line ↔ ∀ byte ∈ line, byte < 128) ∧
      (FindsWhitespace str ↔
        (∀ byte ∈ str, byte < 128) ∨ ∃ byte ∈ str, byte ≤ 32) ∧
      (CutsAtControl str ↔
        ∀ byte ∈ str.takeWhile (fun byte => 32 ≤ byte), byte < 128) :=
  ⟨keepsLetters_iff noQuote, findsWhitespace_iff str, cutsAtControl_iff str⟩

/-- The line `hi there`. -/
theorem highBytes_plain :
    quote ∉ lit "hi there" ∧
      (KeepsLetters (lit "hi there") ↔
        ∀ byte ∈ lit "hi there", byte < 128) :=
  have noQuote : quote ∉ lit "hi there" := by decide
  ⟨noQuote, (highBytes_iff noQuote []).1⟩

/-- The one word of a line with a two-byte letter is cut in two and loses that
letter; the letter is white space, and cuts the string. -/
theorem highBytes_letter :
    quote ∉ ([97, 195, 169, 98] : Bytes) ∧
      ¬ KeepsLetters [97, 195, 169, 98] ∧ ¬ FindsWhitespace [97, 195, 169, 98] ∧
      ¬ CutsAtControl [97, 195, 169, 98] := by
  refine ⟨by decide, ?_, ?_, ?_⟩
  · intro keeps
    obtain ⟨after, ran, kept⟩ := keeps {}
    have ran' : ({} : Splitline).parse [97, 195, 169, 98] = .ok
        { word := [[97], [98]], line := [97, 195, 169, 98],
          wordPtr := [0, 3] } := by decide +kernel
    rw [ran] at ran'
    rw [Except.ok.inj ran'] at kept
    exact absurd kept (by decide)
  · rw [FindsWhitespace]
    decide
  · rw [CutsAtControl]
    decide

end Strings
end Lotospp
