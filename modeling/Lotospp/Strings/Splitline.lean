import Lotospp.Text.Bytes
import Mathlib.Data.List.Infix

/-!
# Splitting a line into words

`Splitline` cuts a line of text into words and records, for every word, the
offset at which it starts.  Words are separated by characters below 33; a word
that starts with a double quote runs to the next double quote not preceded by
a backslash.

The object is reused from line to line.  `reset` clears the words but not
their offsets, so the offsets of earlier lines stay in front of those of the
current one.
-/

namespace Lotospp
namespace Strings

open Text

/-- `class Splitline`. -/
structure Splitline where
  /-- The words not yet shifted away. -/
  word : List Bytes := []
  /-- The line the words come from. -/
  line : Bytes := []
  /-- The recorded word offsets. -/
  wordPtr : List Nat := []
  /-- The word starts with a quote. -/
  startQuote : Bool := false
  /-- The word ends with a quote. -/
  endQuote : Bool := false
  deriving DecidableEq

/-- The double quote. -/
def quote : UInt8 := 34

/-- The backslash. -/
def backslash : UInt8 := 92

/-- Skip the separators at the front of `rest`, which starts at offset `o1`. -/
def skipBlanks : (rest : Bytes) → (o1 : Nat) → Nat
  | [], o1 => o1
  | byte :: rest, o1 =>
      if isBlank byte then skipBlanks rest (o1 + 1) else o1

/-- Offset just behind the closing quote, and whether there is one. -/
def scanQuoted (prev : UInt8) : (rest : Bytes) → (o2 : Nat) → Nat × Bool
  | [], o2 => (o2, false)
  | byte :: rest, o2 =>
      if byte = quote ∧ prev ≠ backslash then (o2 + 1, true)
      else scanQuoted byte rest (o2 + 1)

/-- Offset of the first separator. -/
def scanPlain : (rest : Bytes) → (o2 : Nat) → Nat
  | [], o2 => o2
  | byte :: rest, o2 =>
      if isBlank byte then o2 else scanPlain rest (o2 + 1)

/-- Where the word that starts at `o1` ends, and whether a quote ends it. -/
def scanWord (first : UInt8) (rest : Bytes) (o1 : Nat) : Nat × Bool :=
  if first = quote then scanQuoted (rest.headD 0) rest (o1 + 1)
  else (scanPlain (first :: rest) o1, false)

/-- Drop every backslash that stands before a double quote. -/
def unescape : Bytes → Bytes
  | [] => []
  | [byte] => [byte]
  | first :: second :: rest =>
      if first = backslash ∧ second = quote then quote :: unescape rest
      else first :: unescape (second :: rest)

namespace Splitline

/-- `Splitline::reset`: the offsets are kept. -/
def reset (split : Splitline) : Splitline :=
  { split with word := [] }

/-- `Splitline::getWord`: the start of the next word and its end, which is
zero when there is no further word. -/
def getWord (split : Splitline) (o1 : Nat) : Splitline × Nat × Nat :=
  let start := skipBlanks (split.line.drop o1) o1
  match split.line.drop start with
  | [] => (split, start, 0)
  | first :: rest =>
      let scan := scanWord first rest start
      let split :=
        { split with startQuote := first == quote, endQuote := scan.2 }
      if scan.1 = start ∨ (first = quote ∧ scan.1 = start + 1) then
        (split, start, 0)
      else (split, start, scan.1)

/-- `Splitline::addWord`. -/
def addWord (split : Splitline) (o1 o2 : Nat) : Except Fault Splitline :=
  let split := { split with wordPtr := split.wordPtr ++ [o1] }
  if split.startQuote then do
    let text ←
      if split.endQuote then substrCount split.line (o1 + 1) (o2 - o1 - 2)
      else substr split.line 1
    pure { split with word := split.word ++ [unescape text] }
  else do
    let text ← substrCount split.line o1 (o2 - o1)
    pure { split with word := split.word ++ [text] }

/-- The loop of `Splitline::parse`, which every turn starts behind the last
word; `turns` bounds their number. -/
def parseLoop : (turns : Nat) → Splitline → (o1 : Nat) → Except Fault Splitline
  | 0, split, _ => .ok split
  | turns + 1, split, o1 =>
      let (split, o1, o2) := split.getWord o1
      if o2 = 0 then .ok split
      else do
        let split ← split.addWord o1 o2
        parseLoop turns split o2

/-- `Splitline::parse`. -/
def parse (split : Splitline) (inLine : Bytes) : Except Fault Splitline :=
  let split := split.reset
  if inLine.length = 0 then .ok split
  else parseLoop (inLine.length + 1) { split with line := inLine } 0

/-- `Splitline::shift`: the offsets are kept. -/
def shift (split : Splitline) : Splitline :=
  match split.word with
  | [] => split
  | [_] => split.reset
  | _ :: rest => { split with word := rest }

/-- `Splitline::wordptr`: the line from the recorded offset on. -/
def wordptr (split : Splitline) (pos : Nat) : Except Fault Bytes :=
  match split.wordPtr[pos]? with
  | none => .error .undefined
  | some offset => substr split.line offset

/-! ## What one line adds -/

/-- The text of the word between the offsets of a turn of the loop. -/
def cutWord (split : Splitline) (o1 o2 : Nat) : Bytes :=
  if split.startQuote then
    unescape
      (if split.endQuote then (split.line.drop (o1 + 1)).take (o2 - o1 - 2)
      else split.line.drop 1)
  else (split.line.drop o1).take (o2 - o1)

/-- Start and text of every word found from offset `o1` on. -/
def cut (line : Bytes) : (turns : Nat) → (o1 : Nat) → List (Nat × Bytes)
  | 0, _ => []
  | turns + 1, o1 =>
      let (split, start, o2) := ({ line := line } : Splitline).getWord o1
      if o2 = 0 then []
      else (start, split.cutWord start o2) :: cut line turns o2

/-- The words of a line. -/
def words (line : Bytes) : List Bytes :=
  (cut line (line.length + 1) 0).map Prod.snd

/-- Where the words of a line start. -/
def starts (line : Bytes) : List Nat :=
  (cut line (line.length + 1) 0).map Prod.fst

@[simp] theorem length_words (line : Bytes) :
    (words line).length = (starts line).length := by
  simp [words, starts]

/-- `getWord` reads the line only, and writes the two quote flags only. -/
theorem getWord_eq (split : Splitline) (o1 : Nat) :
    (split.getWord o1).2 = (({ line := split.line } : Splitline).getWord o1).2 ∧
      ((split.getWord o1).2.2 ≠ 0 →
        (split.getWord o1).1 =
          { split with
            startQuote :=
              (({ line := split.line } : Splitline).getWord o1).1.startQuote
            endQuote :=
              (({ line := split.line } : Splitline).getWord o1).1.endQuote }) := by
  simp only [getWord]
  cases split.line.drop (skipBlanks (split.line.drop o1) o1) with
  | nil => simp
  | cons first rest =>
      simp only
      split <;> simp

/-- A turn that finds no word changes the two quote flags at most. -/
theorem getWord_frame (split : Splitline) (o1 : Nat) :
    (split.getWord o1).1 =
      { split with
        startQuote := (split.getWord o1).1.startQuote
        endQuote := (split.getWord o1).1.endQuote } := by
  simp only [getWord]
  cases split.line.drop (skipBlanks (split.line.drop o1) o1) with
  | nil => rfl
  | cons first rest =>
      simp only
      split <;> rfl

/-- A word starts inside the line. -/
theorem getWord_start_lt
    (split : Splitline)
    (o1 : Nat)
    (found : (split.getWord o1).2.2 ≠ 0) :
    (split.getWord o1).2.1 < split.line.length := by
  simp only [getWord] at found ⊢
  cases atStart : split.line.drop (skipBlanks (split.line.drop o1) o1) with
  | nil => simp [atStart] at found
  | cons first rest =>
      have lengths := congrArg List.length atStart
      simp only [List.length_drop, List.length_cons] at lengths
      simp only
      split <;> simp only <;> omega

/-- Every word of a line starts inside the line. -/
theorem cut_start_lt
    (line : Bytes)
    (turns : Nat)
    (o1 : Nat) :
    ∀ found ∈ cut line turns o1, found.1 < line.length := by
  induction turns generalizing o1 with
  | zero => simp [cut]
  | succ turns inductionHypothesis =>
      have inside := getWord_start_lt { line := line } o1
      rcases found : ({ line := line } : Splitline).getWord o1 with
        ⟨split, start, o2⟩
      simp only [found] at inside
      simp only [cut, found]
      by_cases ended : o2 = 0
      · simp [ended]
      · simp only [ended, if_false, List.forall_mem_cons]
        exact ⟨inside ended, inductionHypothesis o2⟩

theorem starts_lt
    {line : Bytes}
    {start : Nat}
    (found : start ∈ starts line) :
    start < line.length := by
  obtain ⟨pair, inside, rfl⟩ := List.mem_map.mp found
  exact cut_start_lt line _ _ pair inside

/-- Cutting out a word that starts inside the line never throws. -/
theorem addWord_eq
    (split : Splitline)
    (o1 o2 : Nat)
    (inside : o1 < split.line.length) :
    split.addWord o1 o2 =
      .ok { split with
        word := split.word ++ [split.cutWord o1 o2]
        wordPtr := split.wordPtr ++ [o1] } := by
  have one_le : 1 ≤ split.line.length := by omega
  have next_le : o1 + 1 ≤ split.line.length := by omega
  unfold addWord cutWord
  cases split.startQuote
  · simp [substrCount_of_le _ inside.le, bind, Except.bind, pure, Except.pure]
  · cases split.endQuote
    · simp [substr_of_le one_le, bind, Except.bind, pure, Except.pure]
    · simp [substrCount_of_le _ next_le, bind, Except.bind, pure,
        Except.pure]

/-- The loop adds the words found from its offset on, with their starts. -/
theorem parseLoop_eq
    (turns : Nat)
    (split : Splitline)
    (o1 : Nat) :
    ∃ startQuote endQuote,
      parseLoop turns split o1 =
        .ok { split with
          word := split.word ++ (cut split.line turns o1).map Prod.snd
          wordPtr := split.wordPtr ++ (cut split.line turns o1).map Prod.fst
          startQuote := startQuote
          endQuote := endQuote } := by
  induction turns generalizing split o1 with
  | zero => exact ⟨split.startQuote, split.endQuote, by simp [parseLoop, cut]⟩
  | succ turns inductionHypothesis =>
      have inside := getWord_start_lt split o1
      have frame := getWord_frame split o1
      have freshFrame := getWord_frame { line := split.line } o1
      obtain ⟨positions, flags⟩ := getWord_eq split o1
      rcases found : split.getWord o1 with ⟨next, start, o2⟩
      rcases foundFresh : ({ line := split.line } : Splitline).getWord o1 with
        ⟨fresh, start', o2'⟩
      simp only [found, foundFresh] at inside frame freshFrame flags
      simp only [found, foundFresh, Prod.mk.injEq] at positions
      obtain ⟨rfl, rfl⟩ := positions
      simp only [parseLoop, cut, found, foundFresh]
      by_cases ended : o2 = 0
      · exact ⟨next.startQuote, next.endQuote, by simpa [ended] using frame⟩
      · have nextLine : next.line = split.line := by rw [frame]
        have sameText : next.cutWord start o2 = fresh.cutWord start o2 := by
          rw [flags ended, freshFrame]
          rfl
        rw [← nextLine] at inside
        obtain ⟨startQuote, endQuote, rest⟩ :=
          inductionHypothesis
            { next with
              word := next.word ++ [next.cutWord start o2]
              wordPtr := next.wordPtr ++ [start] } o2
        refine ⟨startQuote, endQuote, ?_⟩
        simp only [ended, if_false, addWord_eq next start o2 (inside ended),
          bind, Except.bind, rest, List.map_cons]
        rw [nextLine, sameText, frame]
        simp

/-- Parsing a line replaces the words, keeps the recorded offsets and adds
those of the words of the line. -/
theorem parse_eq (split : Splitline) (inLine : Bytes) :
    ∃ startQuote endQuote,
      split.parse inLine =
        .ok { split with
          word := words inLine
          line := if inLine = [] then split.line else inLine
          wordPtr := split.wordPtr ++ starts inLine
          startQuote := startQuote
          endQuote := endQuote } := by
  by_cases empty : inLine = []
  · subst empty
    exact ⟨split.startQuote, split.endQuote, by
      simp [parse, reset, words, starts, cut, getWord, skipBlanks]⟩
  · obtain ⟨startQuote, endQuote, parsed⟩ :=
      parseLoop_eq (inLine.length + 1)
        { split with word := [], line := inLine } 0
    refine ⟨startQuote, endQuote, ?_⟩
    simp only [parse, reset, List.length_eq_zero_iff, empty, if_false, parsed,
      List.nil_append]
    rfl

end Splitline
end Strings
end Lotospp
