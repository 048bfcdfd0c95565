import Lotospp.Strings.Splitline
import Lotospp.Text.Tokens

/-!
# The grammar of a line

What the words of a line should be: the tokens of the line, quotations without
their quotes and without the backslashes before quotes.  `Splitline::parse`
finds them, but takes the text of a quotation that does not end from the
beginning of the line.
-/

namespace Lotospp
namespace Strings

open Text

/-! ## Backslashes before quotes -/

/-- The text with each backslash before a quote left out. -/
def unquoted (text : Bytes) : Bytes :=
  ((text.zip (text.tail.map some ++ [none])).filter fun pair =>
    ¬ (pair.1 = backslash ∧ pair.2 = some quote)).map Prod.fst

/-- `wrd.find("\\\"")` in the text that stands at `position`. -/
def findEscape : (rest : Bytes) → (position : Nat) → Option Nat
  | first :: second :: rest, position =>
      if first = backslash ∧ second = quote then some position
      else findEscape (second :: rest) (position + 1)
  | _, _ => none

/-- The loop of `Splitline::addWord` over the backslashes before quotes; every
turn erases one. -/
def eraseEscapes : (turns : Nat) → (wrd : Bytes) → (found : Option Nat) → Bytes
  | turns + 1, wrd, some found =>
      let wrd := wrd.eraseIdx found
      eraseEscapes turns wrd (findEscape (wrd.drop (found + 1)) (found + 1))
  | _, wrd, _ => wrd

theorem unquoted_cons (first : UInt8) (rest : Bytes) :
    unquoted (first :: rest) =
      (if first = backslash ∧ rest.head? = some quote then [] else [first]) ++
        unquoted rest := by
  cases rest with
  | nil => simp [unquoted]
  | cons second rest =>
      rw [unquoted, List.tail_cons, List.map_cons, List.cons_append,
        List.zip_cons_cons, List.filter_cons]
      by_cases escaped : first = backslash ∧ second = quote
      · simp [escaped, unquoted]
      · rw [if_pos (by simpa [imp_iff_not_or] using escaped),
          if_neg (by simpa using escaped)]
        rfl

/-- `unescape` leaves out each backslash before a quote. -/
theorem unescape_eq_unquoted (text : Bytes) :
    unescape text = unquoted text := by
  induction text using unescape.induct with
  | case1 => rfl
  | case2 byte => simp [unescape, unquoted]
  | case3 first second rest escaped inductionHypothesis =>
      obtain ⟨rfl, rfl⟩ := escaped
      rw [unescape, if_pos ⟨rfl, rfl⟩, inductionHypothesis, unquoted_cons,
        unquoted_cons, if_pos ⟨rfl, rfl⟩, if_neg (by simp [quote, backslash])]
      rfl
  | case4 first second rest escaped inductionHypothesis =>
      rw [unescape, if_neg escaped, inductionHypothesis, unquoted_cons first,
        if_neg (by simpa using escaped)]
      rfl

/-- A backslash before a quote is found where it stands first. -/
theorem findEscape_eq
    (rest : Bytes)
    (position : Nat) :
    (findEscape rest position = none ∧ unescape rest = rest) ∨
      ∃ front back, rest = front ++ backslash :: quote :: back ∧
        findEscape rest position = some (position + front.length) ∧
        unescape rest = front ++ quote :: unescape back := by
  induction rest generalizing position with
  | nil => exact .inl ⟨rfl, rfl⟩
  | cons first rest inductionHypothesis =>
      rcases rest with _ | ⟨second, rest⟩
      · exact .inl ⟨rfl, rfl⟩
      rw [findEscape, unescape]
      by_cases escaped : first = backslash ∧ second = quote
      · obtain ⟨rfl, rfl⟩ := escaped
        refine .inr ⟨[], rest, rfl, ?_, ?_⟩
        · rw [if_pos ⟨rfl, rfl⟩]
          rfl
        · rw [if_pos ⟨rfl, rfl⟩]
          rfl
      · rw [if_neg escaped, if_neg escaped]
        rcases inductionHypothesis (position + 1) with
          ⟨missing, kept⟩ | ⟨front, back, split, found, left⟩
        · exact .inl ⟨missing, by rw [kept]⟩
        · refine .inr ⟨first :: front, back, ?_, ?_, ?_⟩
          · rw [split]
            rfl
          · rw [found, List.length_cons]
            congr 1
            omega
          · rw [left]
            rfl

/-- The loop of `Splitline::addWord` leaves out the backslashes that stand
before quotes. -/
theorem eraseEscapes_eq
    (front rest : Bytes)
    {turns : Nat}
    (enough : rest.length < turns) :
    eraseEscapes turns (front ++ rest) (findEscape rest front.length) =
      front ++ unescape rest := by
  induction turns generalizing front rest with
  | zero => omega
  | succ turns inductionHypothesis =>
      rcases findEscape_eq rest front.length with
        ⟨missing, kept⟩ | ⟨before, back, rfl, found, left⟩
      · rw [missing, kept]
        rfl
      · have erased : (front ++ (before ++ backslash :: quote :: back)).eraseIdx
            (front.length + before.length) =
              (front ++ before ++ [quote]) ++ back := by
          rw [← List.append_assoc, ← List.length_append,
            List.eraseIdx_append_of_length_le (Nat.le_refl _)]
          simp
        have length : front.length + before.length + 1 =
            (front ++ before ++ [quote]).length := by simp [Nat.add_assoc]
        rw [found, eraseEscapes, erased, length, List.drop_left, left,
          inductionHypothesis]
        · simp
        · simp only [List.length_append, List.length_cons] at enough
          omega

/-! ## The grammar -/

/-- What `Splitline` takes for separators, quotes and escapes. -/
def lineMarks : Marks UInt8 where
  blank := isBlank
  quote := quote
  escape := backslash
  quote_letter := rfl

@[simp] theorem lineMarks_quote : lineMarks.quote = quote := rfl

/-- The separators, quotes and escapes of a line. -/
def grammar : Marks UInt8 where
  blank byte := byte ≤ 32
  quote := quote
  escape := backslash
  quote_letter := rfl

@[simp] theorem grammar_quote : grammar.quote = quote := rfl

/-- The word of a token. -/
def wordOf : Token UInt8 → Bytes
  | .plain run => run
  | .quoted inner => unquoted inner
  | .opened inner => unquoted inner

/-- The words that the grammar gives for a line. -/
def Splits (line : Bytes) (words : List Bytes) : Prop :=
  ∃ tokens, grammar.Cuts 0 line tokens ∧
    words = tokens.map fun token => wordOf token.2

/-- A quotation that the line does not end starts behind its beginning. -/
def OpensLate (line : Bytes) : Prop :=
  ∃ tokens offset inner, grammar.Cuts 0 line tokens ∧
    (offset, .opened inner) ∈ tokens ∧ offset ≠ 0

/-- A line has the words of one list only. -/
theorem Splits.unique
    {line : Bytes}
    {words words' : List Bytes}
    (splits : Splits line words)
    (splits' : Splits line words') : words = words' := by
  obtain ⟨tokens, cuts, rfl⟩ := splits
  obtain ⟨tokens', cuts', rfl⟩ := splits'
  rw [cuts.unique cuts']

/-- Every line has words. -/
theorem exists_splits (line : Bytes) : ∃ words, Splits line words := by
  obtain ⟨tokens, cuts⟩ := grammar.exists_cuts 0 line
  exact ⟨_, tokens, cuts, rfl⟩

/-! ## Scanning a token -/

theorem scanPlain_letters
    {run : Bytes}
    (letters : ∀ each ∈ run, isBlank each = false)
    {rest : Bytes}
    (ends : ∀ next ∈ rest.head?, isBlank next = true)
    (position : Nat) :
    scanPlain (run ++ rest) position = position + run.length := by
  induction run generalizing position with
  | nil =>
      cases rest with
      | nil => rfl
      | cons next rest => simp [scanPlain, ends next rfl]
  | cons letter run inductionHypothesis =>
      obtain ⟨isLetter, letters⟩ := List.forall_mem_cons.mp letters
      rw [List.cons_append, scanPlain, isLetter, if_neg (by simp),
        inductionHypothesis letters, List.length_cons]
      omega

/-- A quote that ends a quotation is not preceded by a backslash. -/
theorem noClose_next
    {front rest : Bytes}
    {prev next : UInt8}
    (unended : lineMarks.NoClose (front ++ next :: rest))
    (last : front.getLast? = some prev) :
    ¬ (next = quote ∧ prev ≠ backslash) := by
  rintro ⟨rfl, notEscape⟩
  have escaped := unended front rest rfl
  rw [last] at escaped
  exact notEscape (Option.some.inj escaped)

/-- The quotation ends behind this text. -/
theorem scanQuoted_closed
    {front inner rest : Bytes}
    {prev : UInt8}
    (last : front.getLast? = some prev)
    (unended : lineMarks.NoClose (front ++ inner))
    (ends : (front ++ inner).getLast? ≠ some backslash)
    (position : Nat) :
    scanQuoted prev (inner ++ quote :: rest) position =
      (position + inner.length + 1, true) := by
  induction inner generalizing front prev position with
  | nil =>
      rw [List.append_nil, last] at ends
      rw [List.nil_append, scanQuoted, if_pos]
      · rfl
      · exact ⟨rfl, fun isEscape => ends (congrArg some isEscape)⟩
  | cons next inner inductionHypothesis =>
      have closes := @inductionHypothesis (front ++ [next]) next
        (by simp) (by simpa using unended) (by simpa using ends) (position + 1)
      rw [List.cons_append, scanQuoted, if_neg (noClose_next unended last),
        closes, List.length_cons]
      congr 1
      omega

/-- The quotation does not end. -/
theorem scanQuoted_opened
    {front inner : Bytes}
    {prev : UInt8}
    (last : front.getLast? = some prev)
    (unended : lineMarks.NoClose (front ++ inner))
    (position : Nat) :
    scanQuoted prev inner position = (position + inner.length, false) := by
  induction inner generalizing front prev position with
  | nil => rfl
  | cons next inner inductionHypothesis =>
      have stays := @inductionHypothesis (front ++ [next]) next
        (by simp) (by simpa using unended) (position + 1)
      rw [scanQuoted, if_neg (noClose_next unended last), stays,
        List.length_cons]
      congr 1
      omega

/-- The first character of a quotation is not its end. -/
theorem noClose_first
    {first : UInt8}
    {inner : Bytes}
    (unended : lineMarks.NoClose (first :: inner)) : first ≠ quote := by
  rintro rfl
  exact absurd (unended [] inner rfl) (by simp)

theorem scanWord_quoted
    {inner rest : Bytes}
    (unended : lineMarks.NoClose inner)
    (ends : inner.getLast? ≠ some backslash)
    (start : Nat) :
    scanWord quote (inner ++ quote :: rest) start =
      (start + inner.length + 2, true) := by
  rw [scanWord, if_pos rfl]
  cases inner with
  | nil => simp [scanQuoted, quote, backslash]
  | cons first inner =>
      have notQuote := noClose_first unended
      have closes := @scanQuoted_closed [first] inner rest first
        List.getLast?_singleton unended ends (start + 2)
      rw [List.cons_append, List.headD_cons, scanQuoted,
        if_neg fun both => notQuote both.1, closes, List.length_cons]
      congr 1
      omega

theorem scanWord_opened
    {inner : Bytes}
    (unended : lineMarks.NoClose inner)
    (start : Nat) :
    scanWord quote inner start = (start + inner.length + 1, false) := by
  rw [scanWord, if_pos rfl]
  cases inner with
  | nil => rfl
  | cons first inner =>
      have notQuote := noClose_first unended
      have stays := @scanQuoted_opened [first] inner first
        List.getLast?_singleton unended (start + 2)
      rw [List.headD_cons, scanQuoted, if_neg fun both => notQuote both.1,
        stays, List.length_cons]
      congr 1
      omega

theorem le_skipBlanks (rest : Bytes) (o1 : Nat) :
    o1 ≤ skipBlanks rest o1 := by
  fun_induction skipBlanks rest o1 with
  | case1 => exact Nat.le_refl _
  | case2 _ _ _ _ inductionHypothesis =>
      exact (Nat.le_succ _).trans inductionHypothesis
  | case3 => exact Nat.le_refl _

theorem le_scanQuoted (prev : UInt8) (rest : Bytes) (o2 : Nat) :
    o2 ≤ (scanQuoted prev rest o2).1 := by
  fun_induction scanQuoted prev rest o2 with
  | case1 => exact Nat.le_refl _
  | case2 => exact Nat.le_succ _
  | case3 _ _ _ _ _ inductionHypothesis =>
      exact (Nat.le_succ _).trans inductionHypothesis

theorem le_scanPlain (rest : Bytes) (o2 : Nat) :
    o2 ≤ scanPlain rest o2 := by
  fun_induction scanPlain rest o2 with
  | case1 => exact Nat.le_refl _
  | case2 => exact Nat.le_refl _
  | case3 _ _ _ _ inductionHypothesis =>
      exact (Nat.le_succ _).trans inductionHypothesis

theorem le_scanWord (first : UInt8) (rest : Bytes) (start : Nat) :
    start ≤ (scanWord first rest start).1 := by
  rw [scanWord]
  split
  · exact (Nat.le_succ _).trans (le_scanQuoted ..)
  · exact le_scanPlain ..

namespace Splitline

/-! ## The words of a line -/

theorem drop_next
    {line rest : Bytes}
    {start : Nat}
    {first : UInt8}
    (text : line.drop start = first :: rest) : line.drop (start + 1) = rest := by
  rw [← List.drop_drop, text, List.drop_one, List.tail_cons]

/-- The loop stops at the end of the line. -/
theorem cut_nil
    {line : Bytes}
    {start : Nat}
    (text : line.drop start = [])
    (turns : Nat) : cut line turns start = [] := by
  cases turns with
  | zero => rfl
  | succ turns => simp [cut, getWord, text, skipBlanks]

/-- A separator is passed over. -/
theorem cut_blank
    {line rest : Bytes}
    {start : Nat}
    {separator : UInt8}
    (text : line.drop start = separator :: rest)
    (blank : isBlank separator = true)
    (turns : Nat) : cut line turns start = cut line turns (start + 1) := by
  cases turns with
  | zero => rfl
  | succ turns =>
      simp only [cut, getWord, text, drop_next text, skipBlanks, blank, if_true]

/-- A lone quote at the end of the line is no word. -/
theorem cut_lone
    {line : Bytes}
    {start : Nat}
    (text : line.drop start = [quote])
    (turns : Nat) : cut line turns start = [] := by
  have letter : isBlank quote = false := rfl
  cases turns with
  | zero => rfl
  | succ turns =>
      simp [cut, getWord, text, skipBlanks, letter, scanWord, scanQuoted]

/-- A character that is no separator starts a word. -/
theorem cut_word
    {line rest : Bytes}
    {start stop : Nat}
    {first : UInt8}
    {closed : Bool}
    (text : line.drop start = first :: rest)
    (letter : isBlank first = false)
    (scan : scanWord first rest start = (stop, closed))
    (nonempty : start + (if first = quote then 1 else 0) < stop)
    (turns : Nat) :
    cut line (turns + 1) start =
      (start, cutWord
        { line := line, startQuote := first == quote, endQuote := closed }
        start stop) :: cut line turns stop := by
  have found : ¬ (stop = start ∨ (first = quote ∧ stop = start + 1)) := by
    rintro (rfl | ⟨rfl, rfl⟩)
    · omega
    · simp at nonempty
  have notZero : stop ≠ 0 := by omega
  have notBlank : ¬ (false = true) := by simp
  simp only [cut, getWord, text, skipBlanks, letter, if_neg notBlank, scan,
    if_neg found, if_neg notZero]

/-- A run of characters is a word as it stands. -/
theorem cut_plain
    {line run rest : Bytes}
    {start : Nat}
    {letter : UInt8}
    (text : line.drop start = (letter :: run) ++ rest)
    (notQuote : letter ≠ quote)
    (letters : ∀ each ∈ letter :: run, isBlank each = false)
    (ends : ∀ next ∈ rest.head?, isBlank next = true)
    (turns : Nat) :
    cut line (turns + 1) start =
      (start, letter :: run) ::
        cut line turns (start + (letter :: run).length) := by
  have scan : scanWord letter (run ++ rest) start =
      (start + (letter :: run).length, false) := by
    rw [scanWord, if_neg notQuote, ← List.cons_append,
      scanPlain_letters letters ends]
  have word : cutWord
      { line := line, startQuote := letter == quote, endQuote := false }
        start (start + (letter :: run).length) = letter :: run := by
    have plain : ¬ (letter == quote) = true := by simpa using notQuote
    simp only [cutWord, if_neg plain, text, Nat.add_sub_cancel_left,
      List.take_left]
  rw [cut_word text (letters _ List.mem_cons_self) scan (by simp [notQuote]),
    word]

/-- A quotation that ends is a word without its quotes and escapes. -/
theorem cut_quoted
    {line inner rest : Bytes}
    {start : Nat}
    (text : line.drop start = quote :: (inner ++ quote :: rest))
    (unended : lineMarks.NoClose inner)
    (ends : inner.getLast? ≠ some backslash)
    (turns : Nat) :
    cut line (turns + 1) start =
      (start, unquoted inner) :: cut line turns (start + inner.length + 2) := by
  have word : cutWord
      { line := line, startQuote := quote == quote, endQuote := true }
        start (start + inner.length + 2) = unquoted inner := by
    have count : start + inner.length + 2 - start - 2 = inner.length := by
      omega
    rw [cutWord, unescape_eq_unquoted]
    simp only [beq_self_eq_true, if_true, drop_next text, count, List.take_left]
  rw [cut_word text lineMarks.quote_letter (scanWord_quoted unended ends start)
    (by split <;> omega), word]

/-- A quotation that does not end takes the rest of the line, but its word is
cut out from the beginning. -/
theorem cut_opened
    {line inner : Bytes}
    {start : Nat}
    (text : line.drop start = quote :: inner)
    (nonempty : inner ≠ [])
    (unended : lineMarks.NoClose inner)
    (turns : Nat) :
    cut line (turns + 1) start = [(start, unquoted (line.drop 1))] := by
  have length := List.length_pos_iff.mpr nonempty
  have word : cutWord
      { line := line, startQuote := quote == quote, endQuote := false }
        start (start + inner.length + 1) = unquoted (line.drop 1) := by
    rw [cutWord, unescape_eq_unquoted]
    rfl
  have rest : line.drop (start + inner.length + 1) = [] := by
    rw [Nat.add_assoc, ← List.drop_drop, text]
    exact List.drop_eq_nil_of_le (by simp)
  rw [cut_word text lineMarks.quote_letter (scanWord_opened unended start)
    (by split <;> omega), word, cut_nil rest]

/-- The word that `Splitline::addWord` cuts out for a token of the line. -/
def codeWord (line : Bytes) : Token UInt8 → Bytes
  | .plain run => run
  | .quoted inner => unquoted inner
  | .opened _ => unquoted (line.drop 1)

/-- From any offset on, the words stand where the tokens stand. -/
theorem cut_eq_tokens
    {line text : Bytes}
    {start turns : Nat}
    {tokens : List (Nat × Token UInt8)}
    (cuts : lineMarks.Cuts start text tokens)
    (atStart : line.drop start = text)
    (enough : text.length < turns) :
    cut line turns start =
      tokens.map fun token => (token.1, codeWord line token.2) := by
  induction cuts generalizing turns with
  | nil => exact cut_nil atStart turns
  | lone => exact cut_lone atStart turns
  | @blank start separator rest tokens blank _ inductionHypothesis =>
      rw [cut_blank atStart blank]
      apply inductionHypothesis
      · exact drop_next atStart
      · exact (Nat.lt_succ_self _).trans enough
  | @plain start letter run rest tokens notQuote letters ends _
      inductionHypothesis =>
      obtain ⟨spare, rfl⟩ := Nat.exists_eq_add_of_lt enough
      rw [cut_plain atStart notQuote letters ends, inductionHypothesis]
      · rfl
      · rw [← List.drop_drop, atStart, List.drop_left]
      · simp only [List.length_append, List.length_cons]
        omega
  | @quoted start inner rest tokens unended ends _ inductionHypothesis =>
      obtain ⟨spare, rfl⟩ := Nat.exists_eq_add_of_lt enough
      rw [cut_quoted atStart unended ends, inductionHypothesis]
      · rfl
      · have split : lineMarks.quote :: (inner ++ lineMarks.quote :: rest) =
            (quote :: (inner ++ [quote])) ++ rest := by simp
        rw [Nat.add_assoc, ← List.drop_drop, atStart, split]
        exact List.drop_left' (by simp)
      · simp only [List.length_append, List.length_cons]
        omega
  | @opened start inner nonempty unended =>
      obtain ⟨spare, rfl⟩ := Nat.exists_eq_add_of_lt enough
      exact cut_opened atStart nonempty unended _

/-- `getWord` goes forward. -/
theorem getWord_progress
    (split : Splitline)
    (o1 : Nat)
    (found : (split.getWord o1).2.2 ≠ 0) :
    o1 < (split.getWord o1).2.2 := by
  have skipped := le_skipBlanks (split.line.drop o1) o1
  simp only [getWord] at found ⊢
  cases atStart : split.line.drop (skipBlanks (split.line.drop o1) o1) with
  | nil => simp [atStart] at found
  | cons first rest =>
      have scanned := le_scanWord first rest
        (skipBlanks (split.line.drop o1) o1)
      simp only [atStart] at found ⊢
      split
      · next empty => simp [empty] at found
      · next nonempty =>
          simp only
          omega

/-- Further turns change nothing once the line has been read. -/
theorem parseLoop_succ
    {split : Splitline}
    {turns o1 : Nat}
    (enough : split.line.length < o1 + turns) :
    parseLoop (turns + 1) split o1 = parseLoop turns split o1 := by
  induction turns generalizing split o1 with
  | zero =>
      have text : split.line.drop o1 = [] :=
        List.drop_eq_nil_of_le (Nat.le_of_lt enough)
      simp [parseLoop, getWord, text, skipBlanks]
  | succ turns inductionHypothesis =>
      have progress := getWord_progress split o1
      have inside := getWord_start_lt split o1
      have frame := getWord_frame split o1
      rw [parseLoop, parseLoop]
      rcases found : split.getWord o1 with ⟨next, start, o2⟩
      simp only [found] at progress inside frame ⊢
      by_cases ended : o2 = 0
      · rw [if_pos ended, if_pos ended]
      · have nextLine : next.line = split.line := by rw [frame]
        rw [if_neg ended, if_neg ended,
          addWord_eq next start o2 (nextLine ▸ inside ended)]
        apply inductionHypothesis
        have forward := progress ended
        simp only [nextLine]
        omega

end Splitline

/-! ## Lines of ASCII bytes -/

/-- Backslashes are left out, quotes are not. -/
theorem count_quote_unquoted (text : Bytes) :
    (unquoted text).count quote = text.count quote := by
  induction text with
  | nil => rfl
  | cons first rest inductionHypothesis =>
      rw [unquoted_cons, List.count_append, inductionHypothesis]
      split
      · next escaped =>
          rw [escaped.1]
          simp [quote, backslash]
      · rw [← List.count_append]
        rfl

/-- The text of a quotation that does not end is cut out right only at the
beginning of the line: elsewhere it has one quote too many. -/
theorem codeWord_opened_iff
    {line inner : Bytes}
    {offset : Nat}
    (text : line.drop offset = quote :: inner) :
    Splitline.codeWord line (.opened inner) = wordOf (.opened inner) ↔
      offset = 0 := by
  constructor
  · intro same
    by_contra late
    have counts := congrArg (List.count quote) same
    rw [Splitline.codeWord, wordOf, count_quote_unquoted,
      count_quote_unquoted] at counts
    have later : line.drop offset = (line.drop 1).drop (offset - 1) := by
      rw [List.drop_drop]
      congr 1
      omega
    have fewer := (List.drop_sublist (offset - 1) (line.drop 1)).count_le quote
    rw [← later, text, counts, List.count_cons_self] at fewer
    omega
  · rintro rfl
    rw [List.drop_zero] at text
    rw [Splitline.codeWord, wordOf, text, List.drop_one, List.tail_cons]

/-- The line is read to its end, and its words are those of the grammar. -/
structure ParsesLine (split : Splitline) (line : Bytes) : Prop where
  /-- The loop ends by itself: further turns change nothing. -/
  ends : ∀ turns > line.length,
    Splitline.parseLoop turns { split.reset with line := line } 0 =
      Splitline.parseLoop (line.length + 1) { split.reset with line := line } 0
  words : ∃ after, split.parse line = .ok after ∧ Splits line after.word

theorem parseLoop_ends
    (split : Splitline)
    (line : Bytes)
    {turns : Nat}
    (enough : turns > line.length) :
    Splitline.parseLoop turns { split.reset with line := line } 0 =
      Splitline.parseLoop (line.length + 1)
        { split.reset with line := line } 0 := by
  induction turns, Nat.succ_le_of_lt enough using Nat.le_induction with
  | base => rfl
  | succ turns more inductionHypothesis =>
      rw [Splitline.parseLoop_succ, inductionHypothesis more]
      simpa using Nat.lt_of_succ_le more

/-- On ASCII bytes the code and the grammar have the same separators. -/
theorem isBlank_eq
    {byte : UInt8}
    (ascii : byte < 128) : isBlank byte = decide (byte ≤ 32) := by
  have small : byte.toNat < 128 := ascii
  rw [isBlank, signed, if_pos small, decide_eq_decide]
  change (byte.toNat : Int) < 33 ↔ byte.toNat ≤ 32
  omega

/-- The parsed words are the words of the grammar unless a quotation that the
line does not end starts behind its beginning. -/
theorem words_splits_iff
    {line : Bytes}
    (ascii : ∀ byte ∈ line, byte < 128) :
    Splits line (Splitline.words line) ↔ ¬ OpensLate line := by
  obtain ⟨tokens, cuts⟩ := grammar.exists_cuts 0 line
  have codeCuts : lineMarks.Cuts 0 line tokens := cuts.congr rfl rfl
    fun byte inside => isBlank_eq (ascii byte inside)
  have words : Splitline.words line =
      tokens.map fun token => Splitline.codeWord line token.2 := by
    rw [Splitline.words, Splitline.cut_eq_tokens codeCuts rfl
      (Nat.lt_succ_self _), List.map_map]
    rfl
  have splits_iff : Splits line (Splitline.words line) ↔
      ∀ token ∈ tokens, Splitline.codeWord line token.2 = wordOf token.2 := by
    rw [words, ← List.map_inj_left]
    constructor
    · intro splits
      exact splits.unique ⟨tokens, cuts, rfl⟩
    · intro same
      exact ⟨tokens, cuts, same⟩
  rw [splits_iff]
  constructor
  · rintro same ⟨tokens', offset, inner, cuts', inside, late⟩
    obtain rfl := cuts.unique cuts'
    exact late ((codeWord_opened_iff (cuts.opened_text inside)).mp
      (same _ inside))
  · intro early token inside
    rcases token with ⟨offset, run | inner | inner⟩
    · rfl
    · rfl
    · apply (codeWord_opened_iff (cuts.opened_text inside)).mpr
      by_contra late
      exact early ⟨tokens, offset, inner, cuts, inside, late⟩

/-- A line of ASCII bytes is parsed as the grammar says exactly when no
quotation that the line does not end starts behind the beginning of the
line. -/
theorem parsesLine_iff
    (split : Splitline)
    {line : Bytes}
    (ascii : ∀ byte ∈ line, byte < 128) :
    ParsesLine split line ↔ ¬ OpensLate line := by
  rw [← words_splits_iff ascii]
  obtain ⟨startQuote, endQuote, parsed⟩ := split.parse_eq line
  constructor
  · rintro ⟨-, after, parsed', splits⟩
    rw [parsed] at parsed'
    cases parsed'
    exact splits
  · intro splits
    exact ⟨fun turns enough => parseLoop_ends split line enough,
      _, parsed, splits⟩

/-- The quotation in `say "to all" a` ends. -/
theorem parsesLine_closed :
    (∀ byte ∈ lit "say \"to all\" a", byte < 128) ∧
      (ParsesLine {} (lit "say \"to all\" a") ↔
        ¬ OpensLate (lit "say \"to all\" a")) := by
  have ascii : ∀ byte ∈ lit "say \"to all\" a", byte < 128 := by
    decide +kernel
  exact ⟨ascii, parsesLine_iff {} ascii⟩

/-- The second word of `a "b` is `b`, but parsing gives ` "b`. -/
theorem parsesLine_openedLate :
    (∀ byte ∈ lit "a \"b", byte < 128) ∧ ¬ ParsesLine {} (lit "a \"b") := by
  refine ⟨by decide +kernel, ?_⟩
  rintro ⟨-, after, parsed, splits⟩
  have words : after.word = [lit "a", lit " \"b"] := by
    have ran : ({} : Splitline).parse (lit "a \"b") = .ok
        { word := [lit "a", lit " \"b"], line := lit "a \"b", wordPtr := [0, 2],
          startQuote := true } := by decide +kernel
    rw [parsed] at ran
    rw [Except.ok.inj ran]
  have opened : grammar.NoClose (lit "b") :=
    grammar.noClose_append_singleton Marks.noClose_nil (by decide +kernel)
  have cuts : grammar.Cuts 0 (lit "a \"b")
      [(0, .plain (lit "a")), (2, .opened (lit "b"))] :=
    @Marks.Cuts.plain _ grammar 0 97 [] (lit " \"b") _ (by decide +kernel)
      (by decide +kernel) (by decide +kernel)
      (.blank (by decide +kernel) (.opened (by decide +kernel) opened))
  have same := splits.unique ⟨_, cuts, rfl⟩
  rw [words] at same
  exact absurd same (by decide +kernel)

end Strings
end Lotospp
