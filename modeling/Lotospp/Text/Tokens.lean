import Mathlib.Data.List.Basic
import Mathlib.Data.List.Infix
import Mathlib.Data.List.TakeWhile
import Mathlib.Tactic.Common

/-!
# Words and quotations

A text is cut into tokens: runs of letters between blanks, and quotations,
which start with a quote and run to the next one that no escape character
stands before.  Every text is cut in exactly one way.
-/

namespace Text

/-- The characters that separate and enclose the tokens of a text. -/
structure Marks (α : Type) where
  /-- The separators; the others are letters. -/
  blank : α → Bool
  /-- The character at both ends of a quotation. -/
  quote : α
  /-- The character that keeps a quote from ending a quotation. -/
  escape : α
  /-- A quote is a letter. -/
  quote_letter : blank quote = false

/-- A token of a text. -/
inductive Token (α : Type)
  /-- A run of letters. -/
  | plain (run : List α)
  /-- A quotation, without its quotes. -/
  | quoted (inner : List α)
  /-- A quotation that the text does not end, without its quote. -/
  | opened (inner : List α)

/-- The letters of a token, without quotes. -/
def Token.letters {α : Type} : Token α → List α
  | .plain run => run
  | .quoted inner => inner
  | .opened inner => inner

namespace Marks

variable {α : Type} (marks : Marks α)

/-- Behind a quote, the text does not end the quotation. -/
def NoClose (inner : List α) : Prop :=
  ∀ before after, inner = before ++ marks.quote :: after →
    before.getLast? = some marks.escape

/-- The text, which starts at this offset, consists of these tokens at these
offsets.  A lone quote at the end is no token. -/
inductive Cuts : Nat → List α → List (Nat × Token α) → Prop
  /-- The end. -/
  | nil {start : Nat} : Cuts start [] []
  /-- A lone quote. -/
  | lone {start : Nat} : Cuts start [marks.quote] []
  /-- A separator. -/
  | blank {start : Nat} {separator : α} {rest : List α}
      {tokens : List (Nat × Token α)} :
      marks.blank separator = true → Cuts (start + 1) rest tokens →
      Cuts start (separator :: rest) tokens
  /-- A run of letters, as long as possible. -/
  | plain {start : Nat} {letter : α} {run rest : List α}
      {tokens : List (Nat × Token α)} :
      letter ≠ marks.quote → (∀ each ∈ letter :: run, marks.blank each = false) →
      (∀ next ∈ rest.head?, marks.blank next = true) →
      Cuts (start + (letter :: run).length) rest tokens →
      Cuts start (letter :: run ++ rest) ((start, .plain (letter :: run)) :: tokens)
  /-- A quotation. -/
  | quoted {start : Nat} {inner rest : List α}
      {tokens : List (Nat × Token α)} :
      marks.NoClose inner → inner.getLast? ≠ some marks.escape →
      Cuts (start + inner.length + 2) rest tokens →
      Cuts start (marks.quote :: (inner ++ marks.quote :: rest))
        ((start, .quoted inner) :: tokens)
  /-- A quotation that does not end. -/
  | opened {start : Nat} {inner : List α} :
      inner ≠ [] → marks.NoClose inner →
      Cuts start (marks.quote :: inner) [(start, .opened inner)]

variable {marks}

/-- A separator is not a quote. -/
theorem ne_quote_of_blank
    {separator : α}
    (isBlank : marks.blank separator = true) : separator ≠ marks.quote := by
  rintro rfl
  exact absurd (isBlank.symm.trans marks.quote_letter) (by simp)

theorem noClose_nil : marks.NoClose [] :=
  fun before after same => absurd same (by simp)

/-- One more character. -/
theorem noClose_append_singleton
    {inner : List α}
    {last : α}
    (unended : marks.NoClose inner)
    (escaped : last = marks.quote → inner.getLast? = some marks.escape) :
    marks.NoClose (inner ++ [last]) := by
  intro before after same
  rcases List.eq_nil_or_concat after with rfl | ⟨after, final, rfl⟩
  · obtain ⟨rfl, final⟩ := List.append_inj' same rfl
    exact escaped (List.cons.inj final).1
  · rw [List.concat_eq_append, ← List.cons_append, ← List.append_assoc] at same
    exact unended before after (List.append_inj' same rfl).1

/-- A quotation that has not ended yet ends in what follows or does not. -/
theorem noClose_or_closed
    (rest : List α)
    {front : List α}
    (unended : marks.NoClose front) :
    marks.NoClose (front ++ rest) ∨
      ∃ inner after, front ++ rest = inner ++ marks.quote :: after ∧
        marks.NoClose inner ∧ inner.getLast? ≠ some marks.escape := by
  induction rest generalizing front with
  | nil => exact .inl (by rwa [List.append_nil])
  | cons next rest inductionHypothesis =>
      by_cases escaped : next = marks.quote →
          front.getLast? = some marks.escape
      · have longer := inductionHypothesis
          (noClose_append_singleton unended escaped)
        rwa [List.append_assoc, List.singleton_append] at longer
      · obtain ⟨rfl, ends⟩ := Classical.not_imp.mp escaped
        exact .inr ⟨front, rest, rfl, unended, ends⟩

/-- A quotation that has not ended does not begin with one that has. -/
theorem not_closed_of_noClose
    {inner front after : List α}
    (unended : marks.NoClose inner)
    (ends : front.getLast? ≠ some marks.escape) :
    inner ≠ front ++ marks.quote :: after :=
  fun same => ends (unended front after same)

/-- A quotation ends in one place only. -/
theorem closed_unique
    {inner inner' rest rest' : List α}
    (same : inner ++ marks.quote :: rest = inner' ++ marks.quote :: rest')
    (unended : marks.NoClose inner)
    (ends : inner.getLast? ≠ some marks.escape)
    (open' : marks.NoClose inner')
    (ends' : inner'.getLast? ≠ some marks.escape) :
    inner = inner' ∧ rest = rest' := by
  rcases List.append_eq_append_iff.mp same with
    ⟨middle, rfl, split⟩ | ⟨middle, rfl, split⟩
  · cases middle with
    | nil => simpa using split
    | cons first middle =>
        obtain ⟨rfl, -⟩ := List.cons.inj split
        exact absurd rfl (not_closed_of_noClose open' ends)
  · cases middle with
    | nil => simpa [eq_comm] using split
    | cons first middle =>
        obtain ⟨rfl, -⟩ := List.cons.inj split
        exact absurd rfl (not_closed_of_noClose unended ends')

/-- A run of letters ends in one place only. -/
theorem run_unique
    {run run' rest rest' : List α}
    (same : run ++ rest = run' ++ rest')
    (letters : ∀ each ∈ run, marks.blank each = false)
    (ends : ∀ next ∈ rest.head?, marks.blank next = true)
    (letters' : ∀ each ∈ run', marks.blank each = false)
    (ends' : ∀ next ∈ rest'.head?, marks.blank next = true) :
    run = run' ∧ rest = rest' := by
  rcases List.append_eq_append_iff.mp same with
    ⟨middle, rfl, rfl⟩ | ⟨middle, rfl, rfl⟩
  · cases middle with
    | nil => simp
    | cons first middle =>
        have blank := ends first (by simp)
        have letter := letters' first (by simp)
        exact absurd (blank.symm.trans letter) (by simp)
  · cases middle with
    | nil => simp
    | cons first middle =>
        have blank := ends' first (by simp)
        have letter := letters first (by simp)
        exact absurd (blank.symm.trans letter) (by simp)

/-- The offsets do not lie in front of the text. -/
theorem Cuts.le_offset
    {start : Nat}
    {text : List α}
    {tokens : List (Nat × Token α)}
    (cuts : marks.Cuts start text tokens) :
    ∀ token ∈ tokens, start ≤ token.1 := by
  induction cuts with
  | nil => simp
  | lone => simp
  | blank _ _ inductionHypothesis =>
      intro token inside
      exact (Nat.le_succ _).trans (inductionHypothesis token inside)
  | plain _ _ _ _ inductionHypothesis =>
      intro token inside
      rcases List.mem_cons.mp inside with rfl | inside
      · exact Nat.le_refl _
      · exact (Nat.le_add_right ..).trans (inductionHypothesis token inside)
  | quoted _ _ _ inductionHypothesis =>
      intro token inside
      rcases List.mem_cons.mp inside with rfl | inside
      · exact Nat.le_refl _
      · refine Nat.le_trans ?_ (inductionHypothesis token inside)
        omega
  | opened => simp

/-! ## What a text begins with -/

section Begins

variable {start : Nat} {first : α} {text : List α}
  {tokens : List (Nat × Token α)}

/-- A separator is left out. -/
theorem Cuts.of_blank
    (cuts : marks.Cuts start (first :: text) tokens)
    (isBlank : marks.blank first = true) :
    marks.Cuts (start + 1) text tokens := by
  have notQuote := ne_quote_of_blank isBlank
  generalize same : first :: text = whole at cuts
  cases cuts with
  | nil => cases same
  | lone => exact absurd (List.cons.inj same).1 notQuote
  | blank _ cuts =>
      obtain ⟨rfl, rfl⟩ := List.cons.inj same
      exact cuts
  | plain _ letters _ _ =>
      obtain ⟨rfl, -⟩ := List.cons.inj same
      have isLetter := letters first List.mem_cons_self
      exact absurd (isBlank.symm.trans isLetter) (by decide)
  | quoted => exact absurd (List.cons.inj same).1 notQuote
  | opened => exact absurd (List.cons.inj same).1 notQuote

/-- A letter begins a run. -/
theorem Cuts.of_letter
    (cuts : marks.Cuts start (first :: text) tokens)
    (notQuote : first ≠ marks.quote)
    (isLetter : marks.blank first = false) :
    ∃ run rest others, text = run ++ rest ∧
      (∀ each ∈ first :: run, marks.blank each = false) ∧
      (∀ next ∈ rest.head?, marks.blank next = true) ∧
      marks.Cuts (start + (first :: run).length) rest others ∧
      tokens = (start, .plain (first :: run)) :: others := by
  generalize same : first :: text = whole at cuts
  cases cuts with
  | nil => cases same
  | lone => exact absurd (List.cons.inj same).1 notQuote
  | blank isBlank _ =>
      obtain ⟨rfl, -⟩ := List.cons.inj same
      exact absurd (isBlank.symm.trans isLetter) (by decide)
  | plain _ letters ends cuts =>
      obtain ⟨rfl, rfl⟩ := List.cons.inj same
      exact ⟨_, _, _, rfl, letters, ends, cuts, rfl⟩
  | quoted => exact absurd (List.cons.inj same).1 notQuote
  | opened => exact absurd (List.cons.inj same).1 notQuote

/-- A quote stands alone, or begins a quotation that ends, or one that does
not. -/
theorem Cuts.of_quote
    (cuts : marks.Cuts start (marks.quote :: text) tokens) :
    (text = [] ∧ tokens = []) ∨
      (∃ inner rest others, text = inner ++ marks.quote :: rest ∧
        marks.NoClose inner ∧ inner.getLast? ≠ some marks.escape ∧
        marks.Cuts (start + inner.length + 2) rest others ∧
        tokens = (start, .quoted inner) :: others) ∨
      (text ≠ [] ∧ marks.NoClose text ∧ tokens = [(start, .opened text)]) := by
  generalize same : marks.quote :: text = whole at cuts
  cases cuts with
  | nil => cases same
  | lone => exact .inl ⟨(List.cons.inj same).2, rfl⟩
  | blank isBlank _ =>
      exact absurd (List.cons.inj same).1.symm (ne_quote_of_blank isBlank)
  | plain notQuote _ _ _ =>
      exact absurd (List.cons.inj same).1.symm notQuote
  | quoted unended ends cuts =>
      obtain ⟨-, rfl⟩ := List.cons.inj same
      exact .inr (.inl ⟨_, _, _, rfl, unended, ends, cuts, rfl⟩)
  | opened nonempty unended =>
      obtain ⟨-, rfl⟩ := List.cons.inj same
      exact .inr (.inr ⟨nonempty, unended, rfl⟩)

end Begins

/-- A text consists of these tokens only. -/
theorem Cuts.unique
    {start : Nat}
    {text : List α}
    {tokens tokens' : List (Nat × Token α)}
    (cuts : marks.Cuts start text tokens)
    (cuts' : marks.Cuts start text tokens') : tokens = tokens' := by
  induction cuts generalizing tokens' with
  | nil =>
      cases cuts'
      rfl
  | lone =>
      rcases cuts'.of_quote with ⟨-, rfl⟩ | ⟨_, _, _, same, -⟩ | ⟨nonempty, -⟩
      · rfl
      · exact absurd same (by simp)
      · exact absurd rfl nonempty
  | blank isBlank _ inductionHypothesis =>
      exact inductionHypothesis (cuts'.of_blank isBlank)
  | plain notQuote letters ends _ inductionHypothesis =>
      obtain ⟨isLetter, others⟩ := List.forall_mem_cons.mp letters
      obtain ⟨run', rest', tokens', same, letters', ends', cuts', rfl⟩ :=
        cuts'.of_letter notQuote isLetter
      obtain ⟨-, others'⟩ := List.forall_mem_cons.mp letters'
      obtain ⟨rfl, rfl⟩ := run_unique same others ends others' ends'
      rw [inductionHypothesis cuts']
  | quoted unended ends _ inductionHypothesis =>
      rcases cuts'.of_quote with ⟨same, -⟩ |
        ⟨inner', rest', tokens', same, unended', ends', cuts', rfl⟩ |
        ⟨-, unended', -⟩
      · exact absurd same (by simp)
      · obtain ⟨rfl, rfl⟩ := closed_unique same unended ends unended' ends'
        rw [inductionHypothesis cuts']
      · exact absurd rfl (not_closed_of_noClose unended' ends)
  | opened nonempty unended =>
      rcases cuts'.of_quote with ⟨same, -⟩ | ⟨_, _, _, same, -, ends', -⟩ |
        ⟨-, -, rfl⟩
      · exact absurd same nonempty
      · exact absurd same (not_closed_of_noClose unended ends')
      · rfl

/-- Every text consists of tokens. -/
theorem exists_cuts (start : Nat) (text : List α) :
    ∃ tokens, marks.Cuts start text tokens := by
  induction length : text.length using Nat.strongRecOn
    generalizing start text with
  | ind length inductionHypothesis =>
      subst length
      rcases text with _ | ⟨first, rest⟩
      · exact ⟨[], .nil⟩
      by_cases isBlank : marks.blank first = true
      · obtain ⟨tokens, cuts⟩ := inductionHypothesis rest.length
          (by simp) (start + 1) rest rfl
        exact ⟨tokens, .blank isBlank cuts⟩
      by_cases isQuote : first = marks.quote
      · subst isQuote
        rcases noClose_or_closed rest (@noClose_nil α marks) with
          unended | ⟨inner, after, same, unended, ends⟩
        · rw [List.nil_append] at unended
          rcases rest with _ | ⟨next, rest⟩
          · exact ⟨[], .lone⟩
          · exact ⟨_, .opened (by simp) unended⟩
        · rw [List.nil_append] at same
          subst same
          have shorter : after.length <
              (marks.quote :: (inner ++ marks.quote :: after)).length := by
            rw [List.length_cons, List.length_append, List.length_cons]
            omega
          obtain ⟨tokens, cuts⟩ := inductionHypothesis after.length shorter
            (start + inner.length + 2) after rfl
          exact ⟨_, .quoted unended ends cuts⟩
      · have split := @List.takeWhile_append_dropWhile _
          (fun each => !marks.blank each) rest
        generalize taken : rest.takeWhile (fun each => !marks.blank each) =
          run at split
        generalize left : rest.dropWhile (fun each => !marks.blank each) =
          after at split
        subst split
        have shorter : after.length < (first :: (run ++ after)).length := by
          rw [List.length_cons, List.length_append]
          omega
        obtain ⟨tokens, cuts⟩ := inductionHypothesis after.length shorter
          (start + (first :: run).length) after rfl
        refine ⟨_, .plain isQuote ?_ ?_ cuts⟩
        · intro each inside
          rcases List.mem_cons.mp inside with rfl | inside
          · simpa using isBlank
          · rw [← taken] at inside
            simpa using List.mem_takeWhile_imp inside
        · intro next found
          have head := List.head?_dropWhile_not (fun each => !marks.blank each)
            (run ++ after)
          rw [left, found] at head
          simpa using head

/-- What stands at an offset behind the front of a text. -/
theorem drop_behind
    {start offset : Nat}
    {front : List α}
    (behind : start + front.length ≤ offset)
    (rest : List α) :
    (front ++ rest).drop (offset - start) =
      rest.drop (offset - (start + front.length)) := by
  rw [List.drop_append, List.drop_eq_nil_of_le (by omega), List.nil_append,
    Nat.sub_sub]

/-- The text stands at the offset of a quotation that does not end. -/
theorem Cuts.opened_text
    {start offset : Nat}
    {text inner : List α}
    {tokens : List (Nat × Token α)}
    (cuts : marks.Cuts start text tokens)
    (inside : (offset, .opened inner) ∈ tokens) :
    text.drop (offset - start) = marks.quote :: inner := by
  induction cuts with
  | nil => exact absurd inside (by simp)
  | lone => exact absurd inside (by simp)
  | @blank start separator rest tokens _ cuts inductionHypothesis =>
      have behind := cuts.le_offset _ inside
      rw [← inductionHypothesis inside,
        show offset - start = offset - (start + 1) + 1 by omega,
        List.drop_succ_cons]
  | @plain start letter run rest tokens _ _ _ cuts inductionHypothesis =>
      have inside : (offset, .opened inner) ∈ tokens := by simpa using inside
      have behind := cuts.le_offset _ inside
      rw [drop_behind behind, inductionHypothesis inside]
  | @quoted start front rest tokens _ _ cuts inductionHypothesis =>
      have inside : (offset, .opened inner) ∈ tokens := by simpa using inside
      have behind := cuts.le_offset _ inside
      have split : marks.quote :: (front ++ marks.quote :: rest) =
          (marks.quote :: (front ++ [marks.quote])) ++ rest := by simp
      have length : start + (marks.quote :: (front ++ [marks.quote])).length =
          start + front.length + 2 := by
        simp [Nat.add_assoc]
      rw [split, drop_behind (by rwa [length]), length,
        inductionHypothesis inside]
  | opened =>
      obtain ⟨rfl, same⟩ := by simpa using inside
      rw [same, Nat.sub_self, List.drop_zero]

/-- Without quotes the tokens are the text without its separators. -/
theorem Cuts.flatMap_letters
    {start : Nat}
    {text : List α}
    {tokens : List (Nat × Token α)}
    (cuts : marks.Cuts start text tokens)
    (noQuote : marks.quote ∉ text) :
    (tokens.flatMap fun token => token.2.letters) =
      text.filter fun each => !marks.blank each := by
  induction cuts with
  | nil => rfl
  | lone => exact absurd List.mem_cons_self noQuote
  | blank isBlank _ inductionHypothesis =>
      rw [inductionHypothesis (List.not_mem_of_not_mem_cons noQuote)]
      simp [isBlank]
  | @plain start letter run rest tokens _ letters _ _ inductionHypothesis =>
      have all : (letter :: run).filter (fun each => !marks.blank each) =
          letter :: run :=
        List.filter_eq_self.mpr fun each inside => by
          rw [letters each inside]
          rfl
      rw [List.flatMap_cons, List.filter_append, all, inductionHypothesis]
      · rfl
      · exact fun inside => noQuote (List.mem_append_right _ inside)
  | quoted => exact absurd List.mem_cons_self noQuote
  | opened => exact absurd List.mem_cons_self noQuote

/-- Without quotes every token is a run of letters. -/
theorem Cuts.plain_of_noQuote
    {start : Nat}
    {text : List α}
    {tokens : List (Nat × Token α)}
    (cuts : marks.Cuts start text tokens)
    (noQuote : marks.quote ∉ text) :
    ∀ token ∈ tokens, ∃ run, token.2 = .plain run := by
  induction cuts with
  | nil => simp
  | lone => exact absurd List.mem_cons_self noQuote
  | blank _ _ inductionHypothesis =>
      exact inductionHypothesis (List.not_mem_of_not_mem_cons noQuote)
  | plain _ _ _ _ inductionHypothesis =>
      have later := inductionHypothesis fun inside =>
        noQuote (List.mem_append_right _ inside)
      exact List.forall_mem_cons.mpr ⟨⟨_, rfl⟩, later⟩
  | quoted => exact absurd List.mem_cons_self noQuote
  | opened => exact absurd List.mem_cons_self noQuote

/-- Other marks that separate the characters of a text in the same way cut it
in the same way. -/
theorem Cuts.congr
    {start : Nat}
    {text : List α}
    {tokens : List (Nat × Token α)}
    (cuts : marks.Cuts start text tokens)
    {other : Marks α}
    (sameQuote : other.quote = marks.quote)
    (sameEscape : other.escape = marks.escape)
    (sameBlank : ∀ each ∈ text, other.blank each = marks.blank each) :
    other.Cuts start text tokens := by
  have unended : ∀ {inner}, marks.NoClose inner → other.NoClose inner := by
    intro inner unended
    rwa [NoClose, sameQuote, sameEscape]
  induction cuts with
  | nil => exact .nil
  | lone =>
      rw [← sameQuote]
      exact .lone
  | blank isBlank _ inductionHypothesis =>
      obtain ⟨same, sameBlank⟩ := List.forall_mem_cons.mp sameBlank
      exact .blank (same.trans isBlank) (inductionHypothesis sameBlank)
  | plain notQuote letters ends _ inductionHypothesis =>
      obtain ⟨same, sameRest⟩ := List.forall_mem_append.mp sameBlank
      refine .plain (by rwa [sameQuote]) ?_ ?_ (inductionHypothesis sameRest)
      · exact fun each inside =>
          (same each inside).trans (letters each inside)
      · exact fun next found =>
          (sameRest next (List.mem_of_mem_head? found)).trans (ends next found)
  | quoted noClose ends _ inductionHypothesis =>
      obtain ⟨-, sameRest⟩ := List.forall_mem_cons.mp sameBlank
      obtain ⟨-, sameRest⟩ := List.forall_mem_append.mp sameRest
      obtain ⟨-, sameRest⟩ := List.forall_mem_cons.mp sameRest
      rw [← sameQuote]
      exact .quoted (unended noClose) (by rwa [sameEscape])
        (inductionHypothesis sameRest)
  | opened nonempty noClose =>
      rw [← sameQuote]
      exact .opened nonempty (unended noClose)

end Marks
end Text
