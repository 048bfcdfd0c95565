import Lotospp.Strings.Splitline

/-!
# The offsets of the words of a session

One `Splitline` serves all the lines of a session.  This module follows its
word list and its offset list through any sequence of calls, beside a
reference that starts every line afresh, and determines when the two lists
still belong together.
-/

namespace Lotospp
namespace Strings

open Text

/-- A call that changes a `Splitline`. -/
inductive Call
  /-- `parse(inLine)`. -/
  | parse (inLine : Bytes)
  /-- `reset()`. -/
  | reset
  /-- `shift()`. -/
  | shift

namespace Call

/-- Perform the call. -/
def apply (call : Call) (split : Splitline) : Except Fault Splitline :=
  match call with
  | .parse inLine => split.parse inLine
  | .reset => .ok split.reset
  | .shift => .ok split.shift

/-- The offsets that the call records. -/
def recorded : Call → List Nat
  | .parse inLine => Splitline.starts inLine
  | .reset => []
  | .shift => []

/-- The call records no word: it is `reset`, `shift`, or a line of blanks. -/
def Wordless (call : Call) : Prop :=
  call.recorded = []

instance (call : Call) : Decidable call.Wordless :=
  inferInstanceAs (Decidable (call.recorded = []))

end Call

/-- The object after a sequence of calls on a fresh one. -/
def run (calls : List Call) : Except Fault Splitline :=
  calls.foldlM (fun split call => call.apply split) {}

/-! ## The reference -/

/-- The line last parsed and where each of its words not yet shifted away
starts. -/
structure Reference where
  /-- The current line. -/
  line : Bytes := []
  /-- The start of every word. -/
  starts : List Nat := []

namespace Reference

/-- What a call does to the current line and its words. -/
def apply (reference : Reference) : Call → Reference
  | .parse inLine => ⟨inLine, Splitline.starts inLine⟩
  | .reset => ⟨reference.line, []⟩
  | .shift => ⟨reference.line, reference.starts.drop 1⟩

/-- The reference after a sequence of calls. -/
def after (calls : List Call) : Reference :=
  calls.foldl apply {}

@[simp] theorem after_nil : after [] = {} := rfl

@[simp] theorem after_append_singleton (calls : List Call) (call : Call) :
    after (calls ++ [call]) = (after calls).apply call := by
  simp [after]

end Reference

/-- The two lists have the same length, and the text at the offset of a word
is the rest of the current line from that word on. -/
def Splitline.OffsetsAgree
    (split : Splitline)
    (reference : Reference) : Prop :=
  split.word.length = split.wordPtr.length ∧
    ∀ k, k < split.word.length →
      split.wordptr k =
        .ok (reference.line.drop (reference.starts.getD k 0))

/-- After the calls the object exists and its offsets agree. -/
def KeepsOffsets (calls : List Call) : Prop :=
  ∃ split, run calls = .ok split ∧
    split.OffsetsAgree (Reference.after calls)

/-! ## Runs -/

@[simp] theorem run_append_singleton (calls : List Call) (call : Call) :
    run (calls ++ [call]) = run calls >>= call.apply := by
  simp [run, List.foldlM_append]

/-- The object follows the reference: as many words as the current line still
has, and the offsets of all lines so far. -/
structure Follows (split : Splitline) (calls : List Call) : Prop where
  words : split.word.length = (Reference.after calls).starts.length
  offsets : split.wordPtr = calls.flatMap Call.recorded
  line : (Reference.after calls).starts ≠ [] →
    split.line = (Reference.after calls).line

/-- One call keeps the object on the reference and never throws. -/
theorem Follows.apply
    {split : Splitline}
    {calls : List Call}
    (follows : Follows split calls)
    (call : Call) :
    ∃ next, call.apply split = .ok next ∧ Follows next (calls ++ [call]) := by
  obtain ⟨sameWords, sameOffsets, sameLine⟩ := follows
  cases call with
  | parse inLine =>
      obtain ⟨startQuote, endQuote, parsed⟩ := split.parse_eq inLine
      refine ⟨_, parsed, ⟨?_, ?_, ?_⟩⟩
      · simp [Reference.apply]
      · simp [sameOffsets, Call.recorded]
      · intro nonempty
        have lineNonempty : inLine ≠ [] := by
          rintro rfl
          exact nonempty (by rw [Reference.after_append_singleton]; rfl)
        simp [lineNonempty, Reference.apply]
  | reset =>
      refine ⟨_, rfl, ⟨?_, ?_, ?_⟩⟩
      · simp [Splitline.reset, Reference.apply]
      · simp [Splitline.reset, sameOffsets, Call.recorded]
      · simp [Reference.apply]
  | shift =>
      have frame : split.shift.line = split.line ∧
          split.shift.wordPtr = split.wordPtr ∧
          split.shift.word = split.word.drop 1 := by
        rcases shape : split.word with _ | ⟨first, _ | ⟨second, rest⟩⟩ <;>
          simp [Splitline.shift, Splitline.reset, shape]
      refine ⟨_, rfl, ⟨?_, ?_, ?_⟩⟩
      · simp [Reference.apply, frame, sameWords]
      · simp [frame, sameOffsets, Call.recorded]
      · intro nonempty
        have before : (Reference.after calls).starts ≠ [] := by
          intro empty
          exact nonempty (by simp [Reference.apply, empty])
        simpa [Reference.apply, frame] using sameLine before

/-- Every sequence of calls runs through and follows the reference. -/
theorem run_follows (calls : List Call) :
    ∃ split, run calls = .ok split ∧ Follows split calls := by
  induction calls using List.reverseRecOn with
  | nil => exact ⟨{}, rfl, ⟨rfl, rfl, by simp⟩⟩
  | append_singleton calls call inductionHypothesis =>
      obtain ⟨split, ran, follows⟩ := inductionHypothesis
      obtain ⟨next, applied, nextFollows⟩ := follows.apply call
      refine ⟨next, ?_, nextFollows⟩
      simpa [ran, bind, Except.bind] using applied

/-- The starts of the current line are the last offsets recorded. -/
theorem starts_suffix_recorded (calls : List Call) :
    (Reference.after calls).starts <:+ calls.flatMap Call.recorded := by
  induction calls using List.reverseRecOn with
  | nil => exact List.suffix_refl _
  | append_singleton calls call inductionHypothesis =>
      cases call with
      | parse inLine => simp [Reference.apply, Call.recorded]
      | reset => simp [Reference.apply]
      | shift =>
          simpa [Reference.apply, Call.recorded] using
            (List.drop_suffix 1 _).trans inductionHypothesis

/-- The words of the current line start inside it. -/
theorem starts_lt_line
    (calls : List Call)
    {start : Nat}
    (found : start ∈ (Reference.after calls).starts) :
    start < (Reference.after calls).line.length := by
  induction calls using List.reverseRecOn with
  | nil => simp at found
  | append_singleton calls call inductionHypothesis =>
      rw [Reference.after_append_singleton] at found ⊢
      cases call with
      | parse inLine => exact Splitline.starts_lt found
      | reset => simp [Reference.apply] at found
      | shift => exact inductionHypothesis (List.mem_of_mem_drop found)

/-- The lists have the same length exactly when no earlier call recorded a
word. -/
theorem length_starts_eq_recorded_iff (calls : List Call) :
    (Reference.after calls).starts.length =
        (calls.flatMap Call.recorded).length ↔
      ∀ call ∈ calls.dropLast, call.Wordless := by
  induction calls using List.reverseRecOn with
  | nil => simp
  | append_singleton calls call _ =>
      have earlier := (starts_suffix_recorded calls).length_le
      have wordless : (∀ call ∈ calls, call.Wordless) ↔
          (calls.flatMap Call.recorded).length = 0 := by
        rw [List.length_eq_zero_iff, List.flatMap_eq_nil_iff]
        rfl
      rw [List.dropLast_concat, wordless]
      cases call <;>
        simp only [Reference.after_append_singleton, Reference.apply,
          List.flatMap_append, List.flatMap_cons, List.flatMap_nil,
          Call.recorded, List.length_append, List.length_nil,
          List.length_drop] <;>
        omega

/-- Equally long lists are equal, and then every offset points at its word. -/
theorem Follows.offsetsAgree_iff
    {split : Splitline}
    {calls : List Call}
    (follows : Follows split calls) :
    split.OffsetsAgree (Reference.after calls) ↔
      (Reference.after calls).starts.length =
        (calls.flatMap Call.recorded).length := by
  obtain ⟨sameWords, sameOffsets, sameLine⟩ := follows
  rw [Splitline.OffsetsAgree, sameWords, sameOffsets]
  refine ⟨And.left, fun sameLength => ⟨sameLength, ?_⟩⟩
  intro k inside
  have starts_eq := (starts_suffix_recorded calls).eq_of_length sameLength
  have offset : split.wordPtr[k]? =
      some ((Reference.after calls).starts.getD k 0) := by
    simp [sameOffsets, ← starts_eq, inside]
  have offset_lt := starts_lt_line calls (List.getElem_mem inside)
  have nonempty : (Reference.after calls).starts ≠ [] :=
    List.ne_nil_of_length_pos (by omega)
  rw [Splitline.wordptr, offset]
  simp only [sameLine nonempty]
  exact substr_of_le (by simpa [inside] using offset_lt.le)

theorem keepsOffsets_iff_length (calls : List Call) :
    KeepsOffsets calls ↔
      (Reference.after calls).starts.length =
        (calls.flatMap Call.recorded).length := by
  obtain ⟨split, ran, follows⟩ := run_follows calls
  rw [← follows.offsetsAgree_iff]
  constructor
  · rintro ⟨other, otherRan, agree⟩
    rw [ran] at otherRan
    cases otherRan
    exact agree
  · intro agree
    exact ⟨split, ran, agree⟩

/-- The offsets of a `Splitline` belong to the words of the current line
exactly as long as no call before the last one recorded a word. -/
theorem keepsOffsets_iff (calls : List Call) :
    KeepsOffsets calls ↔ ∀ call ∈ calls.dropLast, call.Wordless := by
  rw [keepsOffsets_iff_length, length_starts_eq_recorded_iff]

/-- After a line with a word far to the right, the second word of a shorter
line has an offset behind the end of that line. -/
theorem secondWord_outOfRange :
    ¬ KeepsOffsets [.parse (lit "aaaaaaaaaa bb"), .parse (lit "say hi")] ∧
      (run [.parse (lit "aaaaaaaaaa bb"), .parse (lit "say hi")] >>=
        fun split => split.wordptr 1) = .error .outOfRange := by
  rw [keepsOffsets_iff_length]
  decide +kernel

end Strings
end Lotospp
