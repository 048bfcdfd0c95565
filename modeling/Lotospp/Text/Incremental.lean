import Mathlib.Data.List.Basic
import Mathlib.Tactic.Common

/-!
# Incremental decoders

A decoder takes tokens off the front of a list.  It is incremental when a
token it has found stays the same whatever follows in the list, so that a list
can be decoded in pieces: what one piece leaves undecoded is put in front of
the next.
-/

namespace Text

/-- A decoder whose answers do not depend on what is still to come. -/
structure Decoder (α β : Type) where
  /-- The first token and the number of elements it takes. -/
  next : List α → Option (β × Nat)
  /-- A token takes some elements, and not more than there are. -/
  size : ∀ {list token count}, next list = some (token, count) →
    0 < count ∧ count ≤ list.length
  /-- A token stays when the list goes on. -/
  append : ∀ {list token count}, next list = some (token, count) →
    ∀ more, next (list ++ more) = some (token, count)

namespace Decoder

variable {α β : Type} (decoder : Decoder α β)

/-- Decode at most `fuel` tokens: the tokens and the rest. -/
def run : (fuel : Nat) → List α → List β × List α
  | 0, list => ([], list)
  | fuel + 1, list =>
      match decoder.next list with
      | none => ([], list)
      | some (token, count) =>
          let (tokens, rest) := run fuel (list.drop count)
          (token :: tokens, rest)

/-- The tokens of a list. -/
def tokens (list : List α) : List β :=
  (decoder.run list.length list).1

/-- What is left behind the tokens. -/
def rest (list : List α) : List α :=
  (decoder.run list.length list).2

/-- What is left behind a token is shorter. -/
theorem shorter
    {list : List α}
    {token : β}
    {count : Nat}
    (found : decoder.next list = some (token, count)) :
    ∃ length, list.length = length + 1 ∧
      (list.drop count).length ≤ length := by
  obtain ⟨positive, inside⟩ := decoder.size found
  refine ⟨list.length - 1, ?_, ?_⟩
  · omega
  · rw [List.length_drop]
    omega

/-- More fuel than elements makes no difference. -/
theorem run_eq_of_le
    {list : List α}
    {fuel : Nat}
    (enough : list.length ≤ fuel) :
    decoder.run fuel list = decoder.run list.length list := by
  induction fuel using Nat.strongRecOn generalizing list with
  | ind fuel inductionHypothesis =>
      cases found : decoder.next list with
      | none => cases fuel <;> cases list.length <;> simp [run, found]
      | some answer =>
          obtain ⟨token, count⟩ := answer
          obtain ⟨length, length_eq, shorter⟩ := decoder.shorter found
          obtain ⟨fuel, rfl⟩ : ∃ less, fuel = less + 1 := ⟨fuel - 1, by omega⟩
          simp only [length_eq, run, found]
          rw [inductionHypothesis fuel (by omega) (by omega),
            inductionHypothesis length (by omega) shorter]

theorem tokens_of_none
    {list : List α}
    (found : decoder.next list = none) :
    decoder.tokens list = [] := by
  unfold tokens
  cases list.length <;> simp [run, found]

theorem rest_of_none
    {list : List α}
    (found : decoder.next list = none) :
    decoder.rest list = list := by
  unfold rest
  cases list.length <;> simp [run, found]

theorem run_of_some
    {list : List α}
    {token : β}
    {count : Nat}
    (found : decoder.next list = some (token, count)) :
    decoder.run list.length list =
      (token :: decoder.tokens (list.drop count),
        decoder.rest (list.drop count)) := by
  obtain ⟨length, length_eq, shorter⟩ := decoder.shorter found
  rw [length_eq]
  simp only [run, found, decoder.run_eq_of_le shorter]
  rfl

theorem tokens_of_some
    {list : List α}
    {token : β}
    {count : Nat}
    (found : decoder.next list = some (token, count)) :
    decoder.tokens list = token :: decoder.tokens (list.drop count) := by
  rw [tokens, decoder.run_of_some found]

theorem rest_of_some
    {list : List α}
    {token : β}
    {count : Nat}
    (found : decoder.next list = some (token, count)) :
    decoder.rest list = decoder.rest (list.drop count) := by
  rw [rest, decoder.run_of_some found]

/-- Induction along the tokens of a list. -/
theorem induction
    {motive : List α → Prop}
    (undecoded : ∀ list, decoder.next list = none → motive list)
    (decoded : ∀ list token count,
      decoder.next list = some (token, count) →
      motive (list.drop count) → motive list)
    (list : List α) :
    motive list := by
  generalize length_eq : list.length = length
  induction length using Nat.strongRecOn generalizing list with
  | ind length inductionHypothesis =>
      cases found : decoder.next list with
      | none => exact undecoded list found
      | some answer =>
          obtain ⟨token, count⟩ := answer
          obtain ⟨positive, inside⟩ := decoder.size found
          apply decoded list token count found
          refine inductionHypothesis (list.drop count).length ?_ _ rfl
          rw [List.length_drop]
          omega

/-- A list can be decoded in two pieces. -/
theorem tokens_append (list more : List α) :
    decoder.tokens (list ++ more) =
      decoder.tokens list ++ decoder.tokens (decoder.rest list ++ more) := by
  induction list using decoder.induction with
  | undecoded list found =>
      rw [decoder.tokens_of_none found, decoder.rest_of_none found,
        List.nil_append]
  | decoded list token count found inductionHypothesis =>
      have inside := (decoder.size found).2
      rw [decoder.tokens_of_some (decoder.append found more),
        decoder.tokens_of_some found, decoder.rest_of_some found,
        List.drop_append_of_le_length inside, inductionHypothesis,
        List.cons_append]

/-- What is left of a list decoded in two pieces. -/
theorem rest_append (list more : List α) :
    decoder.rest (list ++ more) =
      decoder.rest (decoder.rest list ++ more) := by
  induction list using decoder.induction with
  | undecoded list found => rw [decoder.rest_of_none found]
  | decoded list token count found inductionHypothesis =>
      have inside := (decoder.size found).2
      rw [decoder.rest_of_some (decoder.append found more),
        decoder.rest_of_some found, List.drop_append_of_le_length inside,
        inductionHypothesis]

end Decoder
end Text
