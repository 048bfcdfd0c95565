import Lotospp.Text.Bytes

/-!
# Testing and cleaning a line
-/

namespace Lotospp
namespace Strings

open Text

/-- `Strings::hasWhitespace`. -/
def hasWhitespace (str : Bytes) : Bool :=
  str.any isBlank

/-- `Strings::terminate`: the text before the first character below 32. -/
def terminate : Bytes → Bytes
  | [] => []
  | byte :: rest => if signed byte < 32 then [] else byte :: terminate rest

/-- `Strings::cleanString`: a percent sign without a second one behind it
becomes a space.  The loop stops at a NUL; its branch for control characters
has no effect. -/
def cleanString : Bytes → Bytes
  | [] => []
  | [last] => if last = 37 then [32] else [last]
  | byte :: next :: rest =>
      if byte = 0 then byte :: next :: rest
      else if byte = 37 then
        if next = 37 then byte :: next :: cleanString rest
        else 32 :: cleanString (next :: rest)
      else byte :: cleanString (next :: rest)

theorem length_cleanString (text : Bytes) :
    (cleanString text).length = text.length := by
  fun_induction cleanString text with
  | case1 => rfl
  | case2 => rfl
  | case3 => rfl
  | case4 => rfl
  | case5 rest notNul inductionHypothesis => simp [inductionHypothesis]
  | case6 => simp [*]
  | case7 => simp [*]

/-- A text without NUL has none when it is clean. -/
theorem noNul_cleanString {text : Bytes} (noNul : 0 ∉ text) :
    0 ∉ cleanString text := by
  fun_induction cleanString text with
  | case1 => exact noNul
  | case2 => decide
  | case3 => exact noNul
  | case4 => exact noNul
  | case5 rest notNul inductionHypothesis =>
      simp only [List.mem_cons, not_or] at noNul ⊢
      exact ⟨noNul.1, noNul.2.1, inductionHypothesis noNul.2.2⟩
  | case6 next rest notNul notPercent inductionHypothesis =>
      simp only [List.mem_cons, not_or] at noNul ⊢
      exact ⟨by decide, inductionHypothesis (by simpa using noNul.2)⟩
  | case7 byte next rest notNul notPercent inductionHypothesis =>
      simp only [List.mem_cons, not_or] at noNul ⊢
      exact ⟨noNul.1, inductionHypothesis (by simpa using noNul.2)⟩

end Strings
end Lotospp
