import Lotospp.Common.Output

/-!
# Slashes in printed text

`User::uPrintf` puts a carriage return before every line feed of the formatted
text.  A slash is held back until the next character comes, and a slash with
which the text ends is never written.
-/

namespace Lotospp
namespace Common

open Text

/-- The text with a carriage return before each line feed. -/
def withReturns (text : Bytes) : Bytes :=
  text.flatMap fun byte => if byte = lf then [cr, lf] else [byte]

theorem length_withReturns (text : Bytes) :
    (withReturns text).length = text.length + text.count lf := by
  induction text with
  | nil => rfl
  | cons byte rest inductionHypothesis =>
      rw [withReturns, List.flatMap_cons, List.length_append, ← withReturns,
        inductionHypothesis, List.count_cons, List.length_cons]
      by_cases newline : byte = lf
      · simp [newline]
        omega
      · simp [newline]
        omega

theorem noNul_withReturns
    {text : Bytes}
    (noNul : 0 ∉ text) : 0 ∉ withReturns text := by
  intro inside
  obtain ⟨byte, inText, inByte⟩ := List.mem_flatMap.mp inside
  split at inByte
  · exact absurd inByte (by decide)
  · exact noNul (List.mem_singleton.mp inByte ▸ inText)

/-- What the flag `pcesc` holds back. -/
def held (pcesc : Bool) : Bytes :=
  if pcesc then [47] else []

/-- The flag after a character. -/
def isSlash (byte : UInt8) : Bool :=
  byte = 47

/-- The flag at the end of a text. -/
def heldBack (pcesc : Bool) (text : Bytes) : Bool :=
  text.foldl (fun _ byte => isSlash byte) pcesc

/-- One turn of the loop: what was held back is written before anything but
the first of two slashes. -/
theorem escape_cons
    {byte : UInt8}
    (notNul : byte ≠ 0)
    (pcesc : Bool)
    (rest : Bytes) :
    escape pcesc (byte :: rest) = held pcesc ++
      if isSlash byte then escape true rest
      else withReturns [byte] ++ escape false rest := by
  rw [escape, if_neg notNul]
  by_cases newline : byte = lf
  · subst newline
    rw [if_pos rfl, List.append_assoc]
    rfl
  · rw [if_neg newline]
    by_cases slash : byte = 47
    · subst slash
      cases pcesc <;> rfl
    · simp [isSlash, slash, newline, withReturns, held]

/-- What is printed, and then what is held back, is the whole text. -/
theorem escape_append_held
    {text : Bytes}
    (noNul : 0 ∉ text)
    (pcesc : Bool) :
    escape pcesc text ++ held (heldBack pcesc text) =
      held pcesc ++ withReturns text := by
  induction text generalizing pcesc with
  | nil =>
      rw [withReturns, List.flatMap_nil, List.append_nil]
      rfl
  | cons byte rest inductionHypothesis =>
      have notNul : byte ≠ 0 :=
        ne_of_mem_of_not_mem List.mem_cons_self noNul
      have rest_eq := inductionHypothesis (List.not_mem_of_not_mem_cons noNul)
      have split : withReturns (byte :: rest) =
          withReturns [byte] ++ withReturns rest := by
        rw [← List.singleton_append, withReturns, List.flatMap_append]
        rfl
      rw [escape_cons notNul, heldBack, List.foldl_cons, ← heldBack,
        List.append_assoc, split]
      cases slash : isSlash byte with
      | true =>
          have isSlash : byte = 47 := by simpa [isSlash] using slash
          rw [if_pos rfl, rest_eq true, isSlash]
          rfl
      | false =>
          rw [if_neg (by decide), List.append_assoc, rest_eq false]
          rfl

/-- A text leaves a slash behind when it ends in one. -/
theorem heldBack_eq_true_iff (text : Bytes) :
    heldBack false text = true ↔ text.getLast? = some 47 := by
  rcases List.eq_nil_or_concat text with rfl | ⟨front, last, rfl⟩
  · simp [heldBack]
  · simp [heldBack, isSlash]

/-- `User::uPrintf` hands a text without NUL to `User::uWrite` with nothing but
its line feeds changed exactly when the text does not end in a slash. -/
theorem uPrintf_exact_iff
    {text : Bytes}
    (noNul : 0 ∉ text) :
    (∀ me, uPrintf me text = uWrite me (escape false text)) ∧
      (escape false text = withReturns text ↔ text.getLast? ≠ some 47) := by
  have printed := escape_append_held noNul false
  rw [show held false = [] from rfl, List.nil_append] at printed
  refine ⟨fun me => rfl, ?_⟩
  rw [← printed, List.self_eq_append_right, ne_eq, ← heldBack_eq_true_iff]
  cases heldBack false text <;> decide

/-- Slashes in other places are printed. -/
theorem uPrintf_exact_path :
    0 ∉ lit "//etc/motd\n" ∧
      (escape false (lit "//etc/motd\n") = withReturns (lit "//etc/motd\n") ↔
        (lit "//etc/motd\n").getLast? ≠ some 47) :=
  have noNul : 0 ∉ lit "//etc/motd\n" := by decide
  ⟨noNul, (uPrintf_exact_iff noNul).2⟩

/-- Of the text `a/` only the `a` is printed. -/
theorem uPrintf_slash :
    0 ∉ lit "a/" ∧ escape false (lit "a/") = lit "a" ∧
      withReturns (lit "a/") = lit "a/" ∧
      escape false (lit "a/") ≠ withReturns (lit "a/") := by
  decide

end Common
end Lotospp
