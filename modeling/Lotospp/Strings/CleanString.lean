import Lotospp.Strings.Misc

/-!
# The loop of `cleanString`

`Strings::cleanString` goes through a line with two iterators, the second one
a character ahead, and changes the line in place.  Lone percent signs become
spaces.  Control characters should become spaces as well, but the assignment
stands behind the `break` of its `switch` and is never reached.
-/

namespace Lotospp
namespace Strings

open Text

/-- The loop of `Strings::cleanString` with its two iterators as offsets;
`turns` bounds the number of its turns, which must suffice. -/
def cleanLoop : (turns : Nat) → (str : Bytes) → (it it2 : Nat) →
    Except Fault Bytes
  | 0, _, _, _ => .error .undefined
  | turns + 1, str, it, it2 => do
      let byte ← charAt str it
      if byte = 0 then pure str
      else if byte = 37 then
        let next ← charAt str it2
        if next ≠ 37 then cleanLoop turns (str.set it 32) (it + 1) (it + 2)
        else cleanLoop turns str (it + 2) (it + 3)
      else
        -- No case of the `switch` on a control character changes it.
        cleanLoop turns str (it + 1) (it + 2)

/-- `Strings::cleanString`, reading and writing in place. -/
def cleanInPlace (str : Bytes) : Except Fault Bytes :=
  cleanLoop (str.length + 1) str 0 1

/-- A control character other than a line feed, a return and a tab. -/
def isControl (byte : UInt8) : Bool :=
  byte < 32 && byte ≠ 10 && byte ≠ 13 && byte ≠ 9

/-- Read from left to right, the percent signs come in pairs. -/
inductive Paired : Bytes → Prop
  | nil : Paired []
  | pair {rest : Bytes} : Paired rest → Paired (37 :: 37 :: rest)
  | other {byte : UInt8} {rest : Bytes} :
      byte ≠ 37 → Paired rest → Paired (byte :: rest)

/-- Read from left to right, the second text is the first one with lone percent
signs and control characters replaced by spaces. -/
inductive Rewrites : Bytes → Bytes → Prop
  | nil : Rewrites [] []
  | pair {rest cleaned : Bytes} : Rewrites rest cleaned →
      Rewrites (37 :: 37 :: rest) (37 :: 37 :: cleaned)
  | lone {rest cleaned : Bytes} : rest.head? ≠ some 37 →
      Rewrites rest cleaned → Rewrites (37 :: rest) (32 :: cleaned)
  | control {byte : UInt8} {rest cleaned : Bytes} : isControl byte = true →
      Rewrites rest cleaned → Rewrites (byte :: rest) (32 :: cleaned)
  | other {byte : UInt8} {rest cleaned : Bytes} : byte ≠ 37 →
      isControl byte = false → Rewrites rest cleaned →
      Rewrites (byte :: rest) (byte :: cleaned)

/-- The text is read inside its bounds and cleaned as it should be, and
cleaning it again changes nothing. -/
def Cleans (text : Bytes) : Prop :=
  ∃ cleaned, cleanInPlace text = .ok cleaned ∧
    cleaned.length = text.length ∧ Paired cleaned ∧ Rewrites text cleaned ∧
    cleanInPlace cleaned = .ok cleaned

/-! ## What `cleanString` does -/

theorem cleanString_nul (rest : Bytes) : cleanString (0 :: rest) = 0 :: rest := by
  cases rest <;> rfl

theorem cleanString_pair (rest : Bytes) :
    cleanString (37 :: 37 :: rest) = 37 :: 37 :: cleanString rest := rfl

theorem cleanString_lone
    {rest : Bytes}
    (alone : rest.head? ≠ some 37) :
    cleanString (37 :: rest) = 32 :: cleanString rest := by
  cases rest with
  | nil => rfl
  | cons next rest =>
      have notPercent : next ≠ 37 := by simpa using alone
      rw [cleanString, if_neg (by decide), if_pos rfl, if_neg notPercent]

theorem cleanString_other
    {byte : UInt8}
    (notNul : byte ≠ 0)
    (notPercent : byte ≠ 37)
    (rest : Bytes) : cleanString (byte :: rest) = byte :: cleanString rest := by
  cases rest with
  | nil => simp [cleanString, notPercent]
  | cons next rest => rw [cleanString, if_neg notNul, if_neg notPercent]

/-- The character at the front of the part not yet read. -/
theorem charAt_append (front rest : Bytes) :
    charAt (front ++ rest) front.length = .ok (rest.headD 0) := by
  rw [charAt_of_le (by simp)]
  cases rest <;> simp

theorem charAt_append_cons (front rest : Bytes) (byte : UInt8) :
    charAt (front ++ byte :: rest) front.length = .ok byte :=
  charAt_append front (byte :: rest)

/-- From any position on, the loop stays inside the text and cleans what it
has not yet read. -/
theorem cleanLoop_eq
    (front rest : Bytes)
    {turns : Nat}
    (enough : rest.length < turns) :
    cleanLoop turns (front ++ rest) front.length (front.length + 1) =
      .ok (front ++ cleanString rest) := by
  induction turns generalizing front rest with
  | zero => omega
  | succ turns inductionHypothesis =>
      have step : ∀ done rest : Bytes, rest.length < turns →
          ∀ it, it = done.length → cleanLoop turns (done ++ rest) it (it + 1) =
            .ok (done ++ cleanString rest) := by
        rintro done rest enough it rfl
        exact inductionHypothesis done rest enough
      rcases rest with _ | ⟨byte, rest⟩
      · rw [cleanLoop, charAt_append]
        rfl
      rw [List.length_cons] at enough
      rw [cleanLoop, charAt_append_cons]
      simp only [bind, Except.bind]
      by_cases nul : byte = 0
      · rw [if_pos nul, nul, cleanString_nul]
        rfl
      by_cases percent : byte = 37
      · have ahead : charAt (front ++ byte :: rest) (front.length + 1) =
            .ok (rest.headD 0) := by
          simpa using charAt_append (front ++ [byte]) rest
        rw [if_neg nul, if_pos percent, ahead]
        subst percent
        simp only
        rcases Decidable.em (rest.head? = some 37) with second | alone
        · obtain ⟨rest, rfl⟩ := List.head?_eq_some_iff.mp second
          rw [List.length_cons] at enough
          have next := step (front ++ [37, 37]) rest (by omega)
            (front.length + 2) (by simp)
          rw [if_neg (by simp), cleanString_pair]
          simpa using next
        · have different : rest.headD 0 ≠ 37 := by
            cases rest with
            | nil => decide
            | cons next rest => simpa using alone
          have next := step (front ++ [32]) rest (by omega)
            (front.length + 1) (by simp)
          rw [if_pos different, cleanString_lone alone]
          simpa using next
      · have next := step (front ++ [byte]) rest (by omega)
          (front.length + 1) (by simp)
        rw [if_neg nul, if_neg percent, cleanString_other nul percent]
        simpa using next

/-- `cleanString` reads the text and its NUL only. -/
theorem cleanInPlace_eq (text : Bytes) :
    cleanInPlace text = .ok (cleanString text) :=
  cleanLoop_eq [] text (Nat.lt_succ_self _)

/-- What is cleaned stays. -/
theorem cleanString_of_paired
    {text : Bytes}
    (paired : Paired text) : cleanString text = text := by
  induction paired with
  | nil => rfl
  | pair _ inductionHypothesis => rw [cleanString_pair, inductionHypothesis]
  | @other byte rest notPercent _ inductionHypothesis =>
      by_cases nul : byte = 0
      · rw [nul, cleanString_nul]
      · rw [cleanString_other nul notPercent, inductionHypothesis]

/-! ## What it should do -/

namespace Rewrites

theorem length_eq
    {text cleaned : Bytes}
    (rewrites : Rewrites text cleaned) : cleaned.length = text.length := by
  induction rewrites with
  | nil => rfl
  | pair _ inductionHypothesis => simp [inductionHypothesis]
  | lone _ _ inductionHypothesis => simp [inductionHypothesis]
  | control _ _ inductionHypothesis => simp [inductionHypothesis]
  | other _ _ _ inductionHypothesis => simp [inductionHypothesis]

theorem paired
    {text cleaned : Bytes}
    (rewrites : Rewrites text cleaned) : Paired cleaned := by
  induction rewrites with
  | nil => exact .nil
  | pair _ inductionHypothesis => exact .pair inductionHypothesis
  | lone _ _ inductionHypothesis => exact .other (by decide) inductionHypothesis
  | control _ _ inductionHypothesis =>
      exact .other (by decide) inductionHypothesis
  | other notPercent _ _ inductionHypothesis =>
      exact .other notPercent inductionHypothesis

/-- No control character is left. -/
theorem not_control
    {text cleaned : Bytes}
    (rewrites : Rewrites text cleaned) :
    ∀ byte ∈ cleaned, isControl byte = false := by
  induction rewrites with
  | nil => simp
  | pair _ inductionHypothesis =>
      exact List.forall_mem_cons.mpr ⟨by decide,
        List.forall_mem_cons.mpr ⟨by decide, inductionHypothesis⟩⟩
  | lone _ _ inductionHypothesis =>
      exact List.forall_mem_cons.mpr ⟨by decide, inductionHypothesis⟩
  | control _ _ inductionHypothesis =>
      exact List.forall_mem_cons.mpr ⟨by decide, inductionHypothesis⟩
  | other _ notControl _ inductionHypothesis =>
      exact List.forall_mem_cons.mpr ⟨notControl, inductionHypothesis⟩

end Rewrites

/-- A control character stays. -/
theorem control_mem_cleanString
    {byte : UInt8}
    (control : isControl byte = true)
    {text : Bytes}
    (inside : byte ∈ text) : byte ∈ cleanString text := by
  have notPercent : byte ≠ 37 := by
    rintro rfl
    exact absurd control (by decide)
  induction text using cleanString.induct with
  | case1 => exact inside
  | case2 => exact absurd (List.mem_singleton.mp inside) notPercent
  | case3 last isOther => simpa [cleanString, isOther] using inside
  | case4 next rest =>
      rw [cleanString_nul]
      exact inside
  | case5 rest _ inductionHypothesis =>
      rw [cleanString_pair]
      have later : byte ∈ rest := by simpa [notPercent] using inside
      exact List.mem_cons_of_mem _
        (List.mem_cons_of_mem _ (inductionHypothesis later))
  | case6 next rest different _ inductionHypothesis =>
      rw [cleanString_lone (by simpa using different)]
      have later := (List.mem_cons.mp inside).resolve_left notPercent
      exact List.mem_cons_of_mem _ (inductionHypothesis later)
  | case7 first next rest notNul isOther inductionHypothesis =>
      rw [cleanString_other notNul isOther]
      exact List.mem_cons.mpr
        ((List.mem_cons.mp inside).imp_right inductionHypothesis)

/-- Without control characters the code cleans as it should. -/
theorem rewrites_cleanString
    {text : Bytes}
    (noControl : ∀ byte ∈ text, isControl byte = false) :
    Rewrites text (cleanString text) := by
  induction text using cleanString.induct with
  | case1 => exact .nil
  | case2 => exact .lone (by simp) .nil
  | case3 last isOther =>
      rw [cleanString_other _ isOther]
      · exact .other isOther (noControl last List.mem_cons_self) .nil
      · rintro rfl
        exact absurd (noControl 0 List.mem_cons_self) (by decide)
  | case4 next rest =>
      exact absurd (noControl 0 List.mem_cons_self) (by decide)
  | case5 rest _ inductionHypothesis =>
      rw [cleanString_pair]
      apply Rewrites.pair
      apply inductionHypothesis
      exact fun byte inside => noControl byte
        (List.mem_cons_of_mem _ (List.mem_cons_of_mem _ inside))
  | case6 next rest different _ inductionHypothesis =>
      have alone : (next :: rest).head? ≠ some 37 := by simpa using different
      rw [cleanString_lone alone]
      apply Rewrites.lone alone
      apply inductionHypothesis
      exact fun byte inside => noControl byte (List.mem_cons_of_mem _ inside)
  | case7 first next rest notNul isOther inductionHypothesis =>
      rw [cleanString_other notNul isOther]
      apply Rewrites.other isOther (noControl first List.mem_cons_self)
      apply inductionHypothesis
      exact fun byte inside => noControl byte (List.mem_cons_of_mem _ inside)

/-- A text is cleaned as it should be exactly when it has no control character
other than line feeds, returns and tabs. -/
theorem cleans_iff (text : Bytes) :
    Cleans text ↔ ∀ byte ∈ text, isControl byte = false := by
  constructor
  · rintro ⟨cleaned, ran, -, -, rewrites, -⟩ byte inside
    rw [cleanInPlace_eq] at ran
    obtain rfl := Except.ok.inj ran
    by_contra control
    rw [Bool.not_eq_false] at control
    have left := rewrites.not_control byte
      (control_mem_cleanString control inside)
    exact absurd (control.symm.trans left) (by decide)
  · intro noControl
    have rewrites := rewrites_cleanString noControl
    refine ⟨_, cleanInPlace_eq text, rewrites.length_eq, rewrites.paired,
      rewrites, ?_⟩
    rw [cleanInPlace_eq, cleanString_of_paired rewrites.paired]

/-- An escape character is left in the text. -/
theorem not_cleans_escape :
    0 ∉ ([27] : Bytes) ∧ cleanInPlace [27] = .ok [27] ∧ ¬ Cleans [27] := by
  have ran : cleanInPlace [27] = .ok [27] := by decide
  refine ⟨by decide, ran, ?_⟩
  rintro ⟨cleaned, ran', -, -, rewrites, -⟩
  rw [ran] at ran'
  obtain rfl := Except.ok.inj ran'
  exact absurd (rewrites.not_control 27 List.mem_cons_self) (by decide)

end Strings
end Lotospp
