import Lotospp.Text.Bytes
import Mathlib.Data.List.Induction

/-!
# The tokens of a statement

How a server reads the text of a statement: names and keywords, numbers, texts
between apostrophes and single characters.  In a text a backslash keeps its
meaning from the character behind it, and two apostrophes stand for one.

The scanner looks at one byte after the other, so that what it reads of two
texts is what it reads of the first one and then, in the mode it is in, of the
second one.  It knows no comments.
-/

namespace Sql

open Text

/-- A token. -/
inductive Token
  /-- A name or a keyword. -/
  | word (name : Bytes)
  /-- A number. -/
  | number (value : Nat)
  /-- A text, without its apostrophes. -/
  | text (value : Bytes)
  /-- Any other character. -/
  | mark (symbol : UInt8)
  deriving DecidableEq, Repr

/-- What the scanner is in. -/
inductive Mode
  /-- Nothing. -/
  | between
  /-- A word. -/
  | word (front : Bytes)
  /-- A number. -/
  | number (value : Nat)
  /-- A name between backquotes. -/
  | name (front : Bytes)
  /-- A text. -/
  | text (front : Bytes)
  /-- A text, behind a backslash. -/
  | masked (front : Bytes)
  /-- A text, behind an apostrophe that ends it or is the first of two. -/
  | ended (front : Bytes)
  deriving DecidableEq, Repr

/-- The decimal digits. -/
def isDigit (byte : UInt8) : Bool :=
  48 ≤ byte && byte ≤ 57

/-- The spaces between tokens. -/
def isSpace (byte : UInt8) : Bool :=
  byte = 32 || (9 ≤ byte && byte ≤ 13)

/-- What may stand in a name behind its first character. -/
def isNamePart (byte : UInt8) : Bool :=
  isAlpha byte || isDigit byte || byte = 95

/-- The character that a masked one stands for. -/
def unmask (byte : UInt8) : UInt8 :=
  if byte = 48 then 0
  else if byte = 98 then 8
  else if byte = 110 then 10
  else if byte = 114 then 13
  else if byte = 116 then 9
  else if byte = 90 then 26
  else byte

/-- A byte outside of a token. -/
def start (byte : UInt8) : Mode × List Token :=
  if isSpace byte then (.between, [])
  else if isDigit byte then (.number (byte.toNat - 48), [])
  else if isNamePart byte then (.word [byte], [])
  else if byte = 96 then (.name [], [])
  else if byte = 39 then (.text [], [])
  else (.between, [.mark byte])

/-- A byte, and the tokens that it ends. -/
def step : Mode → UInt8 → Mode × List Token
  | .between, byte => start byte
  | .word front, byte =>
      if isNamePart byte then (.word (front ++ [byte]), [])
      else ((start byte).1, .word front :: (start byte).2)
  | .number value, byte =>
      if isDigit byte then (.number (10 * value + (byte.toNat - 48)), [])
      else ((start byte).1, .number value :: (start byte).2)
  | .name front, byte =>
      if byte = 96 then (.between, [.word front])
      else (.name (front ++ [byte]), [])
  | .text front, byte =>
      if byte = 92 then (.masked front, [])
      else if byte = 39 then (.ended front, [])
      else (.text (front ++ [byte]), [])
  | .masked front, byte => (.text (front ++ [unmask byte]), [])
  | .ended front, byte =>
      if byte = 39 then (.text (front ++ [39]), [])
      else ((start byte).1, .text front :: (start byte).2)

/-- The bytes of a text, and the tokens that they end. -/
def scan : Mode → Bytes → Mode × List Token
  | mode, [] => (mode, [])
  | mode, byte :: rest =>
      ((scan (step mode byte).1 rest).1,
        (step mode byte).2 ++ (scan (step mode byte).1 rest).2)

/-- The token that the end of a statement ends. -/
def Mode.finish : Mode → Option (List Token)
  | .between => some []
  | .word front => some [.word front]
  | .number value => some [.number value]
  | .ended front => some [.text front]
  | .name _ | .text _ | .masked _ => none

/-- The tokens of a statement. -/
def tokens (statement : Bytes) : Option (List Token) :=
  (scan .between statement).1.finish.map fun last =>
    (scan .between statement).2 ++ last

/-! ## Reading on -/

/-- From one mode to another one, these tokens are read. -/
def Reads (mode : Mode) (bytes : Bytes) (read : List Token) (next : Mode) :
    Prop :=
  scan mode bytes = (next, read)

instance (mode : Mode) (bytes : Bytes) (read : List Token) (next : Mode) :
    Decidable (Reads mode bytes read next) :=
  inferInstanceAs (Decidable (_ = _))

theorem scan_append (mode : Mode) (first second : Bytes) :
    scan mode (first ++ second) =
      ((scan (scan mode first).1 second).1,
        (scan mode first).2 ++ (scan (scan mode first).1 second).2) := by
  induction first generalizing mode with
  | nil => rfl
  | cons byte first inductionHypothesis =>
      rw [List.cons_append, scan, inductionHypothesis, scan, List.append_assoc]

theorem Reads.append
    {mode middle last : Mode}
    {first second : Bytes}
    {read more : List Token}
    (reads : Reads mode first read middle)
    (on : Reads middle second more last) :
    Reads mode (first ++ second) (read ++ more) last := by
  rw [Reads, scan_append, reads, on]

theorem Reads.tokens
    {statement : Bytes}
    {read last : List Token}
    {mode : Mode}
    (reads : Reads .between statement read mode)
    (finish : mode.finish = some last) :
    Sql.tokens statement = some (read ++ last) := by
  rw [Sql.tokens, reads, finish]
  rfl

/-- A byte that is no part of a token ends it. -/
theorem step_ended
    {front : Bytes}
    {byte : UInt8}
    (apart : byte ≠ 39) :
    step (.ended front) byte =
      ((start byte).1, .text front :: (start byte).2) :=
  if_neg apart

theorem step_number
    {value : Nat}
    {byte : UInt8}
    (apart : isDigit byte = false) :
    step (.number value) byte =
      ((start byte).1, .number value :: (start byte).2) := by
  rw [step, apart, if_neg Bool.false_ne_true]

/-- Behind a text the next bytes are read as if it were not there. -/
theorem Reads.behind_text
    {front : Bytes}
    {byte : UInt8}
    {rest : Bytes}
    {read : List Token}
    {next : Mode}
    (apart : byte ≠ 39)
    (reads : Reads .between (byte :: rest) read next) :
    Reads (.ended front) (byte :: rest) (.text front :: read) next := by
  rw [Reads, scan] at reads ⊢
  rw [step_ended apart]
  obtain ⟨rfl, rfl⟩ := Prod.mk.inj reads
  rfl

/-- Behind a number the next bytes are read as if it were not there. -/
theorem Reads.behind_number
    {value : Nat}
    {byte : UInt8}
    {rest : Bytes}
    {read : List Token}
    {next : Mode}
    (apart : isDigit byte = false)
    (reads : Reads .between (byte :: rest) read next) :
    Reads (.number value) (byte :: rest) (.number value :: read) next := by
  rw [Reads, scan] at reads ⊢
  rw [step_number apart]
  obtain ⟨rfl, rfl⟩ := Prod.mk.inj reads
  rfl

/-! ## Numbers -/

/-- The byte of a digit. -/
def digitByte (digit : Char) : UInt8 :=
  UInt8.ofNat digit.toNat

theorem digitByte_toNat
    {digit : Char}
    (isDigit : digit.isDigit = true) :
    48 ≤ digit.toNat ∧ digit.toNat ≤ 57 ∧
      (digitByte digit).toNat = digit.toNat := by
  have bounds : 48 ≤ digit.toNat ∧ digit.toNat ≤ 57 :=
    Char.isDigit_iff_toNat.mp isDigit
  refine ⟨bounds.1, bounds.2, ?_⟩
  rw [digitByte, UInt8.toNat_ofNat']
  omega

theorem isDigit_digitByte
    {digit : Char}
    (isDigit : digit.isDigit = true) :
    Sql.isDigit (digitByte digit) = true := by
  obtain ⟨least, most, same⟩ := digitByte_toNat isDigit
  simp only [Sql.isDigit, Bool.and_eq_true, decide_eq_true_eq,
    UInt8.le_iff_toNat_le, same]
  exact ⟨least, most⟩

/-- The digits of a number continue it. -/
theorem reads_digits
    (value : Nat)
    {digits : List Char}
    (areDigits : ∀ digit ∈ digits, digit.isDigit = true) :
    Reads (.number value) (digits.map digitByte) []
      (.number (Nat.ofDigitChars 10 digits value)) := by
  induction digits generalizing value with
  | nil => rw [Nat.ofDigitChars_nil]; rfl
  | cons digit digits inductionHypothesis =>
      have first := areDigits digit List.mem_cons_self
      have rest := inductionHypothesis (10 * value + (digit.toNat - 48))
        fun each member => areDigits each (List.mem_cons_of_mem _ member)
      rw [Reads] at rest ⊢
      rw [List.map_cons, scan, step, isDigit_digitByte first, if_pos rfl,
        (digitByte_toNat first).2.2, rest, Nat.ofDigitChars_cons]
      rfl

theorem lit_toString (value : Nat) :
    lit (toString value) = (Nat.toDigits 10 value).map digitByte := by
  rw [lit, Nat.toString_eq_repr, Nat.toList_repr]
  rfl

/-- A number is read as it was written. -/
theorem reads_number (value : Nat) :
    Reads .between (lit (toString value)) [] (.number value) := by
  have areDigits : ∀ digit ∈ Nat.toDigits 10 value, digit.isDigit = true :=
    fun digit member => Nat.isDigit_of_mem_toDigits (by decide) (by decide) member
  have whole := @Nat.ofDigitChars_toDigits 10 value (by decide) (by decide)
  rw [lit_toString]
  cases digits : Nat.toDigits 10 value with
  | nil => exact absurd digits Nat.toDigits_ne_nil
  | cons digit rest =>
      rw [digits] at areDigits whole
      have first := areDigits digit List.mem_cons_self
      obtain ⟨least, most, same⟩ := digitByte_toNat first
      have notSpace : isSpace (digitByte digit) = false := by
        simp only [isSpace, Bool.or_eq_false_iff, Bool.and_eq_false_iff,
          decide_eq_false_iff_not, ← UInt8.toNat_inj, UInt8.le_iff_toNat_le, same]
        simp
        omega
      have reads := reads_digits (digit.toNat - 48)
        fun each member => areDigits each (List.mem_cons_of_mem _ member)
      rw [Nat.ofDigitChars_cons, Nat.mul_zero, Nat.zero_add] at whole
      rw [Reads] at reads ⊢
      rw [List.map_cons, scan, step, start, notSpace, if_neg Bool.false_ne_true,
        isDigit_digitByte first, if_pos rfl, same, reads]
      exact congrArg (fun value => (Mode.number value, [])) whole

/-! ## Texts -/

/-- How a client masks a byte of a text. -/
def mask (byte : UInt8) : Bytes :=
  if byte = 0 then [92, 48]
  else if byte = 10 then [92, 110]
  else if byte = 13 then [92, 114]
  else if byte = 26 then [92, 90]
  else if byte = 34 ∨ byte = 39 ∨ byte = 92 then [92, byte]
  else [byte]

theorem reads_mask (front : Bytes) (byte : UInt8) :
    Reads (.text front) (mask byte) [] (.text (front ++ [byte])) := by
  unfold mask
  split_ifs with nul newline carriageReturn substitute other
  · rw [nul]; rfl
  · rw [newline]; rfl
  · rw [carriageReturn]; rfl
  · rw [substitute]; rfl
  · rcases other with rfl | rfl | rfl <;> rfl
  · obtain ⟨-, notApostrophe, notBackslash⟩ :
        byte ≠ 34 ∧ byte ≠ 39 ∧ byte ≠ 92 := by
      simpa only [not_or] using other
    simp [Reads, scan, step, notApostrophe, notBackslash]

/-- A masked text is read as it was before. -/
theorem reads_masked (front value : Bytes) :
    Reads (.text front) (value.flatMap mask) [] (.text (front ++ value)) := by
  induction value generalizing front with
  | nil => rw [List.append_nil]; rfl
  | cons byte value inductionHypothesis =>
      have rest := inductionHypothesis (front ++ [byte])
      rw [List.append_assoc, List.singleton_append] at rest
      exact (reads_mask front byte).append rest

/-- A masked text between apostrophes. -/
theorem reads_text (value : Bytes) :
    Reads .between (lit "'" ++ value.flatMap mask ++ lit "'") []
      (.ended value) := by
  have opens : Reads .between (lit "'") [] (.text []) := rfl
  have closes : Reads (.text value) (lit "'") [] (.ended value) := rfl
  exact (opens.append (reads_masked [] value)).append closes

end Sql
