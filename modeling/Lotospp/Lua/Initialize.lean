import Lotospp.Common.EnumTable
import Lotospp.Lua.Enum

/-!
# Running `initialize`

The generated function `initialize` enters every enumerator with a call of
`initAddValue`, whose third argument has a null pointer as its default.  This
module runs the calls and determines for which declarations they come to an
end with every enumerator in the table.
-/

namespace Lotospp
namespace Lua

open Text Common

/-- What the C++ compiler makes of the generated files. -/
structure Compiler where
  /-- The string of a literal with this text, if it is well formed. -/
  literal : Bytes → Option Bytes
  literal_nil : literal [] = some []
  /-- The value of an enumerator of the header. -/
  enumerator : Bytes → Int

/-- How `initialize` fails. -/
inductive InitError
  /-- A string is made from a null pointer. -/
  | nullPointer
  /-- The call does not compile. -/
  | illFormed
  deriving DecidableEq, Repr

namespace Compiler

variable (compiler : Compiler)

/-- A string literal as an argument. -/
def text (literal : Bytes) : Except InitError Bytes :=
  match compiler.literal literal with
  | some text => .ok text
  | none => .error .illFormed

/-- The third argument of `initAddValue`, a string: its default is `NULL`, and
so is the literal `0`.  No other number is converted to a string. -/
def value : Argument → Except InitError Bytes
  | .missing => .error .nullPointer
  | .literal text => compiler.text text
  | .number text =>
      if text = lit "0" then .error .nullPointer else .error .illFormed

/-- The arguments of a call. -/
def entry (call : InitCall) : Except InitError EnumEntry := do
  let str ← compiler.text call.name
  let value ← compiler.value call.value
  pure ⟨compiler.enumerator call.first, str, value⟩

/-- The first call of `Enum::init`, which runs the generated function
`initialize`. -/
def init (enumName : Bytes) (calls : List InitCall) :
    Except InitError EnumTable :=
  calls.foldlM (fun table call => do
    let entry ← compiler.entry call
    pure (table.initAddValue entry)) { enumName := enumName }

end Compiler

/-- `initialize` comes to its end, and every enumerator is in the table. -/
def Initializes {Number : Type} (compiler : Compiler) (enumName : Bytes)
    (generated : Generated Number) : Prop :=
  ∃ table, compiler.init enumName generated.calls = .ok table ∧
    ∀ enumerator ∈ generated.enumerators,
      table.exists_ (compiler.enumerator enumerator.1) = true

/-- The item becomes a string literal that is well formed. -/
def Scalar.Literal (compiler : Compiler) (item : Scalar) : Prop :=
  ∃ text, item.concat = .ok text ∧ (compiler.literal text).isSome = true

/-- The declared value is a table with a name behind the enumerator; the item
behind the name, if there is one, is no number, and the literals are well
formed. -/
def Declared.Named (compiler : Compiler) : Declared → Prop
  | .table (_ :: name :: more) _ _ =>
      name.Literal compiler ∧
        ∀ value ∈ more.head?, match value with
          | .string text => (compiler.literal text).isSome = true
          | .number _ => False
          | .other => True
  | _ => False

/-! ## The calls -/

/-- A list of arguments is converted when every one of them is. -/
theorem exists_forall₂_iff
    {Input Output Error : Type}
    (function : Input → Except Error Output)
    (inputs : List Input) :
    (∃ outputs, List.Forall₂ (fun input output => function input = .ok output)
        inputs outputs) ↔
      ∀ input ∈ inputs, ∃ output, function input = .ok output := by
  induction inputs with
  | nil => simp
  | cons input inputs inductionHypothesis =>
      rw [List.forall_mem_cons, ← inductionHypothesis]
      constructor
      · rintro ⟨outputs, each⟩
        obtain ⟨output, rest, first, each, -⟩ :=
          List.forall₂_cons_left_iff.mp each
        exact ⟨⟨output, first⟩, rest, each⟩
      · rintro ⟨⟨output, first⟩, rest, each⟩
        exact ⟨output :: rest, .cons first each⟩

/-- The calls convert their arguments and fill the table with them. -/
theorem foldlM_entry_eq_ok_iff
    (compiler : Compiler)
    (calls : List InitCall)
    (start table : EnumTable) :
    (calls.foldlM (fun table call => do
        let entry ← compiler.entry call
        pure (table.initAddValue entry)) start) = .ok table ↔
      ∃ entries, List.Forall₂
        (fun call entry => compiler.entry call = .ok entry) calls entries ∧
          entries.foldl EnumTable.initAddValue start = table := by
  induction calls generalizing start with
  | nil =>
      rw [List.foldlM_nil]
      constructor
      · intro same
        exact ⟨[], .nil, Except.ok.inj same⟩
      · rintro ⟨entries, each, same⟩
        obtain rfl := List.forall₂_nil_left_iff.mp each
        rw [← same]
        rfl
  | cons call calls inductionHypothesis =>
      rw [List.foldlM_cons]
      cases first : compiler.entry call with
      | error error =>
          constructor
          · intro same
            cases same
          · rintro ⟨entries, each, -⟩
            obtain ⟨entry, rest, found, -, -⟩ :=
              List.forall₂_cons_left_iff.mp each
            rw [first] at found
            cases found
      | ok entry =>
          constructor
          · intro same
            obtain ⟨entries, each, filled⟩ :=
              (inductionHypothesis (start.initAddValue entry)).mp same
            exact ⟨entry :: entries, .cons first each, filled⟩
          · rintro ⟨entries, each, filled⟩
            obtain ⟨entry', rest, found, left, rfl⟩ :=
              List.forall₂_cons_left_iff.mp each
            rw [first] at found
            obtain rfl := Except.ok.inj found
            exact (inductionHypothesis (start.initAddValue entry)).mpr
              ⟨rest, left, filled⟩

theorem init_eq_ok_iff
    (compiler : Compiler)
    (enumName : Bytes)
    (calls : List InitCall)
    (table : EnumTable) :
    compiler.init enumName calls = .ok table ↔
      ∃ entries, List.Forall₂
        (fun call entry => compiler.entry call = .ok entry) calls entries ∧
          EnumTable.filled enumName entries = table :=
  foldlM_entry_eq_ok_iff compiler calls _ table

/-- A call enters its enumerator. -/
theorem entry_e
    {compiler : Compiler}
    {call : InitCall}
    {entry : EnumEntry}
    (converted : compiler.entry call = .ok entry) :
    entry.e = compiler.enumerator call.first := by
  rw [Compiler.entry] at converted
  cases text : compiler.text call.name with
  | error error => simp [text, bind, Except.bind] at converted
  | ok str =>
      cases value : compiler.value call.value with
      | error error => simp [text, value, bind, Except.bind] at converted
      | ok value' =>
          simp only [text, value, bind, Except.bind, pure, Except.pure]
            at converted
          rw [← Except.ok.inj converted]

theorem map_e_entries
    {compiler : Compiler}
    {calls : List InitCall}
    {entries : List EnumEntry}
    (converted : List.Forall₂
      (fun call entry => compiler.entry call = .ok entry) calls entries) :
    entries.map EnumEntry.e =
      (calls.map InitCall.first).map compiler.enumerator := by
  induction converted with
  | nil => rfl
  | cons first _ inductionHypothesis =>
      rw [List.map_cons, List.map_cons, List.map_cons, inductionHypothesis,
        entry_e first]

/-- `initialize` comes to its end, with every enumerator in the table, when the
arguments of every call can be converted. -/
theorem initializes_iff_calls
    {Number : Type}
    (compiler : Compiler)
    (enumName : Bytes)
    {generated : Generated Number}
    (sameNames : generated.enumerators.map Prod.fst =
      generated.calls.map InitCall.first) :
    Initializes compiler enumName generated ↔
      ∀ call ∈ generated.calls, ∃ entry, compiler.entry call = .ok entry := by
  rw [← exists_forall₂_iff]
  constructor
  · rintro ⟨table, ran, -⟩
    obtain ⟨entries, each, -⟩ :=
      (init_eq_ok_iff compiler enumName generated.calls table).mp ran
    exact ⟨entries, each⟩
  · rintro ⟨entries, each⟩
    refine ⟨_, (init_eq_ok_iff ..).mpr ⟨entries, each, rfl⟩, ?_⟩
    intro enumerator inside
    have named : compiler.enumerator enumerator.1 ∈
        entries.map EnumEntry.e := by
      rw [map_e_entries each, ← sameNames]
      exact List.mem_map_of_mem (List.mem_map_of_mem inside)
    obtain ⟨entry, isEntry, same⟩ := List.mem_map.mp named
    rw [EnumTable.exists_, Option.isSome_iff_ne_none, ne_eq,
      EnumTable.enumToString_filled_eq_none_iff]
    exact fun missing => missing entry isEntry same

/-! ## The declarations -/

theorem text_ok_iff (compiler : Compiler) (literal : Bytes) :
    (∃ text, compiler.text literal = .ok text) ↔
      (compiler.literal literal).isSome = true := by
  rw [Compiler.text]
  cases compiler.literal literal <;> simp

/-- The arguments of a call are converted one by one. -/
theorem entry_ok_iff (compiler : Compiler) (call : InitCall) :
    (∃ entry, compiler.entry call = .ok entry) ↔
      (compiler.literal call.name).isSome = true ∧
        ∃ value, compiler.value call.value = .ok value := by
  rw [← text_ok_iff, Compiler.entry]
  cases compiler.text call.name with
  | error error => simp [bind, Except.bind]
  | ok str =>
      cases compiler.value call.value <;>
        simp [bind, Except.bind, pure, Except.pure]

/-- The third argument is converted exactly when the item it is written from
is no number and its literal is well formed. -/
theorem value_ok_iff
    (compiler : Compiler)
    {first text : Bytes}
    {more : List Scalar}
    {call : InitCall}
    (written : (match more.head? with
      | some (.string value) => .ok ⟨first, text, .literal value⟩
      | some (.number value) => .ok ⟨first, text, .number value⟩
      | _ => .ok ⟨first, text, .literal []⟩ :
        Except LuaError InitCall) = .ok call) :
    call.name = text ∧ ((∃ value, compiler.value call.value = .ok value) ↔
      ∀ value ∈ more.head?, match value with
        | .string text => (compiler.literal text).isSome = true
        | .number _ => False
        | .other => True) := by
  have empty : ∃ value, compiler.text [] = .ok value :=
    (text_ok_iff compiler []).mpr (by rw [compiler.literal_nil]; rfl)
  rcases more with _ | ⟨value, more⟩
  · obtain rfl := Except.ok.inj written
    exact ⟨rfl, by simpa [Compiler.value] using empty⟩
  rcases value with value | value | _
  · obtain rfl := Except.ok.inj written
    exact ⟨rfl, by simpa [Compiler.value] using text_ok_iff compiler value⟩
  · obtain rfl := Except.ok.inj written
    refine ⟨rfl, ?_⟩
    rw [Compiler.value]
    split <;> simp
  · obtain rfl := Except.ok.inj written
    exact ⟨rfl, by simpa [Compiler.value] using empty⟩

theorem split_aliases {Number : Type} (s : Bytes) :
    (split s : Rebuilt Number).aliases = [] := by
  rw [split]
  split <;> rfl

/-- Without an alias the third argument is missing. -/
theorem not_entry_ok
    {Number : Type}
    (compiler : Compiler)
    {v : Rebuilt Number}
    {call : InitCall}
    (plain : v.aliases = [])
    (written : initCall v = .ok call) :
    ¬ ∃ entry, compiler.entry call = .ok entry := by
  rw [initCall, plain] at written
  obtain rfl := Except.ok.inj written
  simp [entry_ok_iff, Compiler.value]

/-- The call for a declared value has arguments that can be converted exactly
when the value is named. -/
theorem entry_ok_iff_named
    {Number : Type}
    (compiler : Compiler)
    {declared : Declared}
    {v : Rebuilt Number}
    {call : InitCall}
    (rebuilt : rebuild declared = .ok v)
    (written : initCall v = .ok call) :
    (∃ entry, compiler.entry call = .ok entry) ↔ declared.Named compiler := by
  cases declared with
  | string text =>
      obtain rfl := Except.ok.inj rebuilt
      exact iff_of_false
        (not_entry_ok compiler (split_aliases text) written) id
  | other => cases rebuilt
  | table items null all =>
      rcases items with _ | ⟨first, _ | ⟨name, more⟩⟩
      · cases rebuilt
      · cases first with
        | string text =>
            obtain rfl := Except.ok.inj rebuilt
            exact iff_of_false (not_entry_ok compiler rfl written) id
        | number text => cases rebuilt
        | other => cases rebuilt
      · cases first with
        | number text => cases rebuilt
        | other => cases rebuilt
        | string text =>
            obtain rfl := Except.ok.inj rebuilt
            rw [entry_ok_iff, Declared.Named]
            simp only [initCall, bind, Except.bind] at written
            cases concat : name.concat with
            | error error => simp [concat] at written
            | ok literal =>
                rw [concat] at written
                obtain ⟨sameName, third⟩ := value_ok_iff compiler written
                rw [sameName, third, Scalar.Literal, concat]
                simp

/-- A call names its enumerator. -/
theorem first_initCall
    {Number : Type}
    {v : Rebuilt Number}
    {call : InitCall}
    (written : initCall v = .ok call) : v.first = call.first := by
  rw [initCall] at written
  cases aliases : v.aliases with
  | nil =>
      rw [aliases] at written
      rw [← Except.ok.inj written]
  | cons name more =>
      rw [aliases] at written
      cases concat : name.concat with
      | error error => simp [concat, bind, Except.bind] at written
      | ok text =>
          simp only [concat, bind, Except.bind] at written
          split at written <;> rw [← Except.ok.inj written]

/-- The calls name the enumerators. -/
theorem map_first_calls
    {Number : Type}
    {values : List (Rebuilt Number)}
    {calls : List InitCall}
    (written : List.Forall₂ (fun v call => initCall v = .ok call)
      values calls) :
    values.map Rebuilt.first = calls.map InitCall.first := by
  induction written with
  | nil => rfl
  | cons first _ inductionHypothesis =>
      rw [List.map_cons, List.map_cons, first_initCall first,
        inductionHypothesis]

/-- Relations of the elements of three lists. -/
theorem forall₂_trans
    {First Second Third : Type}
    {front : First → Second → Prop}
    {back : Second → Third → Prop}
    {across : First → Third → Prop}
    {firsts : List First}
    {seconds : List Second}
    {thirds : List Third}
    (fronts : List.Forall₂ front firsts seconds)
    (backs : List.Forall₂ back seconds thirds)
    (trans : ∀ x y z, front x y → back y z → across x z) :
    List.Forall₂ across firsts thirds := by
  induction fronts generalizing thirds with
  | nil =>
      obtain rfl := List.forall₂_nil_left_iff.mp backs
      exact .nil
  | cons first _ inductionHypothesis =>
      obtain ⟨z, rest, second, others, rfl⟩ :=
        List.forall₂_cons_left_iff.mp backs
      exact .cons (trans _ _ _ first second) (inductionHypothesis others)

/-- Two lists whose elements correspond. -/
theorem forall_mem_iff_of_forall₂
    {Left Right : Type}
    {left : Left → Prop}
    {right : Right → Prop}
    {lefts : List Left}
    {rights : List Right}
    (each : List.Forall₂ (fun x y => left x ↔ right y) lefts rights) :
    (∀ x ∈ lefts, left x) ↔ ∀ y ∈ rights, right y := by
  induction each with
  | nil => simp
  | cons first _ inductionHypothesis =>
      rw [List.forall_mem_cons, List.forall_mem_cons, first,
        inductionHypothesis]

theorem initCall_renumbers
    {Number : Type}
    {v numbered : Rebuilt Number}
    (renumbers : Renumbers v numbered) : initCall numbered = initCall v := by
  rw [renumbers]
  rfl

/-- What `enum` has generated runs to its end, with every enumerator in the
table, exactly when every declared value is named. -/
theorem initializes_iff
    {Number : Type}
    {numbers : Numbers Number}
    (compiler : Compiler)
    (enumName : Bytes)
    {bitmask : Bool}
    {declared : List Declared}
    {generated : Generated Number}
    (ran : enum numbers bitmask declared = .ok generated) :
    Initializes compiler enumName generated ↔
      ∀ value ∈ declared, value.Named compiler := by
  obtain ⟨values, rebuilt, -, calls, enumerators⟩ := exists_ran ran
  have renumbered :=
    numberValues_renumbers numbers (isAutomask bitmask values) values
  generalize (numberValues numbers (isAutomask bitmask values) values).1 =
    final at calls enumerators renumbered
  have sameNames : generated.enumerators.map Prod.fst =
      generated.calls.map InitCall.first := by
    rw [enumerators, List.map_map]
    exact map_first_calls calls
  rw [initializes_iff_calls compiler enumName sameNames]
  apply Iff.symm
  apply forall_mem_iff_of_forall₂
  have written : List.Forall₂ (fun v call => initCall v = .ok call) values
      generated.calls :=
    forall₂_trans renumbered calls fun v numbered call same isCall => by
      rwa [initCall_renumbers same] at isCall
  exact forall₂_trans rebuilt written fun declared v call isRebuilt isCall =>
    (entry_ok_iff_named compiler isRebuilt isCall).symm

/-- A compiler for literals without escape sequences and enumerators without
integers. -/
def plainCompiler (enumerators : List Bytes) : Compiler where
  literal := some
  literal_nil := rfl
  enumerator name := enumerators.idxOf name

/-- The level of a new user. -/
theorem initializes_level :
    ∃ generated, enum Numbers.integers false
        [.table [.string (lit "UserLevel_LOGIN"), .string (lit "login")]
          false false] = .ok generated ∧
      (Initializes (plainCompiler [lit "UserLevel_LOGIN"]) (lit "UserLevel")
          generated ↔
        ∀ value ∈ [Declared.table [.string (lit "UserLevel_LOGIN"),
            .string (lit "login")] false false],
          value.Named (plainCompiler [lit "UserLevel_LOGIN"])) := by
  have ran : enum Numbers.integers false
      [.table [.string (lit "UserLevel_LOGIN"), .string (lit "login")]
        false false] =
      .ok ⟨[(lit "UserLevel_LOGIN", none)], .behind (lit "UserLevel_LOGIN"),
        [⟨lit "UserLevel_LOGIN", lit "login", .literal []⟩]⟩ := rfl
  exact ⟨_, ran, initializes_iff _ _ ran⟩

/-- An enumerator without a name of its own makes a string from a null
pointer. -/
theorem not_initializes_plain :
    ∃ generated, enum Numbers.integers false [.string (lit "RET_LASTRET")] =
        .ok generated ∧
      (plainCompiler [lit "RET_LASTRET"]).init (lit "ReturnValue")
        generated.calls = .error .nullPointer ∧
      ¬ Initializes (plainCompiler [lit "RET_LASTRET"]) (lit "ReturnValue")
        generated := by
  refine ⟨_, rfl, rfl, ?_⟩
  rintro ⟨table, ran, -⟩
  cases ran

end Lua
end Lotospp
