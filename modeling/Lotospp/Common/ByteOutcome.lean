import Lotospp.Commands.LineOutcome

/-!
# The outcome of a byte

What `User::uRead` does with an ordinary byte: it is ignored, edits the line
or completes it.  A complete line is shown with the state in which it is
handed over.
-/

namespace Lotospp
namespace Common

open Text Effect Commands

/-- What backspace and delete do. -/
def rubOutcome (me : Nat) (core : Core) : Except Abort Unit × Core :=
  let before := core.users me
  if before.tbpos > 0 then
    match eraseFrom before.text (before.tbpos - 1) with
    | .error fault => (.error (.ofFault fault), core)
    | .ok text =>
        (.ok (), core.setUser me fun user =>
          { user.setText text with tbpos := before.tbpos - 1 })
  else (.ok (), core)

/-- What a character of the line does. -/
def typedOutcome (me : Nat) (byte : UInt8) (core : Core) :
    Except Abort Unit × Core :=
  let before := core.users me
  match replace before.text before.tbpos 1 [byte] with
  | .error fault => (.error (.ofFault fault), core)
  | .ok text =>
      let core := core.setUser me fun user => user.setText text
      if before.tbpos + 1 < 2 ^ 31 then
        (.ok (), core.setUser me fun user =>
          { user with tbpos := user.tbpos + 1 })
      else (.error .undefined, core)

/-- What a byte does that does not complete a line. -/
def keyOutcome (me : Nat) (byte : UInt8) (core : Core) :
    Except Abort Unit × Core :=
  if byte = 0 ∨ byte = lf then (.ok (), core)
  else if byte = asciiBS ∨ byte = asciiDEL then rubOutcome me core
  else typedOutcome me byte core

/-- The edited line, once it is complete. -/
def User.line (user : User) : Except Fault Bytes :=
  eraseFrom user.text user.tbpos

/-- A line has been completed. -/
def Core.ended (core : Core) (me : Nat) (line : Bytes) : Core :=
  core.setUser me fun user => { user.setText line with tbpos := 0 }

/-- What an ordinary byte does. -/
def byteOutcome (env : Env) (me : Nat) (byte : UInt8) (core : Core) :
    Except Abort Unit × Core :=
  if (core.users me).stage = .new then (.ok (), core)
  else if byte = cr then
    match (core.users me).line with
    | .error fault => (.error (.ofFault fault), core)
    | .ok line => lineOutcome env me line (core.ended me line)
  else keyOutcome me byte core

/-- The line that a byte completes, as it is handed over. -/
def handedOf (me : Nat) (byte : UInt8) (rest : Bytes) (core : Core) :
    Option Handed :=
  if (core.users me).stage = .new then none
  else if byte = cr then
    match (core.users me).line with
    | .error _ => none
    | .ok line =>
        some { user := me, core := core.ended me line, line := line, rest := rest }
  else none

/-- A line is handed over behind a return, outside of the negotiation. -/
theorem handedOf_eq_some_iff
    {me : Nat}
    {byte : UInt8}
    {rest : Bytes}
    {core : Core}
    {handed : Handed} :
    handedOf me byte rest core = some handed ↔
      (core.users me).stage ≠ .new ∧ byte = cr ∧
        (core.users me).line = .ok handed.line ∧
        handed = { user := me, core := core.ended me handed.line
                   line := handed.line, rest := rest } := by
  rw [handedOf]
  by_cases isNew : (core.users me).stage = .new
  · simp [isNew]
  by_cases isCr : byte = cr
  · rw [if_neg isNew, if_pos isCr]
    cases line : (core.users me).line with
    | error fault => simp
    | ok line =>
        constructor
        · intro same
          obtain rfl := Option.some.inj same
          exact ⟨isNew, isCr, rfl, rfl⟩
        · rintro ⟨-, -, sameLine, same⟩
          obtain rfl := Except.ok.inj sameLine
          exact congrArg some same.symm
  · simp [isCr]

/-- The state in which a line is handed over, if there is one. -/
def takenAt (me : Nat) (byte : UInt8) (core : Core) : Core :=
  ((handedOf me byte [] core).map Handed.core).getD core

namespace Runs

theorem rubOut (core : Core) (me : Nat) :
    Runs (Common.rubOut me) core (rubOutcome me core) := by
  unfold Common.rubOut rubOutcome
  refine user_bind ?_
  simp only
  split
  · cases erased : eraseFrom (core.users me).text
        ((core.users me).tbpos - 1) with
    | error fault => exact bind_error (raise_intro _ core) _
    | ok text =>
        exact bind (pure_intro text core)
          (update_bind (fun _ => rfl) (uWrite _ me _))
  · exact pure_intro () core

theorem typed (core : Core) (me : Nat) (byte : UInt8) :
    Runs (Common.typed me byte) core (typedOutcome me byte core) := by
  unfold Common.typed typedOutcome
  refine user_bind ?_
  simp only
  cases replaced : replace (core.users me).text (core.users me).tbpos 1
      [byte] with
  | error fault => exact bind_error (raise_intro _ core) _
  | ok text =>
      refine bind (pure_intro text core) (update_bind (fun _ => rfl) ?_)
      simp only
      split
      · refine update_bind (fun _ => rfl) ?_
        split
        · exact uWrite _ me _
        · exact uWrite _ me _
      · exact raise_intro _ _

theorem key (core : Core) (me : Nat) (byte : UInt8) :
    Runs
      (if byte = 0 ∨ byte = lf then pure ()
      else if byte = asciiBS ∨ byte = asciiDEL then Common.rubOut me
      else Common.typed me byte) core (keyOutcome me byte core) := by
  unfold keyOutcome
  split
  · exact pure_intro () core
  · split
    · exact rubOut core me
    · exact typed core me byte

end Runs

/-- The end of a line, once it is known. -/
theorem run_lineEnd
    (env : Env)
    {me : Nat}
    {core : Core}
    {line : Bytes}
    (complete : (core.users me).line = .ok line)
    (rest : Bytes) :
    ∃ before after,
      (lineEnd env me rest).run core =
        ⟨(lineOutcome env me line (core.ended me line)).1,
          (lineOutcome env me line (core.ended me line)).2,
          before ++ .handed
            { user := me, core := core.ended me line
              line := line, rest := rest } :: after⟩ ∧
        Follows core before (core.ended me line) ∧
        Follows (core.ended me line) after
          (lineOutcome env me line (core.ended me line)).2 := by
  have echo : Runs
      (Prog.when
        ((core.users me).flagsTelnet.echo && (core.users me).flagsTelnet.sga)
        (uWrite me [cr, lf])) (core.ended me line)
      (.ok (), core.ended me line) :=
    Runs.sometimes (Runs.uWrite _ me _)
  obtain ⟨before, ranEcho, followsEcho⟩ := echo
  obtain ⟨after, ranLine, followsLine⟩ :=
    Runs.handOver env me line (core.ended me line)
  have start : Follows core [] (core.ended me line) :=
    .setUser (fun _ => by rfl) core me
  refine ⟨before, after, ?_, start.trans followsEcho, followsLine⟩
  have level : ((core.ended me line).users me).level =
      (core.users me).level := by
    simp [Core.ended, User.setText]
  rw [level] at ranLine
  unfold User.line at complete
  rw [lineEnd, run_user_bind, complete, checked_ok, Prog.run_pure_bind,
    run_update_bind]
  refine (Prog.run_bind_ok ranEcho _).trans ?_
  rw [Prog.run_get_bind, Prog.run_emit_bind]
  change ((Prog.run _ (core.ended me line)).prepend _).prepend _ = _
  rw [ranLine]
  simp

/-- An ordinary byte is shown, and then a line if it completes one. -/
theorem run_ordinary
    (env : Env)
    (me : Nat)
    (byte : UInt8)
    (rest : Bytes)
    (core : Core) :
    ∃ before after,
      (ordinary env me byte rest).run core =
        ⟨(byteOutcome env me byte core).1, (byteOutcome env me byte core).2,
          .text me byte ::
            (before ++ (handedOf me byte rest core).toList.map .handed ++
              after)⟩ ∧
        Follows core before (takenAt me byte core) ∧
        Follows (takenAt me byte core) after
          (byteOutcome env me byte core).2 := by
  rw [ordinary, Prog.run_emit_bind, run_user_bind, takenAt, handedOf, handedOf,
    byteOutcome]
  by_cases isNew : (core.users me).stage = .new
  · simp only [isNew, if_true, Prog.run_pure, Run.prepend_mk]
    exact ⟨[], [], rfl, .refl core, .refl core⟩
  · simp only [isNew, if_false]
    by_cases isCr : byte = cr
    · simp only [isCr, if_true]
      cases complete : (core.users me).line with
      | error fault =>
          refine ⟨[], [], ?_, .refl core, .refl core⟩
          unfold User.line at complete
          rw [lineEnd, run_user_bind, complete, checked_error,
            Prog.run_raise_bind]
          rfl
      | ok line =>
          obtain ⟨before, after, ran, follows, followsLine⟩ :=
            run_lineEnd env complete rest
          refine ⟨before, after, ?_, follows, followsLine⟩
          rw [ran]
          simp
    · simp only [isCr, if_false]
      obtain ⟨obs, ran, follows⟩ := Runs.key core me byte
      refine ⟨[], obs, ?_, .refl core, follows⟩
      rw [ran]
      simp

/-! ## What a byte leaves alone -/

/-- The user only edits its line, and enters no NUL. -/
def Core.Edits (core reached : Core) (me : Nat) : Prop :=
  ∃ textBuffer tbpos,
    ((core.users me).NoNul → ∀ buffer, 0 ∉ textBuffer buffer) ∧
      reached = core.setUser me fun user =>
        { user with textBuffer := textBuffer, tbpos := tbpos }

theorem Core.Edits.refl (core : Core) (me : Nat) : core.Edits core me :=
  ⟨(core.users me).textBuffer, (core.users me).tbpos, id, by simp [setUser]⟩

/-- A text is assigned and the position set. -/
theorem Core.edits_setText
    (core : Core)
    (me : Nat)
    {text : Bytes}
    (clean : (core.users me).NoNul → 0 ∉ text)
    (tbpos : Nat) :
    core.Edits
      (core.setUser me fun user => { user.setText text with tbpos := tbpos })
      me :=
  ⟨Function.update (core.users me).textBuffer (core.users me).buffnum text,
    tbpos, fun noNul => noNul.setText (clean noNul),
    by simp [setUser, User.setText]⟩

theorem Core.edits_ended
    {core : Core}
    {me : Nat}
    {line : Bytes}
    (complete : (core.users me).line = .ok line) :
    core.Edits (core.ended me line) me :=
  core.edits_setText me (fun noNul => noNul.erased complete) 0

theorem keyOutcome_edits (me : Nat) (byte : UInt8) (core : Core) :
    core.Edits (keyOutcome me byte core).2 me := by
  unfold keyOutcome rubOutcome typedOutcome
  split
  · exact .refl core me
  · rename_i typed
    split
    · simp only
      split
      · split
        · exact .refl core me
        · rename_i text erased
          exact core.edits_setText me (fun noNul => noNul.erased erased) _
      · exact .refl core me
    · simp only
      split
      · exact .refl core me
      · rename_i text replaced
        have clean : (core.users me).NoNul → 0 ∉ text := fun noNul =>
          noNul.replaced (fun isNul => typed (.inl isNul)) replaced
        split
        · have edits :=
            core.edits_setText me clean ((core.users me).tbpos + 1)
          rw [Core.setUser_setUser]
          simpa [Core.setUser, User.setText, Function.comp] using edits
        · have edits := core.edits_setText me clean (core.users me).tbpos
          simpa [Core.setUser, User.setText] using edits

/-- A byte that completes no line changes nothing or is a key. -/
theorem byteOutcome_noLine
    (env : Env)
    {me : Nat}
    {byte : UInt8}
    {rest : Bytes}
    {core : Core}
    (noLine : handedOf me byte rest core = none) :
    byteOutcome env me byte core = (.ok (), core) ∨
      (∃ fault, byteOutcome env me byte core =
        (.error (.ofFault fault), core)) ∨
      byteOutcome env me byte core = keyOutcome me byte core := by
  rw [byteOutcome]
  by_cases isNew : (core.users me).stage = .new
  · exact .inl (if_pos isNew)
  by_cases isCr : byte = cr
  · rw [if_neg isNew, if_pos isCr]
    cases line : (core.users me).line with
    | error fault => exact .inr (.inl ⟨fault, rfl⟩)
    | ok text =>
        have complete : handedOf me byte rest core = some
            { user := me, core := core.ended me text
              line := text, rest := rest } :=
          handedOf_eq_some_iff.mpr ⟨isNew, isCr, line, rfl⟩
        rw [noLine] at complete
        cases complete
  · rw [if_neg isNew, if_neg isCr]
    exact .inr (.inr rfl)

/-- A byte that completes no line only edits it. -/
theorem byteOutcome_edits
    (env : Env)
    {me : Nat}
    {byte : UInt8}
    {rest : Bytes}
    {core : Core}
    (noLine : handedOf me byte rest core = none) :
    core.Edits (byteOutcome env me byte core).2 me := by
  rcases byteOutcome_noLine env noLine with same | ⟨fault, same⟩ | same
  · rw [same]
    exact .refl core me
  · rw [same]
    exact .refl core me
  · rw [same]
    exact keyOutcome_edits me byte core

/-- A byte that completes a line hands it over. -/
theorem byteOutcome_line
    (env : Env)
    {me : Nat}
    {byte : UInt8}
    {rest : Bytes}
    {core : Core}
    {handed : Handed}
    (complete : handedOf me byte rest core = some handed) :
    byte = cr ∧ (core.users me).line = .ok handed.line ∧
      handed = { user := me, core := core.ended me handed.line
                 line := handed.line, rest := rest } ∧
      byteOutcome env me byte core =
        lineOutcome env me handed.line handed.core := by
  obtain ⟨notNew, isCr, line, same⟩ := handedOf_eq_some_iff.mp complete
  have state : handed.core = core.ended me handed.line :=
    congrArg Handed.core same
  refine ⟨isCr, line, same, ?_⟩
  rw [byteOutcome, if_neg notNew, if_pos isCr, line, state]

end Common
end Lotospp
