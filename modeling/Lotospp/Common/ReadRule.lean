import Lotospp.Common.ByteOutcome
import Lotospp.Common.TeloptPass

/-!
# Invariants of a session that reads

What has to be checked for a property to survive any packet: it is kept by
what telnet negotiation may change, and by each ordinary byte.  Nothing is
assumed about the bytes.
-/

namespace Lotospp
namespace Common

open Text Effect

/-- The lines handed over, among the observations. -/
def handedIn (obs : List Obs) : List Handed :=
  obs.filterMap fun observation =>
    match observation with
    | .handed line => some line
    | _ => none

@[simp] theorem handedIn_append (obs more : List Obs) :
    handedIn (obs ++ more) = handedIn obs ++ handedIn more :=
  List.filterMap_append

@[simp] theorem handedIn_handed (lines : List Handed) :
    handedIn (lines.map .handed) = lines := by
  simp [handedIn, List.filterMap_map]

theorem handedIn_of_plain
    {obs : List Obs}
    (plain : ∀ observation ∈ obs, observation.Plain) :
    handedIn obs = [] := by
  rw [handedIn, List.filterMap_eq_nil_iff]
  intro observation shown
  have isPlain := plain observation shown
  cases observation <;> first | rfl | exact isPlain.elim

/-- What an ordinary byte shows hands these lines over. -/
theorem handedIn_ordinary
    {me : Nat}
    {byte : UInt8}
    {before after : List Obs}
    (plain : ∀ observation ∈ before, observation.Plain)
    (plainAfter : ∀ observation ∈ after, observation.Plain)
    (lines : List Handed) :
    handedIn (.text me byte :: (before ++ lines.map .handed ++ after)) =
      lines := by
  change handedIn (_ ++ _ ++ _) = _
  rw [handedIn_append, handedIn_append, handedIn_of_plain plain,
    handedIn_of_plain plainAfter, handedIn_handed, List.nil_append,
    List.append_nil]

/-- The change of a user only concerns its terminal. -/
def User.Negotiates (change : User → User) : Prop :=
  ∀ user, ∃ cols rows type flags,
    change user =
        { user with
          termCols := cols
          termRows := rows
          termType := type
          flagsTelnet := flags } ∧
      flags.gotTeloptInfo = user.flagsTelnet.gotTeloptInfo

theorem User.Negotiates.keeps
    {change : User → User}
    (negotiates : User.Negotiates change) : User.Keeps change := by
  intro user
  obtain ⟨cols, rows, type, flags, same, -⟩ := negotiates user
  rw [same]
  rfl

/-- The login starts, now that all options are known. -/
def User.noticed (user : User) : User :=
  { user with
    flagsTelnet := { user.flagsTelnet with gotTeloptInfo := true }
    stage := .loginId }

/-- An invariant of the sessions that survives what `User::uRead` does for one
of them, with what holds when it does not return. -/
structure ReadInvariant
    (env : Env)
    (me : Nat)
    (inv : Core → List Handed → Prop)
    (exit : Abort → Core → List Handed → Prop) : Prop where
  /-- Telnet negotiation keeps it. -/
  negotiates : ∀ {core past change}, User.Negotiates change →
    inv core past → inv (core.setUser me change) past
  /-- The end of the negotiation keeps it. -/
  notices : ∀ {core past}, (core.users me).flagsTelnet.due = true →
    inv core past → inv (core.setUser me User.noticed) past
  /-- Faults of the reading code may occur at any time. -/
  faults : ∀ {abort core past},
    abort = .outOfRange ∨ abort = .undefined ∨ abort = .hang →
    inv core past → exit abort core past
  /-- An ordinary byte keeps it. -/
  takes : ∀ {byte rest core past}, inv core past →
    match byteOutcome env me byte core with
    | (.ok _, reached) =>
        inv reached (past ++ (handedOf me byte rest core).toList)
    | (.error abort, reached) =>
        exit abort reached (past ++ (handedOf me byte rest core).toList)

namespace ReadInvariant

variable {env : Env} {me : Nat}
variable {inv : Core → List Handed → Prop}
variable {exit : Abort → Core → List Handed → Prop}

/-- The program keeps the invariant. -/
def Keeps
    {α : Type}
    (inv : Core → List Handed → Prop)
    (exit : Abort → Core → List Handed → Prop)
    (prog : ReadM α) : Prop :=
  Prog.Preserves (fun reader past => inv reader.core (handedIn past))
    (fun abort reader past => exit abort reader.core (handedIn past)) prog

theorem keeps_checked
    {α : Type}
    (invariant : ReadInvariant env me inv exit)
    (result : Except Fault α) :
    Keeps inv exit (checked result) := by
  cases result with
  | ok value => exact Prog.Preserves.pure_intro value
  | error fault =>
      refine Prog.Preserves.raise_intro fun state past holds =>
        invariant.faults ?_ holds
      cases fault <;> simp [Abort.ofFault]

/-- A change of the telnet buffer is not noticed. -/
theorem keeps_buffer (change : TeloptBuffer → TeloptBuffer) :
    Keeps inv exit (Prog.modify fun reader =>
      { reader with buffer := change reader.buffer }) :=
  Prog.Preserves.modify_intro fun _ _ holds => holds

theorem keeps_emit
    {observation : Obs}
    (noLine : handedIn [observation] = []) :
    Keeps inv exit (Prog.emit observation) := by
  refine Prog.Preserves.emit_intro fun state past holds => ?_
  rw [handedIn_append, noLine, List.append_nil]
  exact holds

/-- Session code with an outcome that keeps the invariant. -/
theorem keeps_onCore
    {prog : CoreM Unit}
    {outcome : Core → Core}
    (runs : ∀ core, Runs prog core (.ok (), outcome core))
    (kept : ∀ core past, inv core past → inv (outcome core) past) :
    Keeps inv exit (onCore prog) := by
  intro reader past holds
  obtain ⟨obs, ran, follows⟩ := runs reader.core
  rw [onCore, Prog.run_zoom, ran]
  simp only [Run.ends_ok, handedIn_append, handedIn_of_plain follows.plain,
    List.append_nil]
  exact kept reader.core _ holds

theorem keeps_changes
    (invariant : ReadInvariant env me inv exit)
    {prog : CoreM Unit}
    {change : User → User}
    (changes : Changes prog me change)
    (negotiates : User.Negotiates change) :
    Keeps inv exit (onCore prog) :=
  keeps_onCore changes.runs fun _ _ holds =>
    invariant.negotiates negotiates holds

end ReadInvariant

theorem negotiates_id : User.Negotiates id := fun user =>
  ⟨user.termCols, user.termRows, user.termType, user.flagsTelnet, rfl, rfl⟩

/-- What a command changes is negotiated. -/
theorem TeloptCommand.settle_negotiates (env : Env) (command : TeloptCommand) :
    User.Negotiates (command.settle env) := by
  intro user
  cases command with
  | option command code =>
      simp only [settle, settleOption]
      split_ifs <;> exact ⟨_, _, _, _, rfl, rfl⟩
  | naws cols rows corrupt =>
      simp only [settle]
      split <;> exact ⟨_, _, _, _, rfl, rfl⟩
  | term termType => exact ⟨_, _, _, _, rfl, rfl⟩
  | corruptTerm => exact ⟨_, _, _, _, rfl, rfl⟩
  | ayt => exact negotiates_id user
  | iac => exact negotiates_id user
  | other => exact negotiates_id user

theorem gotTelopt_runs (env : Env) (me : Nat) (core : Core) :
    Runs (gotTelopt env me) core
      (.ok (), if (core.users me).flagsTelnet.due = true then
        core.setUser me User.noticed else core) :=
  Runs.user_bind (Runs.when fun _ =>
    Runs.update_bind (fun _ => rfl) (Runs.prompt env _ me))

namespace ReadInvariant

variable {env : Env} {me : Nat}
variable {inv : Core → List Handed → Prop}
variable {exit : Abort → Core → List Handed → Prop}

section Telopt

variable (invariant : ReadInvariant env me inv exit)
include invariant

theorem keeps_getTermsize : Keeps inv exit (getTermsize me) := by
  have zeroed : User.Negotiates fun user =>
      { user with termCols := 0, termRows := 0 } :=
    fun user => ⟨_, _, _, _, rfl, rfl⟩
  refine Prog.Preserves.get_bind fun reader => ?_
  apply Prog.Preserves.ite (.pure_intro _)
  refine .bind (invariant.keeps_changes
    (.update_intro fun _ => by rfl) zeroed) fun _ => ?_
  refine .bind (invariant.keeps_checked _) fun _ => ?_
  refine .bind (invariant.keeps_checked _) fun _ => ?_
  apply Prog.Preserves.ite (.pure_intro _)
  refine .bind (invariant.keeps_checked _) fun _ => ?_
  refine .bind (invariant.keeps_checked _) fun _ => ?_
  refine .bind (invariant.keeps_changes
    (.update_intro fun _ => by rfl) fun user => ⟨_, _, _, _, rfl, rfl⟩)
    fun _ => ?_
  refine .bind (invariant.keeps_checked _) fun _ => ?_
  refine .bind (invariant.keeps_checked _) fun _ => ?_
  refine .bind (invariant.keeps_checked _) fun _ => ?_
  refine .bind (invariant.keeps_checked _) fun _ => ?_
  refine .bind (invariant.keeps_changes
    (.update_intro fun _ => by rfl) fun user => ⟨_, _, _, _, rfl, rfl⟩)
    fun _ => ?_
  apply Prog.Preserves.ite (.pure_intro _)
  refine .bind (invariant.keeps_checked _) fun first => ?_
  refine .bind (invariant.keeps_checked _) fun second => ?_
  refine .bind (invariant.keeps_changes
    (.when (corruptSize_changes me)) ?_) fun _ => ?_
  · split
    · exact zeroed
    · exact negotiates_id
  refine .bind (invariant.keeps_changes (setTermsize_changes me _ _)
    fun user => ⟨_, _, _, _, rfl, rfl⟩) fun _ => .pure_intro _

theorem keeps_setTermtype (termType : Bytes) :
    Keeps inv exit (onCore (setTermtype env me termType)) :=
  invariant.keeps_changes (setTermtype_changes env me termType)
    (TeloptCommand.settle_negotiates env (.term termType))

theorem keeps_getTermtype : Keeps inv exit (getTermtype env me) := by
  refine Prog.Preserves.get_bind fun reader => ?_
  refine Prog.Preserves.ite (.pure_intro _) ?_
  refine .bind (invariant.keeps_checked _) fun sub => ?_
  refine Prog.Preserves.ite ?_ ?_
  · exact .bind (invariant.keeps_changes (corruptTermtype_changes env me)
      (TeloptCommand.settle_negotiates env .corruptTerm))
      fun _ => .pure_intro _
  refine .bind (invariant.keeps_checked _) fun i => ?_
  refine Prog.Preserves.ite (.pure_intro _) (Prog.Preserves.ite ?_ ?_)
  · exact .bind (invariant.keeps_setTermtype _) fun _ => .pure_intro _
  refine .bind (invariant.keeps_checked _) fun buff => ?_
  refine .bind (keeps_buffer fun buffer => { buffer with buff := buff })
    fun _ => ?_
  refine .bind (invariant.keeps_checked _) fun termType => ?_
  exact .bind (invariant.keeps_setTermtype _) fun _ => .pure_intro _

theorem keeps_act (command : TeloptCommand) :
    Keeps inv exit (onCore (command.act env me)) :=
  invariant.keeps_changes (act_changes env me command)
    (command.settle_negotiates env)

theorem keeps_teloptOption
    (buffer : TeloptBuffer)
    {act : UInt8 → CoreM Unit}
    (acts : ∀ code, Keeps inv exit (onCore (act code))) :
    Keeps inv exit (teloptOption buffer act) :=
  Prog.Preserves.ite (.pure_intro _)
    (.bind (invariant.keeps_checked _) fun code =>
      .bind (acts code) fun _ => .pure_intro _)

theorem keeps_teloptCommand (command : UInt8) :
    Keeps inv exit (teloptCommand env me command) := by
  have prints : ∀ text, Keeps inv exit (onCore (uPrintf me text)) :=
    fun text => invariant.keeps_changes (.uPrintf_intro text) negotiates_id
  refine Prog.Preserves.get_bind fun reader => ?_
  refine Prog.Preserves.ite ?_ (Prog.Preserves.ite ?_ (Prog.Preserves.ite ?_
    (Prog.Preserves.ite ?_ (Prog.Preserves.ite ?_ (Prog.Preserves.ite ?_
      (Prog.Preserves.ite ?_ (.pure_intro _)))))))
  · refine .bind (invariant.keeps_checked _) fun code => ?_
    refine Prog.Preserves.ite ?_ (Prog.Preserves.ite ?_ ?_)
    · exact .bind invariant.keeps_getTermsize fun _ => .pure_intro _
    · exact .bind invariant.keeps_getTermtype fun _ => .pure_intro _
    · exact .bind (prints _) fun _ => .pure_intro _
  · exact invariant.keeps_teloptOption _ fun code =>
      invariant.keeps_act (.option telcmdWILL code)
  · exact invariant.keeps_teloptOption _ fun code =>
      invariant.keeps_act (.option telcmdWONT code)
  · exact invariant.keeps_teloptOption _ fun code =>
      invariant.keeps_act (.option telcmdDO code)
  · exact invariant.keeps_teloptOption _ fun code =>
      invariant.keeps_act (.option telcmdDONT code)
  · exact .bind (prints _) fun _ => .pure_intro _
  · exact .bind (prints _) fun _ => .pure_intro _

omit invariant in
theorem keeps_finishPass (pending : Bytes) (shift : Option Int) :
    Keeps inv exit (finishPass me pending shift) := by
  cases shift with
  | none => exact .pure_intro _
  | some shift =>
      refine Prog.Preserves.get_bind fun reader => ?_
      exact .bind (keeps_buffer fun _ => reader.buffer.consume shift)
        fun _ => .bind (keeps_emit rfl) fun _ => .pure_intro _

theorem keeps_teloptPass (turn : Unit) :
    Keeps inv exit (teloptPass env me turn) := by
  refine Prog.Preserves.get_bind fun reader => ?_
  apply Prog.Preserves.ite (.pure_intro _)
  refine .bind (invariant.keeps_checked _) fun first => ?_
  apply Prog.Preserves.ite (.pure_intro _)
  refine .bind (keeps_emit rfl) fun _ => ?_
  apply Prog.Preserves.ite (.pure_intro _)
  refine .bind (invariant.keeps_checked _) fun command => ?_
  exact .bind (invariant.keeps_teloptCommand command) fun shift =>
    keeps_finishPass _ shift

theorem keeps_parseTelopt : Keeps inv exit (parseTelopt env me) := by
  refine Prog.Preserves.get_bind fun reader => ?_
  refine .bind (Prog.Preserves.loop invariant.keeps_teloptPass ?_ _ _)
    fun complete => Prog.Preserves.ite ?_ (.pure_intro _)
  · exact fun _ _ holds => invariant.faults (.inr (.inr rfl)) holds
  · refine .bind (keeps_onCore (gotTelopt_runs env me) ?_)
      fun _ => .pure_intro _
    intro core past holds
    split
    · rename_i due
      exact invariant.notices due holds
    · exact holds

end Telopt

section Bytes

variable (invariant : ReadInvariant env me inv exit)
include invariant

theorem keeps_ordinary (byte : UInt8) (rest : Bytes) :
    Keeps inv exit (onCore (ordinary env me byte rest)) := by
  intro reader past holds
  obtain ⟨before, after, ran, follows, followsLine⟩ :=
    run_ordinary env me byte rest reader.core
  have shown := @handedIn_ordinary me byte before after follows.plain
    followsLine.plain (handedOf me byte rest reader.core).toList
  have kept := @takes _ _ _ _ invariant byte rest reader.core _ holds
  rw [onCore, Prog.run_zoom, ran]
  generalize byteOutcome env me byte reader.core = outcome at kept ⊢
  obtain ⟨abort | value, reached⟩ := outcome
  · simpa only [Run.ends_error, handedIn_append, shown] using kept
  · simpa only [Run.ends_ok, handedIn_append, shown] using kept

theorem keeps_readByte (position : ReadPosition) :
    Keeps inv exit (readByte env me position) :=
  .bind (invariant.keeps_checked _) fun byte =>
    .bind (invariant.keeps_ordinary byte _) fun _ => .pure_intro _

theorem keeps_bufferRest (position : ReadPosition) :
    Keeps inv exit (bufferRest position) := by
  refine Prog.Preserves.get_bind fun reader => ?_
  refine .bind (invariant.keeps_checked _) fun rest => ?_
  exact .bind (invariant.keeps_checked _) fun buff =>
    keeps_buffer fun _ => ⟨buff, _⟩

theorem keeps_readPass (position : ReadPosition) :
    Keeps inv exit (readPass env me position) := by
  refine Prog.Preserves.ite ?_ (.pure_intro _)
  refine Prog.Preserves.get_bind fun reader => ?_
  refine .bind (invariant.keeps_checked _) fun byte => ?_
  refine Prog.Preserves.ite ?_ (invariant.keeps_readByte position)
  refine .bind (invariant.keeps_bufferRest position) fun _ => ?_
  refine .bind invariant.keeps_parseTelopt fun complete => ?_
  refine Prog.Preserves.ite ?_ (.pure_intro _)
  refine Prog.Preserves.get_bind fun reader => ?_
  apply Prog.Preserves.ite (.pure_intro _)
  refine .bind (invariant.keeps_checked _) fun input => ?_
  exact .bind (keeps_buffer fun buffer => { buffer with bpos := 0 })
    fun _ => invariant.keeps_readByte _

/-- The invariant survives a packet. -/
theorem uRead (data : Bytes) : Keeps inv exit (Common.uRead env me data) := by
  refine Prog.Preserves.get_bind fun reader => ?_
  refine .bind (keeps_emit rfl) fun _ => ?_
  exact Prog.Preserves.loop invariant.keeps_readPass
    (fun _ _ holds => invariant.faults (.inr (.inr rfl)) holds) _ _

end Bytes

end ReadInvariant

end Common
end Lotospp
