import Lotospp.Common.ReadTokens

/-!
# Pending bytes

The bytes that a session has received are those it has interpreted and, behind
them, the pending bytes `buff[0..bpos)`: no byte is lost or read twice, unless
a terminal type cuts off what follows it or a packet fills its buffer.
-/

namespace Lotospp
namespace Common

open Text Effect

/-- A session is given packets one after the other, until it throws. -/
def feed (env : Env) (me : Nat) (packets : List Bytes) : ReadM Unit :=
  Prog.forEach packets fun data => uRead env me data

/-- The bytes that a session has been given. -/
def received (obs : List Obs) : Bytes :=
  obs.flatMap fun observation =>
    match observation with
    | .packet _ _ data => data
    | _ => []

/-- The bytes that a session has interpreted, as text or as commands. -/
def interpreted (obs : List Obs) : Bytes :=
  obs.flatMap fun observation =>
    match observation with
    | .text _ byte => [byte]
    | .consumed _ pending count _ => pending.take count.toNat
    | _ => []

/-- The pending bytes are in the buffer, and are what has been received and
not interpreted. -/
structure Accounted (past : List Obs) (buffer : TeloptBuffer) : Prop where
  /-- The pending bytes are in the buffer. -/
  inside : buffer.bpos ≤ buffer.buff.length
  /-- They are the rest of what has been received. -/
  rest : received past = interpreted past ++ buffer.pending

/-- Whenever a command is consumed, the pending bytes are those that follow
it. -/
def ConsumesExactly (past : List Obs) : Prop :=
  ∀ before me pending count buffer after,
    past = before ++ .consumed me pending count buffer :: after →
    0 ≤ count ∧ count ≤ pending.length ∧
      buffer.pending = pending.drop count.toNat ∧
      Accounted (before ++ [.consumed me pending count buffer]) buffer

/-- A packet is not too long to be read and counted, and a terminal type does
not cut off what follows it. -/
def Obs.Tame : Obs → Prop
  | .packet _ pending data =>
      data.length < maxSize ∧ pending.length + data.length < 2 ^ 31
  | .telopt _ pending => ∀ found ∈ decodeCommand pending,
      ¬ Truncates pending found.1 found.2
  | _ => True

instance : (observation : Obs) → Decidable observation.Tame
  | .packet _ pending data =>
      inferInstanceAs (Decidable (data.length < maxSize ∧
        pending.length + data.length < 2 ^ 31))
  | .telopt _ pending =>
      inferInstanceAs (Decidable (∀ found ∈ decodeCommand pending,
        ¬ Truncates pending found.1 found.2))
  | .wrote _ _ => .isTrue trivial
  | .nullConnection _ => .isTrue trivial
  | .dangling _ => .isTrue trivial
  | .text _ _ => .isTrue trivial
  | .consumed _ _ _ _ => .isTrue trivial
  | .handed _ => .isTrue trivial
  | .kicked _ => .isTrue trivial
  | .draw _ => .isTrue trivial

/-- Every observation is tame. -/
def TamePast (past : List Obs) : Prop :=
  ∀ observation ∈ past, observation.Tame

instance (past : List Obs) : Decidable (TamePast past) :=
  inferInstanceAs (Decidable (∀ observation ∈ past, observation.Tame))

@[simp] theorem received_append (obs more : List Obs) :
    received (obs ++ more) = received obs ++ received more :=
  List.flatMap_append

@[simp] theorem interpreted_append (obs more : List Obs) :
    interpreted (obs ++ more) = interpreted obs ++ interpreted more :=
  List.flatMap_append

theorem tamePast_append (past more : List Obs) :
    TamePast (past ++ more) ↔ TamePast past ∧ TamePast more :=
  List.forall_mem_append

/-! ## Observations that take no bytes -/

/-- The observations are neither packets nor bytes nor consumed commands. -/
def Silent (obs : List Obs) : Prop :=
  ∀ observation ∈ obs, received [observation] = [] ∧
    interpreted [observation] = [] ∧
      ∀ me pending count buffer,
        observation ≠ .consumed me pending count buffer

theorem silent_of_plain
    {obs : List Obs}
    (plain : ∀ observation ∈ obs, observation.Plain) : Silent obs := by
  intro observation shown
  have isPlain := plain observation shown
  cases observation <;>
    first
      | exact ⟨rfl, rfl, by simp⟩
      | exact isPlain.elim

theorem silent_handed (lines : List Handed) :
    Silent (lines.map .handed) := by
  intro observation shown
  obtain ⟨line, -, rfl⟩ := List.mem_map.mp shown
  exact ⟨rfl, rfl, by simp⟩

theorem silent_append {obs more : List Obs} :
    Silent (obs ++ more) ↔ Silent obs ∧ Silent more :=
  List.forall_mem_append

/-- Behind an ordinary byte nothing is received or interpreted. -/
theorem run_ordinary_silent
    (env : Env)
    (me : Nat)
    (byte : UInt8)
    (rest : Bytes)
    (core : Core) :
    ∃ obs,
      (ordinary env me byte rest).run core =
        ⟨(byteOutcome env me byte core).1, (byteOutcome env me byte core).2,
          .text me byte :: obs⟩ ∧
        Silent obs := by
  obtain ⟨before, after, ran, follows, followsLine⟩ :=
    run_ordinary env me byte rest core
  refine ⟨_, ran, silent_append.mpr ⟨silent_append.mpr ⟨?_, ?_⟩, ?_⟩⟩
  · exact silent_of_plain follows.plain
  · exact silent_handed _
  · exact silent_of_plain followsLine.plain

theorem received_silent {obs : List Obs} (silent : Silent obs) :
    received obs = [] := by
  rw [received, List.flatMap_eq_nil_iff]
  intro observation shown
  simpa [received] using (silent observation shown).1

theorem interpreted_silent {obs : List Obs} (silent : Silent obs) :
    interpreted obs = [] := by
  rw [interpreted, List.flatMap_eq_nil_iff]
  intro observation shown
  simpa [interpreted] using (silent observation shown).2.1

namespace ConsumesExactly

/-- Other observations may follow. -/
theorem append
    {past more : List Obs}
    (exactly : ConsumesExactly past)
    (other : ∀ me pending count buffer,
      .consumed me pending count buffer ∉ more) :
    ConsumesExactly (past ++ more) := by
  intro before me pending count buffer after split
  rcases List.append_eq_append_iff.mp split with
    ⟨between, -, inMore⟩ | ⟨between, inPast, rest⟩
  · refine absurd ?_ (other me pending count buffer)
    rw [inMore]
    simp
  · cases between with
    | nil =>
        refine absurd ?_ (other me pending count buffer)
        rw [← List.nil_append more, ← rest]
        simp
    | cons first between =>
        simp only [List.cons_append, List.cons.injEq] at rest
        rw [← rest.1] at inPast
        exact exactly before me pending count buffer between inPast

theorem append_silent
    {past more : List Obs}
    (exactly : ConsumesExactly past)
    (silent : Silent more) : ConsumesExactly (past ++ more) :=
  exactly.append fun me pending count buffer shown =>
    (silent _ shown).2.2 me pending count buffer rfl

/-- A command is consumed. -/
theorem consume
    {past : List Obs}
    {me : Nat}
    {pending : Bytes}
    {size : Nat}
    {buffer : TeloptBuffer}
    (exactly : ConsumesExactly past)
    (inside : size ≤ pending.length)
    (left : buffer.pending = pending.drop size)
    (fits : buffer.bpos ≤ buffer.buff.length)
    (accounted : received past = interpreted past ++ pending) :
    ConsumesExactly (past ++ [.consumed me pending size buffer]) := by
  intro before user bytes count kept after split
  rcases List.eq_nil_or_concat after with rfl | ⟨most, last, rfl⟩
  · obtain ⟨rfl, same⟩ := List.append_inj' split rfl
    simp only [List.cons.injEq, Obs.consumed.injEq, and_true] at same
    obtain ⟨rfl, rfl, rfl, rfl⟩ := same
    refine ⟨by omega, by omega, by simpa using left, fits, ?_⟩
    rw [received_append, interpreted_append, accounted, left]
    simp [received, interpreted]
  · rw [List.concat_eq_append] at split
    have earlier : past ++ [.consumed me pending size buffer] =
        (before ++ .consumed user bytes count kept :: most) ++ [last] := by
      simpa using split
    exact exactly before user bytes count kept most
      (List.append_inj' earlier rfl).1

end ConsumesExactly

/-! ## Reading packets -/

/-- What holds of the text still to be read. -/
def Intact (todo : Bytes) (past : List Obs) : Prop :=
  TamePast past →
    received past = interpreted past ++ todo ∧ ConsumesExactly past

theorem intact_silent
    {todo : Bytes}
    {past more : List Obs}
    (intact : Intact todo past)
    (silent : Silent more) : Intact todo (past ++ more) := by
  intro tame
  obtain ⟨accounted, exactly⟩ := intact ((tamePast_append ..).mp tame).1
  refine ⟨?_, exactly.append_silent silent⟩
  rw [received_append, interpreted_append, received_silent silent,
    interpreted_silent silent, accounted]
  simp

/-- A command that is consumed takes its bytes off the text. -/
theorem intact_consumed
    {todo : Bytes}
    {past : List Obs}
    (me : Nat)
    {size : Nat}
    {buffer : TeloptBuffer}
    (intact : Intact todo past)
    (inside : size ≤ todo.length)
    (left : buffer.pending = todo.drop size)
    (fits : buffer.bpos ≤ buffer.buff.length) :
    Intact (todo.drop size) (past ++ [.consumed me todo size buffer]) := by
  intro tame
  obtain ⟨accounted, exactly⟩ := intact ((tamePast_append ..).mp tame).1
  refine ⟨?_, exactly.consume inside left fits accounted⟩
  rw [received_append, interpreted_append, accounted]
  simp [received, interpreted]

/-- Passes that consume nothing take no bytes. -/
theorem intact_idle
    {me : Nat}
    {todo : Bytes}
    {obs : List Obs}
    (idle : Idle me todo obs)
    {past : List Obs}
    (intact : Intact todo past) : Intact todo (past ++ obs) := by
  induction obs generalizing past with
  | nil => simpa using intact
  | cons first rest inductionHypothesis =>
      obtain ⟨idleFirst, idleRest⟩ := List.forall_mem_cons.mp idle
      have turn : Intact todo (past ++ [first]) := by
        rcases idleFirst with plain | rfl | ⟨buffer, pending, fits, rfl⟩
        · exact intact_silent intact
            (silent_of_plain (List.forall_mem_singleton.mpr plain))
        · exact intact_silent intact
            (List.forall_mem_singleton.mpr ⟨rfl, rfl, by simp⟩)
        · simpa using intact_consumed me intact (Nat.zero_le _)
            (by simpa using pending) fits
      simpa using inductionHypothesis idleRest turn

/-- The bytes are accounted for token by token. -/
theorem intact_rule (env : Env) (me : Nat) :
    ReadRule env me (fun todo _ => Intact todo) (fun todo _ => Intact todo)
      (fun _ past => ¬ TamePast past)
      (fun pending _ => Intact pending)
      (fun _ _ _ past => TamePast past → ConsumesExactly past) where
  text := by
    intro byte rest core past isText intact
    obtain ⟨obs, ran, silent⟩ := run_ordinary_silent env me byte rest core
    have read : Intact rest (past ++ [.text me byte]) := by
      intro tame
      obtain ⟨accounted, exactly⟩ := intact ((tamePast_append ..).mp tame).1
      refine ⟨?_, exactly.append (by simp)⟩
      rw [received_append, interpreted_append, accounted]
      simp [received, interpreted]
    have whole := intact_silent read silent
    rw [List.append_assoc, List.singleton_append] at whole
    rw [ran]
    cases (byteOutcome env me byte core).1 with
    | error abort => exact fun tame => (whole tame).2
    | ok value => exact whole
  enter := fun intact => intact
  leave := fun _ _ intact => intact
  command := by
    intro todo core past command size head decoded _ intact obs after follows
      left fits tame
    have bounds := decodeCommand_size decoded
    have found : Intact todo (past ++ .telopt me todo :: obs) := by
      apply intact_silent intact
      refine List.forall_mem_cons.mpr ⟨⟨rfl, rfl, by simp⟩, ?_⟩
      exact silent_of_plain follows.plain
    have consumed := intact_consumed me found bounds.2 left fits
    rw [List.append_assoc, List.cons_append] at consumed
    exact consumed tame
  notice := by
    intro todo core past _ _ intact obs follows
    exact intact_silent intact (silent_of_plain follows.plain)
  incomplete := by
    intro core past buffer _ _ _ intact
    exact intact_silent intact
      (List.forall_mem_singleton.mpr ⟨rfl, rfl, by simp⟩)
  done := fun intact => intact
  stuck := by
    intro todo core past _ intact
    have found : Silent [.telopt me todo] :=
      List.forall_mem_singleton.mpr ⟨rfl, rfl, by simp⟩
    refine ⟨intact_silent intact found, fun obs idle tame => ?_⟩
    have whole := intact_idle idle (intact_silent intact found)
    rw [List.append_assoc, List.singleton_append] at whole
    exact (whole tame).2
  cut := by
    intro todo core past command size _ decoded cuts _ obs _ tame
    have isTame := tame (.telopt me todo) (by simp)
    exact isTame (command, size) decoded cuts
  noticeLost := by
    intro core past _ wild obs _ tame
    exact wild ((tamePast_append ..).mp tame).1
  endLost := by
    intro core past wild
    exact ⟨fun tame => absurd ((tamePast_append ..).mp tame).1 wild,
      fun tame => absurd ((tamePast_append ..).mp tame).1 wild⟩

/-- The state of a session between two packets. -/
def Settled (reader : Reader) (past : List Obs) : Prop :=
  TamePast past → Accounted past reader.buffer ∧ ConsumesExactly past ∧
    reader.buffer.bpos < 2 ^ 31

/-- A packet keeps the bytes accounted for. -/
theorem uRead_settled
    (env : Env)
    (me : Nat)
    (data : Bytes) :
    Prog.Preserves Settled
      (fun _ _ past => TamePast past → ConsumesExactly past)
      (uRead env me data) := by
  intro reader past settled
  have given : TamePast past → Intact (reader.buffer.pending ++ data)
      (past ++ [.packet me reader.buffer.pending data]) := by
    intro tame _
    obtain ⟨accounted, exactly, -⟩ := settled tame
    refine ⟨?_, exactly.append (by simp)⟩
    rw [received_append, interpreted_append, accounted.rest]
    simp [received, interpreted]
  refine ((intact_rule env me).uRead_while TamePast ?_ ?_ ?_ given ?_ ?_).mono
    ?_ ?_
  · exact fun tame => ((tamePast_append ..).mp tame).1
  · exact fun tame =>
      ((tamePast_append ..).mp tame).2 _ (List.mem_singleton_self _)
  · intro tame
    obtain ⟨accounted, -, small⟩ := settled tame
    exact ⟨accounted.inside, small⟩
  · intro tame none
    simpa [none] using given tame
  · rintro tame rfl
    simpa using given tame
  · rintro _ reader past ends tame
    obtain ⟨intact, fits⟩ := ends tame
    obtain ⟨rest, exactly⟩ := intact tame
    exact ⟨⟨fits.inside, rest⟩, exactly, fits.small⟩
  · exact fun _ _ _ ended tame => ended tame tame

/-- In every run over any packets, in which no packet is too long and no
terminal type cuts off what follows it, the pending bytes are at any time
those that have been received and not interpreted. -/
theorem feed_accounted
    (env : Env)
    (me : Nat)
    (core : Core)
    (packets : List Bytes)
    (tame : TamePast ((feed env me packets).run ⟨core, {}⟩).obs) :
    ConsumesExactly ((feed env me packets).run ⟨core, {}⟩).obs ∧
      (((feed env me packets).run ⟨core, {}⟩).val = .ok () →
        Accounted ((feed env me packets).run ⟨core, {}⟩).obs
          ((feed env me packets).run ⟨core, {}⟩).state.buffer) := by
  have start : Settled ⟨core, {}⟩ [] := fun _ =>
    ⟨⟨Nat.le_refl _, rfl⟩, by simp [ConsumesExactly], Nat.two_pow_pos 31⟩
  have ends : Prog.Spec Settled (feed env me packets) (fun _ => Settled)
      (fun _ _ past => TamePast past → ConsumesExactly past) :=
    Prog.Spec.forEach fun data _ => uRead_settled env me data
  have outcome := ends ⟨core, {}⟩ [] start
  generalize (feed env me packets).run ⟨core, {}⟩ = ran at outcome tame ⊢
  obtain ⟨abort | value, reader, obs⟩ := ran
  · exact ⟨outcome tame, fun returned => absurd returned (by simp)⟩
  · obtain ⟨accounted, exactly, -⟩ := outcome tame
    exact ⟨exactly, fun _ => accounted⟩

/-- A size and a text in two packets, cut within the size. -/
theorem feed_accounted_cutSize :
    let run := (feed (Env.testing []) 0
      [[255, 250, 31, 0, 80], [0, 24, 255, 240, 97, 98]]).run ⟨{}, {}⟩
    ConsumesExactly run.obs ∧
      (run.val = .ok () → Accounted run.obs run.state.buffer) :=
  feed_accounted (Env.testing []) 0 {} _ (by decide +kernel)

/-- A terminal type loses the byte that follows it. -/
theorem byteBehindType_lost :
    ¬ ∀ (env : Env) (me : Nat) (core : Core) (packets : List Bytes),
      (∀ data ∈ packets, data ≠ [] ∧ data.length < maxSize) →
      ConsumesExactly ((feed env me packets).run ⟨core, {}⟩).obs ∧
        (((feed env me packets).run ⟨core, {}⟩).val = .ok () →
          Accounted ((feed env me packets).run ⟨core, {}⟩).obs
            ((feed env me packets).run ⟨core, {}⟩).state.buffer) := by
  intro always
  have accounted := (always (Env.testing []) 0 {}
    [[255, 250, 24, 0, 120, 255, 240, 97]] (by decide)).2 (by decide +kernel)
  exact absurd accounted.rest (by decide +kernel)

end Common
end Lotospp
