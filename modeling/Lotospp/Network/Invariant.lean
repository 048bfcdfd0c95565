import Lotospp.Network.Packets

/-!
# Invariants of the server

`ServerInvariant` lists what has to be checked for a property of the server
and of the lines handed over so far to hold in every state of a run, whatever
packets arrive and whatever connections come and go.  While a session reads a
packet, the property may know whose turn it is.  `PacketInvariant` leaves out
the requests to close a connection under a session.
-/

namespace Lotospp
namespace Network

open Text Effect Common Commands

/-- A line keeps a property, unless it has ended in a takeover; then the
property held just before, or another one holds after it. -/
def Kept
    (inv ended : Core → Prop)
    (me connection : Nat)
    (outcome : Except Abort Unit × Core) : Prop :=
  outcome.1 ≠ .error (.stage .swapped) ∧ inv outcome.2 ∨
    outcome.1 = .error (.stage .swapped) ∧
      Swapped inv ended me connection outcome.2

theorem Kept.imp
    {inv inv' ended ended' : Core → Prop}
    {me connection : Nat}
    {outcome : Except Abort Unit × Core}
    (kept : Kept inv ended me connection outcome)
    (weaker : ∀ reached, inv reached → inv' reached)
    (weakerEnded : ∀ reached, ended reached → ended' reached) :
    Kept inv' ended' me connection outcome := by
  rcases kept with ⟨notSwapped, after⟩ |
    ⟨isSwapped, before, other, session, found, holds, same⟩
  · exact .inl ⟨notSwapped, weaker _ after⟩
  · exact .inr ⟨isSwapped, before, other, session, found,
      holds.imp (weaker _) (weakerEnded _), same⟩

/-- A line of a session concerns that session only, or ends in its takeover. -/
theorem Session.concerns
    {env : Env}
    {me connection : Nat}
    {line : Bytes}
    {core : Core}
    {outcome : Except Abort Unit × Core}
    (session : Session core me connection)
    (effect : LineEffect env me line core outcome) :
    (outcome.1 ≠ .error (.stage .swapped) ∧ core.Local outcome.2 me) ∨
      ∃ before other, core.Local before me ∧ Session before me connection ∧
        before.findSession me = some other ∧
        outcome = (.error (.stage .swapped),
          before.takenOver me other connection) := by
  rcases effect.concerns with ⟨stays, stages⟩ |
    ⟨before, other, held, stays, ⟨obs, followed⟩, client, found, rfl⟩
  · refine .inl ⟨fun isSwapped => ?_, stays⟩
    exact absurd (stages _ isSwapped).1 (by simp)
  · have sessionBefore := session.near followed stays.toNear
    have same : held = connection :=
      Option.some.inj (client.symm.trans sessionBefore.client)
    subst same
    exact .inr ⟨before, other, stays, sessionBefore, found, rfl⟩

/-- A property that does not notice takeovers need only be checked after the
line. -/
theorem Kept.of_after
    {env : Env}
    {inv ended : Core → Prop}
    {me connection : Nat}
    {line : Bytes}
    {core : Core}
    {outcome : Except Abort Unit × Core}
    (session : Session core me connection)
    (effect : LineEffect env me line core outcome)
    (blind : ∀ before other, before.findSession me = some other →
      inv (before.takenOver me other connection) → inv before)
    (after : inv outcome.2) : Kept inv ended me connection outcome := by
  rcases session.concerns effect with ⟨notSwapped, -⟩ |
    ⟨before, other, -, sessionBefore, found, rfl⟩
  · exact .inl ⟨notSwapped, after⟩
  · exact .inr ⟨rfl, before, other, sessionBefore, found,
      .inl (blind before other found after), rfl⟩

/-- A property that survives whatever a line does to its own session. -/
theorem Kept.of_local
    {env : Env}
    {inv ended : Core → Prop}
    {me connection : Nat}
    {line : Bytes}
    {core : Core}
    {outcome : Except Abort Unit × Core}
    (session : Session core me connection)
    (effect : LineEffect env me line core outcome)
    (survives : ∀ reached, core.Local reached me → inv reached) :
    Kept inv ended me connection outcome := by
  rcases session.concerns effect with ⟨notSwapped, stays⟩ |
    ⟨before, other, stays, sessionBefore, found, rfl⟩
  · exact .inl ⟨notSwapped, survives _ stays⟩
  · exact .inr ⟨rfl, before, other, sessionBefore, found,
      .inl (survives before stays), rfl⟩

/-- A property that holds of a session that is logged in is kept when it
enters the command line or takes an old session over. -/
theorem Kept.connected
    {inv ended : Core → Prop}
    {me connection : Nat}
    {core : Core}
    (session : Session core me connection)
    (holds : inv core) :
    Kept inv ended me connection (connectOutcome me core) := by
  unfold connectOutcome
  split
  · exact .inl ⟨by simp, holds⟩
  · rename_i other found
    rw [session.client]
    exact .inr ⟨rfl, core, other, session, found, .inl holds, rfl⟩

/-- A property of the sessions, the lines handed over so far and whose turn it
is that survives everything that the server does, except that a connection is
closed under its session. -/
structure PacketInvariant
    (env : Env)
    (inv : Option Nat → Core → List Handed → Prop) : Prop where
  /-- It survives the end of sessions. -/
  shrinks : ∀ {core reached past}, Linked core → Tidies core reached →
    inv none core past → inv none reached past
  /-- It survives a new session. -/
  joins : ∀ {core past connection autoId autoID}, Linked core →
    (core.connections connection).state = .open →
    core.autoID.construct = some (autoId, autoID) → inv none core past →
    inv none (joined core connection autoId autoID) past
  /-- A session takes its turn. -/
  enters : ∀ {core past me connection}, Session core me connection →
    (core.connections connection).state = .open →
    inv none core past → inv (some me) core past
  /-- The turn of a session ends. -/
  leaves : ∀ {core past me}, inv (some me) core past → inv none core past
  /-- It survives telnet negotiation. -/
  negotiates : ∀ {core past me connection change},
    Session core me connection → User.Negotiates change →
    inv (some me) core past → inv (some me) (core.setUser me change) past
  /-- It survives the end of the negotiation. -/
  notices : ∀ {core past me connection}, Session core me connection →
    (core.users me).flagsTelnet.due = true → inv (some me) core past →
    inv (some me) (core.setUser me User.noticed) past
  /-- It survives the editing of a line. -/
  edits : ∀ {core reached past me connection}, Session core me connection →
    core.Edits reached me → inv (some me) core past →
    inv (some me) reached past
  /-- It survives a line. -/
  line : ∀ {core past me connection line rest outcome},
    Session core me connection → LineEffect env me line core outcome →
    inv (some me) core past →
    Kept
      (fun after => inv (some me) after (past ++
        [{ user := me, core := core, line := line, rest := rest }]))
      (fun after => inv none after (past ++
        [{ user := me, core := core, line := line, rest := rest }]))
      me connection outcome

/-- A property of the sessions, the lines handed over so far and whose turn it
is that survives every event. -/
structure EventInvariant
    (env : Env)
    (inv : Option Nat → Core → List Handed → Prop) : Prop
    extends PacketInvariant env inv where
  /-- It survives the request to close a connection. -/
  closes : ∀ {core past} connection, Linked core → inv none core past →
    inv none (core.closeConnection connection) past

/-- A property of the sessions, the lines handed over so far and whose turn it
is that survives everything that the server does. -/
structure ServerInvariant
    (env : Env)
    (inv : Option Nat → Core → List Handed → Prop) : Prop
    extends EventInvariant env inv where
  /-- It holds at the start. -/
  start : ∀ rows, inv none (World.start rows).server.core []

/-- A byte that completes no line throws no stage. -/
theorem byteOutcome_noStage
    {env : Env}
    {me : Nat}
    {byte : UInt8}
    {rest : Bytes}
    {core : Core}
    (noLine : handedOf me byte rest core = none)
    (stage : UserStage) :
    (byteOutcome env me byte core).1 ≠ .error (.stage stage) := by
  have faults : ∀ fault : Fault, Abort.ofFault fault ≠ .stage stage := by
    intro fault
    cases fault <;> simp [Abort.ofFault]
  rcases byteOutcome_noLine env noLine with same | ⟨fault, same⟩ | same
  · simp [same]
  · rw [same]
    simpa using faults fault
  · rw [same]
    unfold keyOutcome rubOutcome typedOutcome
    split
    · simp
    · split
      · simp only
        split
        · split
          · simpa using faults _
          · simp
        · simp
      · simp only
        split
        · simpa using faults _
        · split <;> simp

/-- What session code does to its session from one byte on. -/
theorem byteOutcome_follows
    (env : Env)
    (me : Nat)
    (byte : UInt8)
    (core : Core) :
    (∃ obs, Follows core obs (takenAt me byte core)) ∧
      ∃ obs, Follows (takenAt me byte core) obs
        (byteOutcome env me byte core).2 := by
  obtain ⟨before, after, -, follows, followsLine⟩ :=
    run_ordinary env me byte [] core
  exact ⟨⟨before, follows⟩, ⟨after, followsLine⟩⟩

/-- The state in which a line is handed over does not depend on what follows
the line. -/
theorem takenAt_of_handed
    {me : Nat}
    {byte : UInt8}
    {rest : Bytes}
    {core : Core}
    {handed : Handed}
    (complete : handedOf me byte rest core = some handed) :
    takenAt me byte core = handed.core := by
  obtain ⟨notNew, isCr, line, same⟩ := handedOf_eq_some_iff.mp complete
  have alone : handedOf me byte [] core = some { handed with rest := [] } :=
    handedOf_eq_some_iff.mpr ⟨notNew, isCr, line, by rw [same]⟩
  rw [takenAt, alone]
  rfl

namespace PacketInvariant

variable {env : Env} {inv : Option Nat → Core → List Handed → Prop}

section Reading

variable {me connection : Nat}

/-- The property is an invariant of a session that reads. -/
theorem reads
    (invariant : PacketInvariant env inv)
    (me connection : Nat) :
    ReadInvariant env me
      (fun core past => Session core me connection ∧ inv (some me) core past)
      (fun abort core past =>
        Left (fun core => inv (some me) core past)
          (fun core => inv none core past) me connection abort core) where
  negotiates := by
    rintro core past change changes ⟨session, holds⟩
    exact ⟨session.setUser changes.keeps,
      invariant.negotiates session changes holds⟩
  notices := by
    rintro core past due ⟨session, holds⟩
    exact ⟨session.setUser fun _ => by rfl,
      invariant.notices session due holds⟩
  faults := by
    rintro abort core past fault ⟨session, holds⟩
    refine .inl ⟨session, holds, ?_⟩
    rintro stage rfl
    rcases fault with fault | fault | fault <;> exact absurd fault (by simp)
  takes := by
    rintro byte rest core past ⟨session, holds⟩
    cases complete : handedOf me byte rest core with
    | none =>
        have edits := byteOutcome_edits env complete
        have sessionAfter := session.edits edits
        have holdsAfter := invariant.edits session edits holds
        have noStage := @byteOutcome_noStage env me byte rest core complete
        simp only [Option.toList_none, List.append_nil]
        generalize byteOutcome env me byte core = outcome at *
        obtain ⟨abort | value, reached⟩ := outcome
        · exact .inl ⟨sessionAfter, holdsAfter,
            fun stage same => absurd (congrArg Except.error same)
              (noStage stage)⟩
        · exact ⟨sessionAfter, holdsAfter⟩
    | some handed =>
        obtain ⟨-, line, eq, outcome_eq⟩ := byteOutcome_line env complete
        obtain ⟨-, obs, follows⟩ := byteOutcome_follows env me byte core
        rw [takenAt_of_handed complete, outcome_eq] at follows
        have edits := Core.edits_ended line
        have core_eq : handed.core = core.ended me handed.line :=
          congrArg Handed.core eq
        have sessionAt := session.edits edits
        have effect := lineOutcome_effect env me handed.line handed.core
        rw [← core_eq] at sessionAt edits
        have kept : Kept
            (fun after => inv (some me) after (past ++
              [{ user := me, core := handed.core
                 line := handed.line, rest := rest }]))
            (fun after => inv none after (past ++
              [{ user := me, core := handed.core
                 line := handed.line, rest := rest }]))
            me connection (lineOutcome env me handed.line handed.core) :=
          invariant.line sessionAt effect (invariant.edits session edits holds)
        have ends := sessionAt.line effect follows
        rw [outcome_eq]
        have record : ({ user := me, core := handed.core
                         line := handed.line, rest := rest } : Handed) =
            handed := by
          rw [core_eq]
          exact eq.symm
        rw [record] at kept
        simp only [Option.toList_some]
        generalize lineOutcome env me handed.line handed.core = outcome at *
        obtain ⟨abort | value, reached⟩ := outcome
        · rcases kept with ⟨notSwapped, holdsAfter⟩ | ⟨isSwapped, taken⟩
          · rcases ends with ⟨sessionAfter, stages⟩ | ⟨isSwapped, -⟩
            · refine .inl ⟨sessionAfter, holdsAfter, ?_⟩
              rintro stage rfl
              exact stages stage rfl
            · exact absurd isSwapped notSwapped
          · simp only [Except.error.injEq] at isSwapped
            exact .inr ⟨isSwapped, taken⟩
        · rcases kept with ⟨-, holdsAfter⟩ | ⟨isSwapped, -⟩
          · rcases ends with ⟨sessionAfter, -⟩ | ⟨isSwapped, -⟩
            · exact ⟨sessionAfter, holdsAfter⟩
            · exact absurd isSwapped (by simp)
          · exact absurd isSwapped (by simp)

end Reading

/-! ## Events -/

/-- The pointers are in order and the property holds, with nobody's turn. -/
def Holds
    (inv : Option Nat → Core → List Handed → Prop)
    (server : Server)
    (past : List Obs) : Prop :=
  Linked server.core ∧ inv none server.core (handedIn past)

/-- The property is one of the server and its trace. -/
theorem traces (invariant : PacketInvariant env inv) :
    TraceInvariant env
      fun server past => inv none server.core (handedIn past) where
  shrinks _ _ _ := invariant.shrinks
  joins _ _ _ _ _ := invariant.joins
  shows obs plain holds := by
    rw [handedIn_append, handedIn_of_plain plain, List.append_nil]
    exact holds
  reads := by
    intro server past me connection data session isOpen nonempty holds
    have read := (invariant.reads me connection).uRead data
      ⟨server.core, server.buffers me⟩ past
      ⟨session, invariant.enters session isOpen holds⟩
    refine read.mono (fun _ reader past after =>
      ⟨after.1.linked, invariant.leaves after.2⟩) fun abort reader past left => ?_
    rcases left with ⟨sessionAfter, after, stages⟩ |
      ⟨isSwapped, before, other, sessionBefore, found, after, same⟩
    · exact .inl ⟨sessionAfter, invariant.leaves after, stages⟩
    · exact .inr ⟨isSwapped, before, other, sessionBefore, found,
        after.imp_left invariant.leaves, same⟩

/-- A property that survives all events but these holds in every state of a
run without them. -/
theorem after
    (invariant : PacketInvariant env inv)
    {world : World}
    {events : List Event}
    (attached : world.Attached env events)
    (start : Holds inv world.server world.trace) :
    Holds inv (events.foldl (World.step env) world).server
      (events.foldl (World.step env) world).trace :=
  invariant.traces.after_attached attached start

end PacketInvariant

/-- A property that holds at the start holds in every state of a run. -/
theorem EventInvariant.after
    {env : Env}
    {inv : Option Nat → Core → List Handed → Prop}
    (invariant : EventInvariant env inv)
    {rows : List Database.Row}
    (start : inv none (World.start rows).server.core [])
    (events : List Event) :
    PacketInvariant.Holds inv (World.after env rows events).server
      (World.after env rows events).trace := by
  have closes : SurvivesClosing
      fun server past => inv none server.core (handedIn past) :=
    fun _ _ connection linked holds =>
      invariant.closes connection linked holds
  exact invariant.traces.after closes start events

/-- A property that holds in one state holds in every state that follows. -/
theorem EventInvariant.onwards
    {env : Env}
    {inv : Option Nat → Core → List Handed → Prop}
    (invariant : EventInvariant env inv)
    {world : World}
    (holds : PacketInvariant.Holds inv world.server world.trace)
    (more : List Event) :
    PacketInvariant.Holds inv (more.foldl (World.step env) world).server
      (more.foldl (World.step env) world).trace := by
  have closes : SurvivesClosing
      fun server past => inv none server.core (handedIn past) :=
    fun _ _ connection linked holds =>
      invariant.closes connection linked holds
  induction more generalizing world with
  | nil => exact holds
  | cons event more inductionHypothesis =>
      exact inductionHypothesis (invariant.traces.steps_all closes event holds)

/-- The property holds in every state of a run. -/
theorem ServerInvariant.after
    {env : Env}
    {inv : Option Nat → Core → List Handed → Prop}
    (invariant : ServerInvariant env inv)
    (rows : List Database.Row)
    (events : List Event) :
    PacketInvariant.Holds inv (World.after env rows events).server
      (World.after env rows events).trace :=
  invariant.toEventInvariant.after (invariant.start rows) events

/-- The pointers are in order in every state of a run, whatever the lines
are. -/
theorem linked_invariant (env : Env) : ServerInvariant env fun _ _ _ => True where
  start _ := trivial
  closes _ _ _ := trivial
  shrinks _ _ _ := trivial
  joins _ _ _ _ := trivial
  enters _ _ _ := trivial
  leaves _ := trivial
  negotiates _ _ _ := trivial
  notices _ _ _ := trivial
  edits _ _ _ := trivial
  line session effect _ :=
    .of_after session effect (fun _ _ _ _ => trivial) trivial

/-- The pointers are in order in every state of a run. -/
theorem linked_after
    (env : Env)
    (rows : List Database.Row)
    (events : List Event) :
    Linked (World.after env rows events).server.core :=
  ((linked_invariant env).after rows events).1

/-! ## Lines -/

/-- Whenever a line was handed over, the session was in order and the property
held of the lines before. -/
def Recorded
    (inv : Option Nat → Core → List Handed → Prop)
    (past : List Handed) : Prop :=
  ∀ before handed after, past = before ++ handed :: after →
    (∃ connection, Session handed.core handed.user connection) ∧
      inv (some handed.user) handed.core before

theorem Recorded.append
    {inv : Option Nat → Core → List Handed → Prop}
    {past : List Handed}
    {last : Handed}
    (recorded : Recorded inv past)
    (session : ∃ connection, Session last.core last.user connection)
    (holds : inv (some last.user) last.core past) :
    Recorded inv (past ++ [last]) := by
  intro before handed after split
  rcases after.eq_nil_or_concat with rfl | ⟨rest, final, rfl⟩
  · obtain ⟨rfl, same⟩ := List.append_inj' split rfl
    cases same
    exact ⟨session, holds⟩
  · rw [List.concat_eq_append, ← List.cons_append, ← List.append_assoc] at split
    obtain ⟨same, -⟩ := List.append_inj' split rfl
    exact recorded before handed rest same

section Lines

variable {env : Env} {inv : Option Nat → Core → List Handed → Prop}

theorem PacketInvariant.recorded
    (invariant : PacketInvariant env inv) :
    PacketInvariant env fun turn core past =>
      inv turn core past ∧ Recorded inv past where
  shrinks linked tidies holds :=
    ⟨invariant.shrinks linked tidies holds.1, holds.2⟩
  joins linked isOpen constructed holds :=
    ⟨invariant.joins linked isOpen constructed holds.1, holds.2⟩
  enters session isOpen holds :=
    ⟨invariant.enters session isOpen holds.1, holds.2⟩
  leaves holds := ⟨invariant.leaves holds.1, holds.2⟩
  negotiates session changes holds :=
    ⟨invariant.negotiates session changes holds.1, holds.2⟩
  notices session due holds :=
    ⟨invariant.notices session due holds.1, holds.2⟩
  edits session edits holds :=
    ⟨invariant.edits session edits holds.1, holds.2⟩
  line := by
    intro core past me connection line rest outcome session effect holds
    have recorded : Recorded inv (past ++
        [{ user := me, core := core, line := line, rest := rest }]) :=
      holds.2.append ⟨connection, session⟩ holds.1
    apply (invariant.line session effect holds.1).imp
    · exact fun reached after => ⟨after, recorded⟩
    · exact fun reached after => ⟨after, recorded⟩

theorem EventInvariant.recorded
    (invariant : EventInvariant env inv) :
    EventInvariant env fun turn core past =>
      inv turn core past ∧ Recorded inv past where
  __ := invariant.toPacketInvariant.recorded
  closes connection linked holds :=
    ⟨invariant.closes connection linked holds.1, holds.2⟩

/-- At the start no line has been handed over. -/
theorem Recorded.nil : Recorded inv [] := by
  intro before handed after split
  simp at split

/-- A property that always holds has held at every line. -/
theorem ServerInvariant.recorded
    (invariant : ServerInvariant env inv) :
    ServerInvariant env fun turn core past =>
      inv turn core past ∧ Recorded inv past where
  __ := invariant.toEventInvariant.recorded
  start rows := ⟨invariant.start rows, .nil⟩

end Lines

end Network
end Lotospp
