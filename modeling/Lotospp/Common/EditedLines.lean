import Lotospp.Common.LineEffect
import Lotospp.Common.PendingBytes

/-!
# Edited lines

A line is typed in place over the remains of earlier lines, in one of two
buffers and up to a position that may lie before their end.  The lines that
are handed over are those of an editor that only keeps the bytes of the line.
-/

namespace Lotospp
namespace Common

open Text Effect Commands

/-! ## The editor -/

/-- What is kept of a line after a key. -/
def editKey (kept : Bytes) (byte : UInt8) : Bytes :=
  if byte = 0 ∨ byte = lf then kept
  else if byte = asciiBS ∨ byte = asciiDEL then kept.dropLast
  else kept ++ [byte]

/-- The lines that carriage returns complete; the first one goes on from what
has been kept. -/
def editedLines (kept : Bytes) : Bytes → List Bytes
  | [] => []
  | byte :: rest =>
      if byte = cr then kept :: editedLines [] rest
      else editedLines (editKey kept byte) rest

/-- What is kept of the line behind the last carriage return. -/
def keptAfter (kept : Bytes) : Bytes → Bytes
  | [] => kept
  | byte :: rest =>
      if byte = cr then keptAfter [] rest
      else keptAfter (editKey kept byte) rest

/-- A line is the edit of the bytes between two carriage returns. -/
theorem editedLines_splitOn
    (kept : Bytes)
    {bytes first : Bytes}
    {others : List Bytes}
    (split : bytes.splitOn cr = first :: others) :
    editedLines kept bytes =
      (first.foldl editKey kept ::
        others.map (List.foldl editKey [])).dropLast := by
  induction bytes generalizing kept first others with
  | nil =>
      rw [List.splitOn_nil, List.cons.injEq] at split
      obtain ⟨rfl, rfl⟩ := split
      rfl
  | cons byte rest inductionHypothesis =>
      obtain ⟨next, later, parts⟩ :=
        List.exists_cons_of_ne_nil (List.splitOn_ne_nil cr rest)
      rw [List.splitOn_cons_eq_if_modifyHead, parts] at split
      by_cases isCr : byte = cr
      · simp only [isCr, beq_self_eq_true, if_true, List.cons.injEq] at split
        obtain ⟨rfl, rfl⟩ := split
        simp [editedLines, isCr, inductionHypothesis [] parts]
      · simp only [beq_eq_false_iff_ne.mpr isCr, Bool.false_eq_true, if_false,
          List.modifyHead_cons, List.cons.injEq] at split
        obtain ⟨rfl, rfl⟩ := split
        simp only [editedLines, isCr, if_false]
        exact inductionHypothesis _ parts

theorem editedLines_append (kept : Bytes) (bytes more : Bytes) :
    editedLines kept (bytes ++ more) =
      editedLines kept bytes ++ editedLines (keptAfter kept bytes) more := by
  induction bytes generalizing kept with
  | nil => rfl
  | cons byte rest inductionHypothesis =>
      simp only [List.cons_append, editedLines, keptAfter]
      split
      · rw [inductionHypothesis, List.cons_append]
      · exact inductionHypothesis _

theorem keptAfter_append (kept : Bytes) (bytes more : Bytes) :
    keptAfter kept (bytes ++ more) = keptAfter (keptAfter kept bytes) more := by
  induction bytes generalizing kept with
  | nil => rfl
  | cons byte rest inductionHypothesis =>
      simp only [List.cons_append, keptAfter]
      split
      · exact inductionHypothesis _
      · exact inductionHypothesis _

/-! ## The line of a user -/

/-- What is kept of the line of a user. -/
def User.kept (user : User) : Bytes :=
  user.text.take user.tbpos

theorem User.text_place (user : User) (text : Bytes) (tbpos : Nat) :
    ({ user.setText text with tbpos := tbpos } : User).text = text := by
  simp [User.text, User.setText]

/-- The position is in the line. -/
def User.Inside (user : User) : Prop :=
  user.tbpos ≤ user.text.length

instance (user : User) : Decidable user.Inside :=
  inferInstanceAs (Decidable (_ ≤ _))

theorem User.length_kept {user : User} (inside : user.Inside) :
    user.kept.length = user.tbpos :=
  List.length_take_of_le inside

/-- A complete line is what has been kept. -/
theorem User.line_eq {user : User} (inside : user.Inside) :
    user.line = .ok user.kept :=
  eraseFrom_of_le inside

/-- What a key does to the line of its user. -/
theorem keyOutcome_kept
    {me : Nat}
    {core : Core}
    (inside : (core.users me).Inside)
    (byte : UInt8) :
    ((keyOutcome me byte core).1 = .ok () ∧
        ((keyOutcome me byte core).2.users me).Inside ∧
        ((keyOutcome me byte core).2.users me).kept =
          editKey (core.users me).kept byte) ∨
      ((keyOutcome me byte core).1 = .error .undefined ∧
        2 ^ 31 ≤ ((keyOutcome me byte core).2.users me).tbpos + 1 ∧
        2 ^ 31 ≤ (editKey (core.users me).kept byte).length) := by
  have length := User.length_kept inside
  have room : (core.users me).tbpos ≤ (core.users me).text.length := inside
  unfold keyOutcome editKey
  split
  · exact .inl ⟨rfl, inside, rfl⟩
  · split
    · unfold rubOutcome
      simp only
      split
      · rename_i positive
        rw [eraseFrom_of_le (by omega)]
        refine .inl ⟨rfl, ?_, ?_⟩
        · rw [Core.users_setUser_self, User.Inside, User.text_place,
            List.length_take_of_le (by omega)]
        · have shorter : (core.users me).kept.length - 1 ≤
              (core.users me).tbpos := by
            omega
          rw [Core.users_setUser_self, User.kept, User.text_place,
            List.dropLast_eq_take, User.kept, List.take_take,
            List.take_take, ← User.kept, Nat.min_eq_left shorter, length,
            Nat.min_self]
      · rename_i nothing
        have empty : (core.users me).kept = [] :=
          List.eq_nil_of_length_eq_zero (by omega)
        exact .inl ⟨rfl, inside, by rw [empty]; rfl⟩
    · unfold typedOutcome
      simp only
      rw [replace_of_le _ _ room]
      simp only
      split
      · have taken : ((core.users me).text.take
            (core.users me).tbpos).length = (core.users me).tbpos := length
        rw [Core.setUser_setUser, Core.users_setUser_self, Function.comp]
        refine .inl ⟨rfl, ?_, ?_⟩
        · rw [User.Inside, User.text_place]
          change (core.users me).tbpos + 1 ≤ _
          simp only [List.length_append, taken, List.length_singleton]
          omega
        · rw [User.kept, User.text_place]
          change List.take ((core.users me).tbpos + 1) _ = _
          rw [List.take_left']
          · rfl
          · rw [List.length_append, taken, List.length_singleton]
      · refine .inr ⟨rfl, ?_, ?_⟩
        · rw [Core.users_setUser_self]
          change 2 ^ 31 ≤ (core.users me).tbpos + 1
          omega
        · rw [List.length_append, length, List.length_singleton]
          omega

/-- A line leaves the position at the start of the next one. -/
theorem lineOutcome_inside
    (env : Env)
    (me : Nat)
    (line : Bytes)
    (core : Core) :
    ((lineOutcome env me line (core.ended me line)).2.users me).Inside ∧
      ((lineOutcome env me line (core.ended me line)).2.users me).kept = [] := by
  have stays := lineOutcome_stays env me line (core.ended me line)
  have fresh : ((core.ended me line).users me).tbpos = 0 := by
    simp [Core.ended]
  rw [User.Inside, User.kept, stays.tbpos, fresh]
  exact ⟨Nat.zero_le _, List.take_zero⟩

/-- The position stays in the line, whatever is read. -/
theorem inside_reads (env : Env) (me : Nat) :
    ReadInvariant env me (fun core _ => (core.users me).Inside)
      (fun _ _ _ => True) where
  negotiates := by
    intro core past change negotiates inside
    obtain ⟨cols, rows, type, flags, same, -⟩ := negotiates (core.users me)
    rw [Core.users_setUser_self, same]
    exact inside
  notices := by
    intro core past _ inside
    rw [Core.users_setUser_self]
    exact inside
  faults := fun _ _ => trivial
  takes := by
    intro byte rest core past inside
    split
    · rename_i reached outcome
      unfold byteOutcome at outcome
      split at outcome
      · obtain ⟨-, rfl⟩ := Prod.mk.inj outcome
        exact inside
      · split at outcome
        · rw [User.line_eq inside] at outcome
          have kept := (lineOutcome_inside env me (core.users me).kept core).1
          simp only at outcome
          rwa [outcome] at kept
        · rcases keyOutcome_kept inside byte with
            ⟨-, kept, -⟩ | ⟨overflowed, -⟩
          · rwa [outcome] at kept
          · rw [outcome] at overflowed
            exact absurd overflowed (by simp)
    · trivial

/-! ## Reading packets -/

/-- The bytes of the lines handed over. -/
def linesIn (obs : List Obs) : List Bytes :=
  (handedIn obs).map Handed.line

@[simp] theorem linesIn_append (obs more : List Obs) :
    linesIn (obs ++ more) = linesIn obs ++ linesIn more := by
  simp [linesIn]

/-- The last line that was handed over threw. -/
def ThrewLine (env : Env) (me : Nat) (abort : Abort) (past : List Obs) : Prop :=
  ∃ handed, (handedIn past).getLast? = some handed ∧
    (lineOutcome env me handed.line handed.core).1 = .error abort

/-- The line has more bytes than an `int` counts. -/
def Overflows (me : Nat) (abort : Abort) (core : Core) : Prop :=
  abort = .undefined ∧ 2 ^ 31 ≤ (core.users me).tbpos + 1

/-- A session that is past its negotiation types what it has been given. -/
structure Typing
    (me : Nat)
    (start given todo : Bytes)
    (core : Core)
    (past : List Obs) : Prop where
  /-- No command is to be read. -/
  plain : telcmdIAC ∉ todo
  /-- The options have been negotiated. -/
  started : (core.users me).stage ≠ .new
  /-- The position is in the line. -/
  inside : (core.users me).Inside
  /-- The lines are those of the editor. -/
  lines : linesIn past ++ editedLines (core.users me).kept todo =
    editedLines start given
  /-- What is kept of the last line is what the editor keeps. -/
  rest : keptAfter (core.users me).kept todo = keptAfter start given

/-- Where a session stops, the lines are the first ones of the editor. -/
structure Stopped
    (env : Env)
    (me : Nat)
    (start given : Bytes)
    (abort : Abort)
    (core : Core)
    (past : List Obs) : Prop where
  /-- The lines are the first ones of the editor. -/
  lines : linesIn past <+: editedLines start given
  /-- No edit was out of range. -/
  cause : ThrewLine env me abort past ∨ Overflows me abort core

section Typing

variable {env : Env} {me : Nat} {start given todo : Bytes}
variable {core reached : Core} {past : List Obs}

/-- A change that leaves the line and the stage alone. -/
theorem Typing.keeps
    (typing : Typing me start given todo core past)
    (started : (reached.users me).stage ≠ .new)
    (tbpos : (reached.users me).tbpos = (core.users me).tbpos)
    (text : (reached.users me).text = (core.users me).text)
    {obs : List Obs}
    (noLine : handedIn obs = []) :
    Typing me start given todo reached (past ++ obs) := by
  have kept : (reached.users me).kept = (core.users me).kept := by
    rw [User.kept, tbpos, text, User.kept]
  have none : linesIn obs = [] := by
    rw [linesIn, noLine, List.map_nil]
  refine ⟨typing.plain, started, ?_, ?_, ?_⟩
  · rw [User.Inside, tbpos, text]
    exact typing.inside
  · rw [kept, linesIn_append, none, List.append_nil]
    exact typing.lines
  · rw [kept]
    exact typing.rest

/-- A byte is typed. -/
theorem Typing.byte
    {byte : UInt8}
    {rest : Bytes}
    (typing : Typing me start given (byte :: rest) core past) :
    ((ordinary env me byte rest).run core).Ends past
      (fun _ => Typing me start given rest) (Stopped env me start given) := by
  obtain ⟨before, after, ran, follows, followsLine⟩ :=
    run_ordinary env me byte rest core
  have handed := @handedIn_ordinary me byte before after follows.plain
    followsLine.plain (handedOf me byte rest core).toList
  have plain : telcmdIAC ∉ rest := fun inside =>
    typing.plain (List.mem_cons_of_mem _ inside)
  have notNew := typing.started
  have lines := typing.lines
  have kept := typing.rest
  rw [ran]
  generalize Obs.text me byte :: (before ++
    (handedOf me byte rest core).toList.map .handed ++ after) = shown
    at handed ⊢
  by_cases isCr : byte = cr
  · subst isCr
    have line := User.line_eq typing.inside
    have outcome : byteOutcome env me cr core =
        lineOutcome env me (core.users me).kept
          (core.ended me (core.users me).kept) := by
      rw [byteOutcome, if_neg notNew, if_pos rfl, line]
    have hands : handedOf me cr rest core = some
        { user := me, core := core.ended me (core.users me).kept
          line := (core.users me).kept, rest := rest } := by
      rw [handedOf, if_neg notNew, if_pos rfl, line]
    simp only [editedLines, keptAfter, if_true] at lines kept
    rw [hands] at handed
    have shownLines : linesIn (past ++ shown) =
        linesIn past ++ [(core.users me).kept] := by
      rw [linesIn_append, linesIn, linesIn, handed]
      rfl
    have stays := lineOutcome_stays env me (core.users me).kept
      (core.ended me (core.users me).kept)
    obtain ⟨inside, empty⟩ := lineOutcome_inside env me (core.users me).kept core
    have going :
        ((core.ended me (core.users me).kept).users me).stage ≠ .new := by
      simpa [Core.ended, User.setText] using notNew
    rw [outcome]
    cases threw : (lineOutcome env me (core.users me).kept
        (core.ended me (core.users me).kept)).1 with
    | error abort =>
        refine ⟨?_, .inl ⟨
          { user := me, core := core.ended me (core.users me).kept
            line := (core.users me).kept, rest := rest }, ?_, threw⟩⟩
        · rw [shownLines]
          exact ⟨editedLines [] rest, by simpa using lines⟩
        · rw [handedIn_append, handed]
          simp
    | ok value =>
        refine ⟨plain, stays.started going, inside, ?_, ?_⟩
        · rw [shownLines, empty]
          simpa using lines
        · rw [empty]
          exact kept
  · have outcome : byteOutcome env me byte core = keyOutcome me byte core := by
      rw [byteOutcome, if_neg notNew, if_neg isCr]
    have hands : handedOf me byte rest core = none := by
      rw [handedOf, if_neg notNew, if_neg isCr]
    simp only [editedLines, keptAfter, isCr, if_false] at lines kept
    rw [hands] at handed
    have shownLines : linesIn (past ++ shown) = linesIn past := by
      rw [linesIn_append, linesIn, linesIn, handed]
      simp
    obtain ⟨-, -, stays⟩ := byteOutcome_stays env me byte core
    rw [outcome] at stays ⊢
    rcases keyOutcome_kept typing.inside byte with
      ⟨returned, inside, edited⟩ | ⟨overflowed, counted, -⟩
    · rw [returned]
      refine ⟨plain, stays notNew, inside, ?_, ?_⟩
      · rw [shownLines, edited]
        exact lines
      · rw [edited]
        exact kept
    · rw [overflowed]
      refine ⟨?_, .inr ⟨rfl, counted⟩⟩
      rw [shownLines]
      exact ⟨_, lines⟩

/-- The text is typed byte by byte. -/
theorem typing_rule (env : Env) (me : Nat) (start given : Bytes) :
    ReadRule env me (Typing me start given) (Typing me start given)
      (fun _ _ => False)
      (fun pending core past =>
        pending = [] ∧ Typing me start given [] core past)
      (fun abort _ => Stopped env me start given abort) where
  text := fun _ typing => typing.byte
  enter := fun typing => typing
  leave := fun _ _ typing => typing
  command := by
    intro todo core past command size head _ _ typing
    exact absurd (List.mem_of_mem_head? head) typing.plain
  notice := by
    intro todo core past _ _ typing obs follows
    refine typing.keeps ?_ ?_ ?_ (handedIn_of_plain follows.plain)
    · simp [User.noticed]
    · simp [User.noticed]
    · simp [User.noticed, User.text]
  incomplete := by
    intro core past buffer head _ _ typing
    exact absurd (List.mem_of_mem_head? head) typing.plain
  done := fun typing => ⟨rfl, typing⟩
  stuck := by
    intro todo core past stuck typing
    exact absurd (List.mem_of_mem_head? stuck.1) typing.plain
  cut := by
    intro todo core past command size head _ _ typing
    exact absurd (List.mem_of_mem_head? head) typing.plain
  noticeLost := fun _ lost => lost.elim
  endLost := fun lost => lost.elim

/-- A packet without commands is typed. -/
theorem uRead_typed
    {data : Bytes}
    {buffer : TeloptBuffer}
    (typing : Typing me start given [] core past)
    (unused : buffer.bpos = 0)
    (short : data.length < maxSize)
    (plain : telcmdIAC ∉ data) :
    ((uRead env me data).run ⟨core, buffer⟩).Ends past
      (fun _ reader past => reader.buffer.bpos = 0 ∧
        Typing me start (given ++ data) [] reader.core past)
      fun abort reader =>
        Stopped env me start (given ++ data) abort reader.core := by
  have nothing := ReadRule.pending_of_zero unused
  have begins : ∀ pending, Typing me start (given ++ data) data core
      (past ++ [.packet me pending data]) := by
    intro pending
    have lines := typing.lines
    have rest := typing.rest
    rw [editedLines, List.append_nil] at lines
    rw [keptAfter] at rest
    refine ⟨plain, typing.started, typing.inside, ?_, ?_⟩
    · rw [editedLines_append, ← lines, ← rest, linesIn_append]
      simp [linesIn, handedIn]
    · rw [keptAfter_append, ← rest]
  by_cases empty : data = []
  · subst empty
    rw [run_uRead_nil]
    exact ⟨unused, begins _⟩
  · have small : data.length < 2 ^ 31 := short.trans (by decide)
    refine ((typing_rule env me start _).uRead ⟨?_, ?_⟩ empty short ?_ ?_
      fun _ => begins _).mono ?_ fun _ _ _ ended => ended
    · omega
    · omega
    · omega
    · rw [nothing, List.nil_append]
      exact begins _
    · rintro _ reader past ⟨⟨none, typed⟩, fits⟩
      refine ⟨?_, typed⟩
      rw [← length_pending fits.inside, none, List.length_nil]

/-- The packets are typed one after the other. -/
theorem feed_typed
    {packets : List Bytes}
    {buffer : TeloptBuffer}
    (typing : Typing me start given [] core past)
    (unused : buffer.bpos = 0)
    (plain : ∀ data ∈ packets, data.length < maxSize ∧ telcmdIAC ∉ data) :
    ((feed env me packets).run ⟨core, buffer⟩).Ends past
      (fun _ reader past =>
        Typing me start (given ++ packets.flatten) [] reader.core past)
      fun abort reader =>
        Stopped env me start (given ++ packets.flatten) abort reader.core := by
  induction packets generalizing given core buffer past with
  | nil => simpa [feed] using typing
  | cons data rest inductionHypothesis =>
      obtain ⟨⟨short, plainData⟩, plainRest⟩ := List.forall_mem_cons.mp plain
      rw [feed, Prog.forEach_cons]
      refine Prog.ends_bind ?_
      refine (uRead_typed typing unused short plainData).mono ?_ ?_
      · rintro _ ⟨reached, left⟩ past ⟨unusedAfter, typed⟩
        have later := inductionHypothesis typed unusedAfter plainRest
        rw [List.append_assoc] at later
        exact later
      · intro abort reader past stopped
        refine ⟨stopped.lines.trans ?_, stopped.cause⟩
        rw [List.flatten_cons, ← List.append_assoc]
        exact ⟨_, (editedLines_append start (given ++ data) rest.flatten).symm⟩

end Typing

/-- Whatever the packets are, as long as they are not too long and hold no
command: the lines handed over are those of the editor, up to a line that
throws, and no edit of the line is out of range. -/
theorem feed_editedLines
    (env : Env)
    (me : Nat)
    (core : Core)
    (buffer : TeloptBuffer)
    (packets : List Bytes)
    (started : (core.users me).stage ≠ .new)
    (unused : buffer.bpos = 0)
    (inside : (core.users me).Inside)
    (plain : ∀ data ∈ packets, data.length < maxSize ∧ telcmdIAC ∉ data) :
    let ran := (feed env me packets).run ⟨core, buffer⟩
    let lines := editedLines (core.users me).kept packets.flatten
    linesIn ran.obs <+: lines ∧
      (ran.val = .ok () →
        linesIn ran.obs = lines ∧ (ran.state.core.users me).Inside) ∧
      ∀ abort, ran.val = .error abort →
        ThrewLine env me abort ran.obs ∨
          Overflows me abort ran.state.core := by
  intro ran lines
  have begins : Typing me (core.users me).kept [] [] core [] :=
    ⟨by simp, started, inside, rfl, rfl⟩
  have outcome := @feed_typed env _ _ _ _ _ packets _ begins unused plain
  change ran.Ends [] _ _ at outcome
  obtain ⟨abort | value, reader, obs⟩ := ran
  · refine ⟨outcome.lines, fun returned => absurd returned (by simp), ?_⟩
    rintro _ ⟨⟩
    exact outcome.cause
  · have all : linesIn obs = lines := by
      simpa [editedLines] using outcome.lines
    exact ⟨by rw [all], fun _ => ⟨all, outcome.inside⟩,
      fun abort threw => absurd threw (by simp)⟩

/-- A name in two packets, with a slip of the fingers, and a password. -/
theorem feed_editedLines_login :
    let core : Core := { users := fun _ => { stage := .loginId } }
    let packets := [lit "anx" ++ [8], lit "n" ++ [cr, lf], lit "pw" ++ [cr]]
    let ran := (feed (Env.testing []) 0 packets).run ⟨core, {}⟩
    let lines := editedLines (core.users 0).kept packets.flatten
    linesIn ran.obs <+: lines ∧
      (ran.val = .ok () →
        linesIn ran.obs = lines ∧ (ran.state.core.users 0).Inside) ∧
      ∀ abort, ran.val = .error abort →
        ThrewLine (Env.testing []) 0 abort ran.obs ∨
          Overflows 0 abort ran.state.core :=
  feed_editedLines (Env.testing []) 0
    { users := fun _ => { stage := .loginId } } {} _ (by decide) rfl (by decide)
    (by decide +kernel)

/-- Its lines. -/
example :
    editedLines [] (lit "anx" ++ [8] ++ lit "n" ++ [cr, lf] ++ lit "pw" ++ [cr]) =
      [lit "ann", lit "pw"] := by
  decide +kernel

end Common
end Lotospp
