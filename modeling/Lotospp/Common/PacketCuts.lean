import Lotospp.Common.Credentials
import Lotospp.Common.InputTokens
import Mathlib.Data.List.DropRight

/-!
# Cutting the input into packets

`takeTokens` reads the input of a session token by token, with no packets and
no telnet buffer.  As long as no packet ends where the telnet parser cannot go
on later, `User::uRead` does the same, however the input is cut.
-/

namespace Lotospp
namespace Common

open Text Effect

/-- The login starts if all options are known. -/
def Core.notices (core : Core) (me : Nat) : Core :=
  if (core.users me).flagsTelnet.due then core.setUser me User.noticed
  else core

/-- What a token does, with the line that it hands over. -/
def takeToken (env : Env) (me : Nat) : Token → Prog Abort Core Handed Unit
  | .text byte => fun core =>
      ⟨(byteOutcome env me byte core).1, (byteOutcome env me byte core).2,
        (handedOf me byte [] core).toList⟩
  | .command command =>
      Prog.modify fun core =>
        (core.setUser me (command.settle env)).notices me

/-- The tokens are read one after the other, until one throws. -/
def takeTokens (env : Env) (me : Nat) (tokens : List Token) :
    Prog Abort Core Handed Unit :=
  Prog.forEach tokens (takeToken env me)

/-- The lines handed over, without the text behind them. -/
def linesTaken (obs : List Obs) : List Handed :=
  (handedIn obs).map fun handed => { handed with rest := [] }

/-- What the commands among the tokens make of a user. -/
def User.negotiated (env : Env) : List Token → User → User
  | [], user => user
  | .text _ :: tokens, user => negotiated env tokens user
  | .command command :: tokens, user =>
      negotiated env tokens (command.settle env user)

theorem User.negotiated_append
    (env : Env)
    (tokens : List Token)
    (command : TeloptCommand)
    (user : User) :
    user.negotiated env (tokens ++ [.command command]) =
      command.settle env (user.negotiated env tokens) := by
  induction tokens generalizing user with
  | nil => rfl
  | cons token tokens inductionHypothesis =>
      cases token with
      | text byte => exact inductionHypothesis user
      | command first => exact inductionHypothesis (first.settle env user)

/-- A packet can be read and counted; and where the parser looks for commands
it finds neither a terminal type that cuts off what follows, nor a sub-option
that it does not know, nor a terminal size that is cut off behind its eighth
byte. -/
def Obs.Whole : Obs → Prop
  | .packet me pending data => Obs.Tame (.packet me pending data)
  | .telopt me pending =>
      Obs.Tame (.telopt me pending) ∧ ¬ Stuck pending ∧ ¬ PartialSize pending
  | _ => True

instance : (observation : Obs) → Decidable observation.Whole
  | .packet me pending data =>
      inferInstanceAs (Decidable (Obs.Tame (.packet me pending data)))
  | .telopt me pending =>
      inferInstanceAs (Decidable (Obs.Tame (.telopt me pending) ∧
        ¬ Stuck pending ∧ ¬ PartialSize pending))
  | .wrote _ _ => .isTrue trivial
  | .nullConnection _ => .isTrue trivial
  | .dangling _ => .isTrue trivial
  | .text _ _ => .isTrue trivial
  | .consumed _ _ _ _ => .isTrue trivial
  | .handed _ => .isTrue trivial
  | .kicked _ => .isTrue trivial
  | .draw _ => .isTrue trivial

/-- Every observation is whole. -/
def WholePast (past : List Obs) : Prop :=
  ∀ observation ∈ past, observation.Whole

instance (past : List Obs) : Decidable (WholePast past) :=
  inferInstanceAs (Decidable (∀ observation ∈ past, observation.Whole))

theorem wholePast_append (past more : List Obs) :
    WholePast (past ++ more) ↔ WholePast past ∧ WholePast more :=
  List.forall_mem_append

theorem WholePast.tame {past : List Obs} (whole : WholePast past) :
    TamePast past := by
  intro observation shown
  have isWhole := whole observation shown
  cases observation with
  | telopt me pending => exact isWhole.1
  | packet me pending data => exact isWhole
  | _ => trivial

@[simp] theorem linesTaken_append (obs more : List Obs) :
    linesTaken (obs ++ more) = linesTaken obs ++ linesTaken more := by
  simp [linesTaken]

theorem linesTaken_of_plain
    {obs : List Obs}
    (plain : ∀ observation ∈ obs, observation.Plain) : linesTaken obs = [] := by
  rw [linesTaken, handedIn_of_plain plain, List.map_nil]

/-! ## The end of the negotiation -/

theorem User.due_noticed (user : User) :
    user.noticed.flagsTelnet.due = false := rfl

theorem TeloptCommand.settle_noticed
    (env : Env)
    (command : TeloptCommand)
    (user : User) :
    command.settle env user.noticed = (command.settle env user).noticed := by
  cases command with
  | option command code =>
      simp only [settle, settleOption]
      split_ifs <;> rfl
  | naws cols rows corrupt =>
      cases corrupt <;> rfl
  | _ => rfl

/-- All options stay known. -/
theorem TeloptCommand.due_settle
    (env : Env)
    (command : TeloptCommand)
    {user : User}
    (due : user.flagsTelnet.due = true) :
    (command.settle env user).flagsTelnet.due = true := by
  simp only [TelnetFlags.due, Bool.and_eq_true] at due ⊢
  obtain ⟨⟨⟨⟨open', echo⟩, sga⟩, termtype⟩, termsize⟩ := due
  cases command with
  | option command code =>
      simp only [settle, settleOption]
      split_ifs <;> simp_all
  | naws cols rows corrupt =>
      cases corrupt <;> simp_all [settle, settleSize]
  | term termType => simp_all [settle, settleType]
  | corruptTerm => simp_all [settle, settleType]
  | _ => simp_all [settle]

section Notices

variable {core : Core} {me : Nat}

theorem Core.notices_of_due
    (due : (core.users me).flagsTelnet.due = true) :
    core.notices me = core.setUser me User.noticed :=
  if_pos due

theorem Core.notices_of_not_due
    (undue : (core.users me).flagsTelnet.due = false) :
    core.notices me = core :=
  if_neg (by simp [undue])

/-- It makes no difference whether the end of the negotiation is noticed
before a command or behind it. -/
theorem Core.notices_settle
    (env : Env)
    (command : TeloptCommand) :
    ((core.notices me).setUser me (command.settle env)).notices me =
      (core.setUser me (command.settle env)).notices me := by
  cases due : (core.users me).flagsTelnet.due with
  | false => rw [core.notices_of_not_due due]
  | true =>
      have dueAfter : ((core.setUser me (command.settle env)).users
          me).flagsTelnet.due = true := by
        rw [Core.users_setUser_self]
        exact command.due_settle env due
      rw [Core.notices_of_due due, Core.notices_of_due dueAfter,
        Core.notices_of_not_due]
      · rw [Core.setUser_setUser, Core.setUser_setUser]
        congr 1
        funext user
        exact command.settle_noticed env user
      · rw [Core.users_setUser_self, Core.users_setUser_self,
          command.settle_noticed]
        rfl

/-- A byte leaves the telnet flags alone. -/
theorem byteOutcome_flags (env : Env) (byte : UInt8) :
    ((byteOutcome env me byte core).2.users me).flagsTelnet =
      (core.users me).flagsTelnet := by
  cases handed : handedOf me byte [] core with
  | none =>
      obtain ⟨textBuffer, tbpos, -, same⟩ := byteOutcome_edits env handed
      rw [same]
      simp
  | some line =>
      obtain ⟨-, -, taken, outcome⟩ := byteOutcome_line env handed
      have state : line.core = core.ended me line.line := by
        rw [taken]
      rw [outcome, (lineOutcome_effect env me line.line line.core).flags me,
        state]
      simp [Core.ended, User.setText]

end Notices

/-! ## Token by token -/

section TakeTokens

variable (env : Env) (me : Nat)

@[simp] theorem takeTokens_nil (core : Core) :
    (takeTokens env me []).run core = ⟨.ok (), core, []⟩ := rfl

theorem takeTokens_command
    (command : TeloptCommand)
    (tokens : List Token)
    (core : Core) :
    (takeTokens env me (.command command :: tokens)).run core =
      (takeTokens env me tokens).run
        ((core.setUser me (command.settle env)).notices me) := rfl

theorem takeTokens_text
    {byte : UInt8}
    {core reached : Core}
    (outcome : byteOutcome env me byte core = (.ok (), reached))
    (tokens : List Token) :
    (takeTokens env me (.text byte :: tokens)).run core =
      ((takeTokens env me tokens).run reached).prepend
        (handedOf me byte [] core).toList := by
  have ran : (takeToken env me (.text byte)).run core =
      ⟨.ok (), reached, (handedOf me byte [] core).toList⟩ := by
    simp [takeToken, Prog.run, outcome]
  rw [takeTokens, Prog.forEach_cons, Prog.run_bind_ok ran]
  rfl

theorem takeTokens_throws
    {byte : UInt8}
    {core reached : Core}
    {abort : Abort}
    (outcome : byteOutcome env me byte core = (.error abort, reached))
    (tokens : List Token) :
    (takeTokens env me (.text byte :: tokens)).run core =
      ⟨.error abort, reached, (handedOf me byte [] core).toList⟩ := by
  have ran : (takeToken env me (.text byte)).run core =
      ⟨.error abort, reached, (handedOf me byte [] core).toList⟩ := by
    simp [takeToken, Prog.run, outcome]
  rw [takeTokens, Prog.forEach_cons, Prog.run_bind_error ran]

theorem takeTokens_append
    {tokens : List Token}
    {core reached : Core}
    {lines : List Handed}
    (ran : (takeTokens env me tokens).run core = ⟨.ok (), reached, lines⟩)
    (more : List Token) :
    (takeTokens env me (tokens ++ more)).run core =
      ((takeTokens env me more).run reached).prepend lines := by
  rw [takeTokens, Prog.run_forEach_append]
  exact Prog.run_bind_ok ran _

theorem takeTokens_append_throws
    {tokens : List Token}
    {core reached : Core}
    {abort : Abort}
    {lines : List Handed}
    (ran : (takeTokens env me tokens).run core =
      ⟨.error abort, reached, lines⟩)
    (more : List Token) :
    (takeTokens env me (tokens ++ more)).run core =
      ⟨.error abort, reached, lines⟩ := by
  rw [takeTokens, Prog.run_forEach_append]
  exact Prog.run_bind_error ran _

end TakeTokens

/-! ## Reading packets -/

theorem handedOf_alone
    (me : Nat)
    (byte : UInt8)
    (rest : Bytes)
    (core : Core) :
    (handedOf me byte rest core).map (fun handed => { handed with rest := [] }) =
      handedOf me byte [] core := by
  unfold handedOf
  split
  · rfl
  · split
    · cases (core.users me).line <;> rfl
    · rfl

theorem linesTaken_ordinary
    {me : Nat}
    {byte : UInt8}
    {rest : Bytes}
    {core : Core}
    {before after : List Obs}
    (plain : ∀ observation ∈ before, observation.Plain)
    (plainAfter : ∀ observation ∈ after, observation.Plain) :
    linesTaken (.text me byte ::
        (before ++ (handedOf me byte rest core).toList.map .handed ++ after)) =
      (handedOf me byte [] core).toList := by
  rw [linesTaken, handedIn_ordinary plain plainAfter,
    ← handedOf_alone me byte rest core]
  cases handedOf me byte rest core <;> rfl

/-- The token is a command. -/
def Token.isCommand : Token → Bool
  | .text _ => false
  | .command _ => true

section Reading

variable (env : Env) (me : Nat) (start : Core)

/-- The state that the tokens up to the last text lead to, and what the
commands behind it make of the user, the end of the negotiation aside. -/
def lastNegotiated (tokens : List Token) : Core :=
  ((takeTokens env me (tokens.rdropWhile Token.isCommand)).run
      start).state.setUser me
    (User.negotiated env (tokens.rtakeWhile Token.isCommand))

/-- The tokens lead to this state, but for the end of the negotiation, which
may not have been noticed; and unless it has, the last commands are all that
has happened since the last text. -/
structure Taken (tokens : List Token) (core : Core) (past : List Obs) :
    Prop where
  /-- The tokens lead here. -/
  reaches : (takeTokens env me tokens).run start =
    ⟨.ok (), core.notices me, linesTaken past⟩
  /-- What the last commands have done. -/
  unnoticed : (core.users me).flagsTelnet.gotTeloptInfo = false →
    core = lastNegotiated env me start tokens

/-- Some tokens of what was given have been taken, and those of the text are
still to be. -/
def Takes (given todo : Bytes) (core : Core) (past : List Obs) : Prop :=
  WholePast past → ∃ consumed,
    telnet.tokens given = consumed ++ telnet.tokens todo ∧
      Taken env me start consumed core past

/-- All tokens of what was given have been taken; without pending bytes the
end of the negotiation has been noticed. -/
def TakenAll (given pending : Bytes) (core : Core) (past : List Obs) : Prop :=
  WholePast past → Taken env me start (telnet.tokens given) core past ∧
    (pending = [] → (core.users me).flagsTelnet.due = false)

/-- A token of what was given throws. -/
def TokenThrows
    (given : Bytes)
    (abort : Abort)
    (pending : Bytes)
    (core : Core)
    (past : List Obs) : Prop :=
  WholePast past → (takeTokens env me (telnet.tokens given)).run start =
    ⟨.error abort, core, linesTaken past⟩ ∧ pending = []

variable {env me start}
variable {tokens : List Token} {given todo : Bytes} {core : Core}
variable {past more : List Obs}

theorem Taken.silent
    (taken : Taken env me start tokens core past)
    (silent : linesTaken more = []) :
    Taken env me start tokens core (past ++ more) where
  reaches := by
    rw [taken.reaches, linesTaken_append, silent, List.append_nil]
  unnoticed := taken.unnoticed

/-- A command is taken. -/
theorem Taken.command
    (taken : Taken env me start tokens core past)
    (command : TeloptCommand) :
    Taken env me start (tokens ++ [.command command])
      (core.setUser me (command.settle env)) past where
  reaches := by
    rw [takeTokens_append env me taken.reaches, takeTokens_command,
      takeTokens_nil, Core.notices_settle, Run.prepend_mk, List.append_nil]
  unnoticed := by
    intro unnoticed
    obtain ⟨cols, rows, type, flags, same, gotFlags⟩ :=
      command.settle_negotiates env (core.users me)
    have before : (core.users me).flagsTelnet.gotTeloptInfo = false := by
      rw [← gotFlags, ← unnoticed, Core.users_setUser_self, same]
    rw [lastNegotiated, List.rdropWhile_concat_pos _ _ _ rfl,
      List.rtakeWhile_concat_pos _ _ _ rfl]
    conv => lhs; rw [taken.unnoticed before]
    rw [lastNegotiated, Core.setUser_setUser]
    congr 1
    funext user
    exact (user.negotiated_append env _ command).symm

/-- The end of the negotiation is noticed. -/
theorem Taken.notice
    (taken : Taken env me start tokens core past)
    (due : (core.users me).flagsTelnet.due = true) :
    Taken env me start tokens (core.setUser me User.noticed) past where
  reaches := by
    have undue : ((core.setUser me User.noticed).users
        me).flagsTelnet.due = false := by
      rw [Core.users_setUser_self, User.due_noticed]
    rw [taken.reaches, Core.notices_of_due due, Core.notices_of_not_due undue]
  unnoticed := by
    rw [Core.users_setUser_self]
    exact fun unnoticed => absurd unnoticed (by simp [User.noticed])

/-- A byte of text is taken. -/
theorem Taken.text
    {byte : UInt8}
    {reached : Core}
    (taken : Taken env me start tokens core past)
    (undue : (core.users me).flagsTelnet.due = false)
    (outcome : byteOutcome env me byte core = (.ok (), reached))
    (lines : linesTaken more = (handedOf me byte [] core).toList) :
    Taken env me start (tokens ++ [.text byte]) reached (past ++ more) := by
  have same := @byteOutcome_flags core me env byte
  rw [outcome] at same
  have ran : (takeTokens env me (tokens ++ [.text byte])).run start =
      ⟨.ok (), reached, linesTaken (past ++ more)⟩ := by
    rw [takeTokens_append env me taken.reaches, Core.notices_of_not_due undue,
      takeTokens_text env me outcome, takeTokens_nil, Run.prepend_mk,
      Run.prepend_mk, linesTaken_append, lines, List.append_nil]
  refine ⟨?_, fun _ => ?_⟩
  · rw [ran, Core.notices_of_not_due (by rw [same, undue])]
  · rw [lastNegotiated,
      List.rdropWhile_concat_neg _ _ _ (by simp [Token.isCommand]),
      List.rtakeWhile_concat_neg _ _ _ (by simp [Token.isCommand]), ran]
    exact (reached.setUser_id me).symm

/-- The text is read token by token. -/
theorem takes_rule (env : Env) (me : Nat) (start : Core) (given : Bytes) :
    ReadRule env me
      (fun todo core past => Takes env me start given todo core past ∧
        (core.users me).flagsTelnet.due = false)
      (Takes env me start given)
      (fun _ past => ¬ WholePast past)
      (TakenAll env me start given)
      (TokenThrows env me start given) where
  text := by
    rintro byte rest core past isText ⟨takes, undue⟩
    obtain ⟨before, after, ran, follows, followsLine⟩ :=
      run_ordinary env me byte rest core
    have lines := @linesTaken_ordinary me byte rest core before after follows.plain
      followsLine.plain
    have flags := @byteOutcome_flags core me env byte
    have front := telnet.tokens_of_some (telnet_text isText rest)
    rw [ran]
    cases outcome : byteOutcome env me byte core with
    | mk result reached =>
        rw [outcome] at flags
        cases result with
        | error abort =>
            intro whole
            obtain ⟨consumed, tokens, taken⟩ :=
              takes ((wholePast_append ..).mp whole).1
            refine ⟨?_, rfl⟩
            rw [tokens, takeTokens_append env me taken.reaches,
              Core.notices_of_not_due undue, front,
              takeTokens_throws env me outcome, Run.prepend_mk,
              linesTaken_append, lines]
        | ok value =>
            refine ⟨fun whole => ?_, by rw [flags, undue]⟩
            obtain ⟨consumed, tokens, taken⟩ :=
              takes ((wholePast_append ..).mp whole).1
            refine ⟨consumed ++ [.text byte], ?_,
              taken.text undue outcome lines⟩
            rw [tokens, front, List.append_assoc]
            rfl
  enter := fun takes => takes.1
  leave := fun _ undue takes => ⟨takes, undue⟩
  command := by
    intro todo core past command size head decoded _ takes obs after follows _ _
      whole
    obtain ⟨consumed, tokens, taken⟩ :=
      takes ((wholePast_append ..).mp whole).1
    refine ⟨consumed ++ [.command command], ?_,
      (taken.command command).silent ?_⟩
    · rw [tokens, telnet.tokens_of_some (telnet_command head decoded),
        List.append_assoc]
      rfl
    · rw [← List.singleton_append, linesTaken_append, linesTaken_append,
        linesTaken_of_plain follows.plain]
      rfl
  notice := by
    intro todo core past _ due takes obs follows
    refine ⟨fun whole => ?_, ?_⟩
    · obtain ⟨consumed, tokens, taken⟩ :=
        takes ((wholePast_append ..).mp whole).1
      exact ⟨consumed, tokens,
        (taken.notice due).silent (linesTaken_of_plain follows.plain)⟩
    · rw [Core.users_setUser_self, User.due_noticed]
  incomplete := by
    intro core past buffer head undecoded _ takes whole
    have isWhole := whole (.telopt me buffer.pending) (by simp)
    have unchanged : buffer.incomplete = id := by
      funext user
      rw [TeloptBuffer.incomplete, if_neg isWhole.2.2, id]
    obtain ⟨consumed, tokens, taken⟩ :=
      takes ((wholePast_append ..).mp whole).1
    rw [unchanged, Core.setUser_id]
    rw [telnet.tokens_of_none (telnet_incomplete head undecoded),
      List.append_nil] at tokens
    rw [tokens]
    refine ⟨taken.silent rfl, fun none => ?_⟩
    rw [none] at head
    cases head
  done := by
    rintro core past ⟨takes, undue⟩ whole
    obtain ⟨consumed, tokens, taken⟩ := takes whole
    have none : telnet.tokens [] = [] := telnet.tokens_of_none rfl
    rw [none, List.append_nil] at tokens
    rw [tokens]
    exact ⟨taken, fun _ => undue⟩
  stuck := by
    intro todo core past stuck _
    have never : ∀ more, ¬ WholePast (past ++ .telopt me todo :: more) := by
      intro more whole
      exact (whole (.telopt me todo) (by simp)).2.1 stuck
    exact ⟨fun whole => absurd whole (never []),
      fun obs _ whole => absurd whole (never obs)⟩
  cut := by
    intro todo core past command size _ decoded cuts _ obs _ whole
    have isWhole := whole (.telopt me todo) (by simp)
    exact isWhole.1 (command, size) decoded cuts
  noticeLost := by
    intro core past _ wild obs _ whole
    exact wild ((wholePast_append ..).mp whole).1
  endLost := by
    intro core past wild
    exact ⟨fun whole => absurd ((wholePast_append ..).mp whole).1 wild,
      fun whole => absurd ((wholePast_append ..).mp whole).1 wild⟩

end Reading

/-! ## Packets -/

section Packets

variable {env : Env} {me : Nat} {start : Core}

/-- What holds when a session has read what it was given. -/
def HasTaken
    (env : Env)
    (me : Nat)
    (start : Core)
    (given : Bytes)
    (reader : Reader)
    (past : List Obs) : Prop :=
  HasRead given reader past ∧
    TakenAll env me start given reader.buffer.pending reader.core past

/-- What holds when a session has thrown. -/
def ReadThrows
    (env : Env)
    (me : Nat)
    (start : Core)
    (given : Bytes)
    (abort : Abort)
    (reader : Reader)
    (past : List Obs) : Prop :=
  TokenThrows env me start given abort reader.buffer.pending reader.core past

/-- A packet is taken behind what has been given before. -/
theorem uRead_hasTaken
    (data : Bytes)
    {given : Bytes}
    {reader : Reader}
    {past : List Obs}
    (hasTaken : HasTaken env me start given reader past) :
    ((uRead env me data).run reader).Ends past
      (fun _ => HasTaken env me start (given ++ data))
      (ReadThrows env me start (given ++ data)) := by
  obtain ⟨hasRead, takenAll⟩ := hasTaken
  have begins : WholePast past →
      Takes env me start (given ++ data) (reader.buffer.pending ++ data)
        reader.core (past ++ [.packet me reader.buffer.pending data]) := by
    intro whole _
    obtain ⟨-, rest⟩ := (hasRead whole.tame).1 whole.tame
    refine ⟨telnet.tokens given, ?_, (takenAll whole).1.silent rfl⟩
    rw [telnet.tokens_append, rest]
  have takes := (takes_rule env me start (given ++ data)).uRead_while WholePast
    (fun whole => ((wholePast_append ..).mp whole).1)
    (fun whole => ((wholePast_append ..).mp whole).2 _
      (List.mem_singleton_self _))
    (fun whole => (hasRead whole.tame).2) begins
    (fun whole none => by
      have begun := begins whole
      rw [none, List.nil_append] at begun
      exact ⟨begun, (takenAll whole).2 none⟩)
    (fun whole empty _ => by
      rw [empty, List.append_nil]
      exact ⟨(takenAll whole).1.silent rfl, (takenAll whole).2⟩)
  refine ((uRead_hasRead env me data hasRead).and takes).mono ?_ ?_
  · rintro _ reader past ⟨hasReadData, ends⟩
    exact ⟨hasReadData, fun whole => (ends whole).1 whole⟩
  · rintro abort reader past ⟨-, ended⟩ whole
    exact ended whole whole

/-- What a session has thrown stays when more is given. -/
theorem ReadThrows.append
    {given : Bytes}
    {abort : Abort}
    {reader : Reader}
    {past : List Obs}
    (thrown : ReadThrows env me start given abort reader past)
    (more : Bytes) :
    ReadThrows env me start (given ++ more) abort reader past := by
  intro whole
  obtain ⟨ran, none⟩ := thrown whole
  refine ⟨?_, none⟩
  rw [telnet.tokens_append]
  exact takeTokens_append_throws env me ran _

/-- The packets are taken one after the other. -/
theorem feed_hasTaken
    (packets : List Bytes)
    {given : Bytes}
    {reader : Reader}
    {past : List Obs}
    (hasTaken : HasTaken env me start given reader past) :
    ((feed env me packets).run reader).Ends past
      (fun _ => HasTaken env me start (given ++ packets.flatten))
      (ReadThrows env me start (given ++ packets.flatten)) := by
  induction packets generalizing given reader past with
  | nil => simpa [feed] using hasTaken
  | cons data packets inductionHypothesis =>
      rw [feed, Prog.forEach_cons, List.flatten_cons, ← List.append_assoc]
      apply Prog.ends_bind
      refine (uRead_hasTaken data hasTaken).mono ?_ ?_
      · exact fun _ _ _ hasTakenData => inductionHypothesis hasTakenData
      · exact fun _ _ _ thrown => thrown.append packets.flatten

/-- The end of the negotiation does not hang on the bytes that are left of the
input: there are none, or the last commands do not complete it. -/
def Decided (env : Env) (me : Nat) (start : Core) (input : Bytes) : Prop :=
  telnet.rest input = [] ∨
    ((lastNegotiated env me start (telnet.tokens input)).users
      me).flagsTelnet.due = false

instance (env : Env) (me : Nat) (start : Core) (input : Bytes) :
    Decidable (Decided env me start input) :=
  inferInstanceAs (Decidable (_ ∨ _))

/-- What a session shows of its input: how reading ends, the lines that are
handed over, the state and the pending bytes. -/
structure Readout where
  /-- How reading ends. -/
  val : Except Abort Unit
  /-- The lines, each with the state in which it is handed over. -/
  lines : List Handed
  /-- The state. -/
  core : Core
  /-- The pending telnet bytes. -/
  pending : Bytes

/-- The packets are read, from a state without pending bytes. -/
def readout (env : Env) (me : Nat) (start : Core) (packets : List Bytes) :
    Readout :=
  let ran := (feed env me packets).run ⟨start, {}⟩
  { val := ran.val
    lines := linesTaken ran.obs
    core := ran.state.core
    pending := ran.state.buffer.pending }

/-- Whole packets are read as the tokens of the input are taken. -/
theorem readout_eq
    {packets : List Bytes}
    (undue : (start.users me).flagsTelnet.due = false)
    (whole : WholePast ((feed env me packets).run ⟨start, {}⟩).obs)
    (decided : Decided env me start packets.flatten) :
    readout env me start packets =
      let ran := (takeTokens env me (telnet.tokens packets.flatten)).run start
      { val := ran.val
        lines := ran.obs
        core := ran.state
        pending :=
          match ran.val with
          | .ok _ => telnet.rest packets.flatten
          | .error _ => [] } := by
  have begins : HasTaken env me start [] ⟨start, {}⟩ [] := by
    refine ⟨fun _ => ⟨fun _ => ⟨rfl, rfl⟩, Nat.le_refl _, Nat.two_pow_pos 31⟩,
      fun _ => ⟨⟨?_, fun _ => ?_⟩, fun _ => undue⟩⟩
    · rw [Core.notices_of_not_due undue]
      rfl
    · exact (start.setUser_id me).symm
  have ends := feed_hasTaken packets begins
  rw [List.nil_append] at ends
  rw [readout]
  generalize (feed env me packets).run ⟨start, {}⟩ = ran at whole ends ⊢
  obtain ⟨abort | value, reader, obs⟩ := ran
  · obtain ⟨thrown, none⟩ := ends whole
    simp only [List.nil_append] at thrown none
    simp only [thrown, none]
  · obtain ⟨hasRead, takenAll⟩ := ends
    simp only [List.nil_append] at hasRead takenAll
    obtain ⟨-, rest⟩ := (hasRead whole.tame).1 whole.tame
    obtain ⟨taken, noticed⟩ := takenAll whole
    have undueAfter : (reader.core.users me).flagsTelnet.due = false := by
      rcases decided with none | undueLast
      · exact noticed (rest.symm.trans none)
      · rw [Bool.eq_false_iff]
        intro due
        have unnoticed : (reader.core.users
            me).flagsTelnet.gotTeloptInfo = false := by
          simp only [TelnetFlags.due, Bool.and_eq_true, Bool.not_eq_true'] at due
          exact due.1.1.1.1
        rw [← taken.unnoticed unnoticed, due] at undueLast
        cases undueLast
    have reaches := taken.reaches
    rw [Core.notices_of_not_due undueAfter] at reaches
    simp only [reaches, rest]

/-- The same lines have been handed over, and the session is left with the
same stage, level, name, telnet flags, terminal, edited line and pending
bytes. -/
structure Readout.Agrees (me : Nat) (left right : Readout) : Prop where
  /-- The lines. -/
  lines : left.lines.map Handed.line = right.lines.map Handed.line
  /-- The stage. -/
  stage : (left.core.users me).stage = (right.core.users me).stage
  /-- The level. -/
  level : (left.core.users me).level = (right.core.users me).level
  /-- The name. -/
  name : (left.core.users me).name = (right.core.users me).name
  /-- The telnet flags. -/
  flagsTelnet :
    (left.core.users me).flagsTelnet = (right.core.users me).flagsTelnet
  /-- The terminal size. -/
  termSize :
    ((left.core.users me).termCols, (left.core.users me).termRows) =
      ((right.core.users me).termCols, (right.core.users me).termRows)
  /-- The terminal type. -/
  termType : (left.core.users me).termType = (right.core.users me).termType
  /-- The edited line. -/
  edited :
    (left.core.users me).text.take (left.core.users me).tbpos =
      (right.core.users me).text.take (right.core.users me).tbpos
  /-- The pending telnet bytes. -/
  pending : left.pending = right.pending

/-- Two ways to cut an input into packets lead to the same, if the packets are
whole and the end of the negotiation does not hang on the bytes that are left
of the input. -/
theorem cuts_agree
    (env : Env)
    (me : Nat)
    (start : Core)
    (left right : List Bytes)
    (same : left.flatten = right.flatten)
    (undue : (start.users me).flagsTelnet.due = false)
    (whole : WholePast ((feed env me left).run ⟨start, {}⟩).obs)
    (wholeToo : WholePast ((feed env me right).run ⟨start, {}⟩).obs)
    (decided : Decided env me start left.flatten) :
    (readout env me start left).Agrees me (readout env me start right) := by
  have agree : readout env me start left = readout env me start right := by
    rw [readout_eq undue whole decided,
      readout_eq undue wholeToo (same ▸ decided), same]
  rw [agree]
  exact ⟨rfl, rfl, rfl, rfl, rfl, rfl, rfl, rfl, rfl⟩

/-- A command and text, cut within the command and behind it. -/
theorem cuts_agree_echo :
    (readout (Env.testing []) 0 {} [[255], [253, 1, 97]]).Agrees 0
      (readout (Env.testing []) 0 {} [[255, 253, 1], [97]]) :=
  cuts_agree (Env.testing []) 0 {} _ _ (by decide) (by decide +kernel)
    (by decide +kernel) (by decide +kernel) (by decide +kernel)

/-- An option behind a terminal type is lost, unless the packet ends between
the two. -/
theorem cuts_not_agree :
    ¬ ∀ (env : Env) (me : Nat) (start : Core) (left right : List Bytes),
      (∀ data ∈ left ++ right, 1 ≤ data.length ∧ data.length ≤ 15339) →
      left.flatten = right.flatten →
      (readout env me start left).Agrees me (readout env me start right) := by
  intro always
  have agrees := always (Env.testing []) 0 {}
    [[255, 250, 24, 0, 120, 255, 240, 255, 253, 1]]
    [[255, 250, 24, 0, 120, 255, 240], [255, 253, 1]] (by decide) (by decide)
  exact absurd agrees.flagsTelnet (by decide +kernel)

end Packets

end Common
end Lotospp
