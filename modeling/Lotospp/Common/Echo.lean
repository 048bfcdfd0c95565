import Lotospp.Common.ReadExtent
import Lotospp.Effect.TwoRuns

/-!
# The echo of a password

In the stages that read a password `User::uRead` answers each key with an
asterisk.  What a client is sent until it presses the return key does not
depend on the keys, unless the telnet parser reads bytes of an earlier input
behind those in use, or leads the session to another stage.
-/

namespace Lotospp
namespace Common

open Text Effect Commands

/-- An ordinary byte, which joins the line. -/
def IsKey (byte : UInt8) : Prop :=
  byte ≠ cr ∧ byte ≠ lf ∧ byte ≠ 0 ∧ byte ≠ asciiBS ∧ byte ≠ asciiDEL ∧
    byte ≠ telcmdIAC

instance (byte : UInt8) : Decidable (IsKey byte) :=
  inferInstanceAs (Decidable (_ ∧ _ ∧ _ ∧ _ ∧ _ ∧ _))

/-- The bytes are the same, or both are ordinary. -/
def SameKey (byte byte' : UInt8) : Prop :=
  byte = byte' ∨ (IsKey byte ∧ IsKey byte')

instance (byte byte' : UInt8) : Decidable (SameKey byte byte') :=
  inferInstanceAs (Decidable (_ ∨ _))

/-- Who sees what the peers are sent, until a return key is read. -/
def onlooker : Observer Obs (Nat × Bytes) where
  sees
    | .wrote protocol message => some (protocol, message)
    | _ => none
  stops
    | .text _ byte => byte = cr
    | _ => false

/-- Nothing is pending, or an unfinished command that has not touched the
session. -/
def Waits (todo : Bytes) : Prop :=
  todo = [] ∨
    (todo.head? = some telcmdIAC ∧ decodeCommand todo = none ∧
      ¬ Stuck todo ∧ ¬ PartialSize todo)

instance (todo : Bytes) : Decidable (Waits todo) :=
  inferInstanceAs (Decidable (_ ∨ (_ ∧ _ ∧ _ ∧ _)))

/-- The texts and the packets behind them hold the same commands until a
return key is read, and the packets are such that each command is told by its
own bytes and leaves the session in its stage.  The user is the one that
negotiates. -/
inductive Discreet (env : Env) :
    User → Bytes → List Bytes → Bytes → List Bytes → Prop
  /-- A return key. -/
  | line {user : User} {todo todo' : Bytes} {later later' : List Bytes} :
      Discreet env user (cr :: todo) later (cr :: todo') later'
  /-- Another byte of the text. -/
  | key {user : User} {byte byte' : UInt8} {todo todo' : Bytes}
      {later later' : List Bytes} :
      byte ≠ telcmdIAC → Discreet env user todo later todo' later' →
      Discreet env user (byte :: todo) later (byte' :: todo') later'
  /-- The same command in both texts.  Nothing is cut off, and when text
  follows the negotiation does not end. -/
  | command {user : User} {todo todo' : Bytes} {later later' : List Bytes}
      {command : TeloptCommand} {size : Nat} :
      todo.head? = some telcmdIAC → todo'.head? = some telcmdIAC →
      decodeCommand todo = some (command, size) →
      decodeCommand todo' = some (command, size) →
      ¬ Truncates todo command size →
      ((todo.drop size).head? ≠ some telcmdIAC →
        (command.settle env user).flagsTelnet.due = false) →
      Discreet env (command.settle env user) (todo.drop size) later
        (todo'.drop size) later' →
      Discreet env user todo later todo' later'
  /-- The same sub-option that is not known: nothing behind it is read. -/
  | unknown {user : User} {todo todo' : Bytes} {later later' : List Bytes}
      {option : UInt8} :
      Stuck todo → Stuck todo' →
      todo[2]? = some option → todo'[2]? = some option →
      Discreet env user todo later todo' later'
  /-- The next packet. -/
  | packet {user : User} {todo data data' : Bytes} {later later' : List Bytes} :
      Waits todo → data.length < maxSize →
      todo.length + data.length < 2 ^ 31 →
      Discreet env user (todo ++ data) later (todo ++ data') later' →
      Discreet env user todo (data :: later) todo (data' :: later')
  /-- The end. -/
  | done {user : User} {todo : Bytes} :
      Waits todo → Discreet env user todo [] todo []

/-! ## Two cores -/

/-- The cores differ only in the lines of this user, which are as long. -/
def Core.Masks (core core' : Core) (me : Nat) : Prop :=
  ∃ textBuffer : Bool → Bytes,
    (∀ which, (textBuffer which).length =
      ((core.users me).textBuffer which).length) ∧
    core' = core.setUser me fun user => { user with textBuffer := textBuffer }

/-- The onlooker does not see the passes of the telnet parser. -/
theorem onlooker_pass
    {obs : List Obs}
    (looks : onlooker.Looks obs)
    (me : Nat)
    (pending : Bytes)
    (count : Int)
    (buffer : TeloptBuffer) :
    onlooker.Looks (.telopt me pending ::
        (obs ++ [.consumed me pending count buffer])) ∧
      onlooker.seen (.telopt me pending ::
          (obs ++ [.consumed me pending count buffer])) =
        onlooker.seen obs := by
  have all : onlooker.Looks (.telopt me pending ::
      (obs ++ [.consumed me pending count buffer])) := by
    simpa [onlooker] using looks
  refine ⟨all, ?_⟩
  rw [Observer.seen_of_looks all, Observer.seen_of_looks looks]
  simp [onlooker]

theorem onlooker_looks_of_plain
    {obs : List Obs}
    (plain : ∀ observation ∈ obs, observation.Plain) : onlooker.Looks obs := by
  intro observation shown
  have isPlain := plain observation shown
  cases observation <;> first | rfl | exact isPlain.elim

namespace Core.Masks

variable {core core' : Core} {me : Nat}

theorem refl (core : Core) (me : Nat) : core.Masks core me :=
  ⟨(core.users me).textBuffer, fun _ => rfl, by simp [setUser]⟩

/-- What is written does not depend on the lines. -/
theorem writeObs
    (masks : core.Masks core' me)
    (message : Bytes) :
    Common.writeObs core' me message = Common.writeObs core me message := by
  obtain ⟨textBuffer, -, rfl⟩ := masks
  rw [Common.writeObs, Core.users_setUser_self]
  rfl

/-- A change that does not look at the lines. -/
theorem setUser
    (masks : core.Masks core' me)
    (change : User → User)
    (blind : ∀ user textBuffer,
      change { user with textBuffer := textBuffer } =
        { change user with textBuffer := textBuffer }) :
    (core.setUser me change).Masks (core'.setUser me change) me := by
  obtain ⟨textBuffer, length, rfl⟩ := masks
  have kept : (change (core.users me)).textBuffer =
      (core.users me).textBuffer := by
    have same := congrArg User.textBuffer
      (blind (core.users me) (core.users me).textBuffer)
    exact same
  refine ⟨textBuffer, ?_, ?_⟩
  · simpa [kept] using length
  · rw [Core.setUser_setUser, Core.setUser_setUser]
    congr 1
    funext user
    exact blind user textBuffer

/-- The text of one line is replaced in both. -/
theorem setText
    (masks : core.Masks core' me)
    {text text' : Bytes}
    (length : text.length = text'.length) :
    (core.setUser me fun user => user.setText text).Masks
      (core'.setUser me fun user => user.setText text') me := by
  obtain ⟨textBuffer, lengths, rfl⟩ := masks
  refine ⟨Function.update textBuffer (core.users me).buffnum text', ?_, ?_⟩
  · intro which
    by_cases same : which = (core.users me).buffnum
    · subst same
      simp [User.setText, length]
    · simp [User.setText, same, lengths]
  · simp [User.setText, Core.setUser]

/-- The lines are as long. -/
theorem length_text (masks : core.Masks core' me) :
    (core'.users me).text.length = (core.users me).text.length := by
  obtain ⟨textBuffer, length, rfl⟩ := masks
  simpa [User.text] using length (core.users me).buffnum

end Core.Masks

/-- The program does the same whatever stands in the lines, and reads none. -/
def Blind {α : Type} (me : Nat) (prog : CoreM α) : Prop :=
  ∀ ⦃core core' : Core⦄, core.Masks core' me →
    (prog.run core').val = (prog.run core).val ∧
      (prog.run core').obs = (prog.run core).obs ∧
      onlooker.Looks (prog.run core).obs ∧
      (prog.run core).state.Masks (prog.run core').state me

namespace Blind

variable {α β : Type} {me : Nat}

theorem pure_intro (value : α) : Blind me (pure value) :=
  fun _ _ masks => ⟨rfl, rfl, onlooker.looks_nil, masks⟩

theorem uWrite_intro (message : Bytes) : Blind me (uWrite me message) := by
  intro core core' masks
  simp only [run_uWrite, masks.writeObs, true_and]
  exact ⟨onlooker_looks_of_plain (Follows.writeObs core me message).plain, masks⟩

theorem uPrintf_intro (text : Bytes) : Blind me (uPrintf me text) :=
  uWrite_intro _

theorem update_intro
    {change : User → User}
    (blind : ∀ user textBuffer,
      change { user with textBuffer := textBuffer } =
        { change user with textBuffer := textBuffer }) :
    Blind me (update me change) :=
  fun _ _ masks => ⟨rfl, rfl, onlooker.looks_nil, masks.setUser _ blind⟩

theorem bind
    {prog : CoreM α}
    {next : α → CoreM β}
    (blind : Blind me prog)
    (blindNext : ∀ value, Blind me (next value)) :
    Blind me (prog >>= next) := by
  intro core core' masks
  obtain ⟨sameVal, sameObs, looks, masks⟩ := blind masks
  rw [Prog.run_bind, Prog.run_bind]
  generalize prog.run core = ran at sameVal sameObs looks masks ⊢
  generalize prog.run core' = ran' at sameVal sameObs masks ⊢
  obtain ⟨val, reached, obs⟩ := ran
  obtain ⟨val', reached', obs'⟩ := ran'
  simp only at sameVal sameObs looks masks
  subst sameVal sameObs
  cases val' with
  | error abort => exact ⟨rfl, rfl, looks, masks⟩
  | ok value =>
      obtain ⟨sameVal, sameObs, looksNext, masks⟩ := blindNext value masks
      exact ⟨sameVal, congrArg (obs' ++ ·) sameObs,
        (onlooker.looks_append ..).mpr ⟨looks, looksNext⟩, masks⟩

theorem ite
    {condition : Prop} [Decidable condition]
    {prog next : CoreM α}
    (blind : Blind me prog)
    (blindNext : Blind me next) :
    Blind me (if condition then prog else next) := by
  split
  · exact blind
  · exact blindNext

theorem when
    {condition : Prop} [Decidable condition]
    {prog : CoreM Unit}
    (blind : Blind me prog) : Blind me (Prog.when condition prog) :=
  ite blind (pure_intro ())

/-- A program that first looks at the user, but not at its lines. -/
theorem user_bind
    {next : User → CoreM α}
    (unseen : ∀ user textBuffer,
      next { user with textBuffer := textBuffer } = next user)
    (blind : ∀ user, Blind me (next user)) :
    Blind me (user me >>= next) := by
  intro core core' masks
  have same : next (core'.users me) = next (core.users me) := by
    obtain ⟨textBuffer, -, rfl⟩ := masks
    rw [Core.users_setUser_self]
    exact unseen (core.users me) textBuffer
  rw [run_user_bind, run_user_bind, same]
  exact blind (core.users me) masks

theorem setTermtype_intro (env : Env) (termType : Bytes) :
    Blind me (setTermtype env me termType) :=
  bind (update_intro fun _ _ => rfl) fun _ =>
    bind (uPrintf_intro _) fun _ => when (uPrintf_intro _)

theorem setTermsize_intro (dCols dRows : Nat) :
    Blind me (setTermsize me dCols dRows) := by
  refine user_bind (fun _ _ => rfl) fun user => ?_
  refine bind (update_intro fun _ _ => rfl) fun _ => ?_
  refine ite ?_ (uPrintf_intro _)
  exact bind (uPrintf_intro _) fun _ => update_intro fun _ _ => rfl

theorem nawsAct_intro (cols rows : Nat) (corrupt : Bool) :
    Blind me (nawsAct me cols rows corrupt) := by
  refine user_bind (fun _ _ => rfl) fun user => ?_
  refine bind (update_intro fun _ _ => rfl) fun _ => ?_
  refine bind (when ?_) fun _ => setTermsize_intro _ _
  exact bind (uPrintf_intro _) fun _ => update_intro fun _ _ => rfl

theorem option_intro (env : Env) (command code : UInt8) :
    Blind me ((TeloptCommand.option command code).act env me) := by
  have sets : ∀ change : User → User,
      (∀ user textBuffer, change { user with textBuffer := textBuffer } =
        { change user with textBuffer := textBuffer }) →
      ∀ text, Blind me (uPrintf me text >>= fun _ => update me change) :=
    fun change blind text =>
      bind (uPrintf_intro text) fun _ => update_intro blind
  unfold TeloptCommand.act teloptWill teloptWont teloptDo teloptDont setSGA
    setECHO
  refine ite ?_ (ite ?_ (ite ?_ ?_))
  · exact ite (pure_intro ()) (ite (uPrintf_intro _) (uPrintf_intro _))
  · refine ite (user_bind (fun _ _ => rfl) fun user => ?_) (ite ?_ ?_)
    · exact sets _ (fun _ _ => rfl) _
    · exact sets _ (fun _ _ => rfl) _
    · exact uPrintf_intro _
  · refine ite ?_ (ite ?_ (uPrintf_intro _))
    · exact update_intro fun _ _ => rfl
    · exact update_intro fun _ _ => rfl
  · refine ite ?_ (ite ?_ (uPrintf_intro _))
    · exact sets _ (fun _ _ => rfl) _
    · exact sets _ (fun _ _ => rfl) _

/-- What is done for a telnet command does not depend on the lines. -/
theorem act_intro (env : Env) (command : TeloptCommand) :
    Blind me (command.act env me) := by
  cases command with
  | option command code => exact option_intro env command code
  | naws cols rows corrupt => exact nawsAct_intro cols rows corrupt
  | term termType => exact setTermtype_intro env termType
  | corruptTerm =>
      exact bind (uPrintf_intro _) fun _ => setTermtype_intro env unresolved
  | ayt => exact uPrintf_intro _
  | iac => exact uPrintf_intro _
  | other => exact pure_intro ()

end Blind

/-! ## Keys -/

/-- Two sessions in a stage that reads a password, which differ only in their
lines, with the level and the telnet flags of this user. -/
structure Twin (me : Nat) (user : User) (core core' : Core) : Prop where
  /-- They differ only in their lines. -/
  masks : core.Masks core' me
  /-- Keys are answered with asterisks. -/
  hides : (core.users me).stage.hidesInput = true
  /-- The level. -/
  level : (core.users me).level = user.level
  /-- The telnet flags. -/
  flags : (core.users me).flagsTelnet = user.flagsTelnet

namespace Twin

variable {me : Nat} {user : User} {core core' : Core}

theorem stage (twin : Twin me user core core') :
    (core'.users me).stage = (core.users me).stage := by
  obtain ⟨textBuffer, -, rfl⟩ := twin.masks
  rw [Core.users_setUser_self]

theorem flags' (twin : Twin me user core core') :
    (core'.users me).flagsTelnet = user.flagsTelnet := by
  rw [← twin.flags]
  obtain ⟨textBuffer, -, rfl⟩ := twin.masks
  rw [Core.users_setUser_self]

theorem tbpos (twin : Twin me user core core') :
    (core'.users me).tbpos = (core.users me).tbpos := by
  obtain ⟨textBuffer, -, rfl⟩ := twin.masks
  rw [Core.users_setUser_self]

/-- The line is replaced by another, and the cursor moves. -/
theorem setLine
    (twin : Twin me user core core')
    {text text' : Bytes}
    (length : text.length = text'.length)
    (change : Nat → Nat) :
    Twin me user
      (core.setUser me fun user =>
        { user.setText text with tbpos := change user.tbpos })
      (core'.setUser me fun user =>
        { user.setText text' with tbpos := change user.tbpos }) where
  masks := by
    have moved := (twin.masks.setText length).setUser
      (fun user => { user with tbpos := change user.tbpos }) fun _ _ => rfl
    rwa [Core.setUser_setUser, Core.setUser_setUser] at moved
  hides := by simpa [User.setText] using twin.hides
  level := by simpa [User.setText] using twin.level
  flags := by simpa [User.setText] using twin.flags

/-- The same is written. -/
theorem uWrite
    (twin : Twin me user core core')
    (message : Bytes) :
    Indistinct onlooker
      (fun _ reached _ reached' => Twin me user reached reached')
      ((Common.uWrite me message).run core)
      ((Common.uWrite me message).run core') := by
  have looks :=
    onlooker_looks_of_plain (Follows.writeObs core me message).plain
  rw [run_uWrite, run_uWrite, twin.masks.writeObs]
  exact .returned looks looks rfl twin

/-- Backspace or delete. -/
theorem rubOut (twin : Twin me user core core') :
    Indistinct onlooker
      (fun _ reached _ reached' => Twin me user reached reached')
      ((Common.rubOut me).run core) ((Common.rubOut me).run core') := by
  have length := twin.masks.length_text
  unfold Common.rubOut
  rw [run_user_bind, run_user_bind, twin.tbpos]
  by_cases typed : (core.users me).tbpos > 0
  · rw [if_pos typed, if_pos typed]
    by_cases inside : (core.users me).tbpos - 1 ≤ (core.users me).text.length
    · rw [eraseFrom_of_le inside, eraseFrom_of_le (by omega), checked_ok,
        checked_ok, Prog.run_pure_bind, Prog.run_pure_bind, run_update_bind,
        run_update_bind]
      refine (twin.setLine ?_ (· - 1)).uWrite _
      rw [List.length_take, List.length_take, length]
    · have outside : ¬ (core.users me).tbpos - 1 ≤
          (core'.users me).text.length := by omega
      rw [eraseFrom, if_neg inside, eraseFrom, if_neg outside, checked_error,
        Prog.run_raise_bind, Prog.run_raise_bind]
      exact .raise_intro _ core core'
  · rw [if_neg typed, if_neg typed]
    exact .pure_intro twin

/-- A key joins the line. -/
theorem typed
    (twin : Twin me user core core')
    (byte byte' : UInt8) :
    Indistinct onlooker
      (fun _ reached _ reached' => Twin me user reached reached')
      ((Common.typed me byte).run core) ((Common.typed me byte').run core') := by
  have length := twin.masks.length_text
  have hides : (core'.users me).stage.hidesInput = true := by
    rw [twin.stage]
    exact twin.hides
  unfold Common.typed
  rw [run_user_bind, run_user_bind, twin.tbpos]
  by_cases inside : (core.users me).tbpos ≤ (core.users me).text.length
  · rw [replace_of_le _ _ inside, replace_of_le _ _ (by omega), checked_ok,
      checked_ok, Prog.run_pure_bind, Prog.run_pure_bind, run_update_bind,
      run_update_bind]
    by_cases room : (core.users me).tbpos + 1 < 2 ^ 31
    · rw [if_pos room, if_pos room, run_update_bind, run_update_bind,
        if_pos twin.hides, if_pos hides, Core.setUser_setUser,
        Core.setUser_setUser]
      refine (twin.setLine ?_ (· + 1)).uWrite _
      simp [length]
    · rw [if_neg room, if_neg room]
      exact .raise_intro ..
  · have outside : ¬ (core.users me).tbpos ≤
        (core'.users me).text.length := by omega
    rw [replace, if_neg inside, replace, if_neg outside, checked_error,
      Prog.run_raise_bind, Prog.run_raise_bind]
    exact .raise_intro _ core core'

/-- A byte that does not complete the line. -/
theorem ordinary
    (env : Env)
    (twin : Twin me user core core')
    {byte byte' : UInt8}
    (same : SameKey byte byte')
    (noLine : byte ≠ cr)
    (rest rest' : Bytes) :
    Indistinct onlooker
      (fun _ reached _ reached' => Twin me user reached reached')
      ((Common.ordinary env me byte rest).run core)
      ((Common.ordinary env me byte' rest').run core') := by
  have notNew : (core.users me).stage ≠ .new := by
    intro isNew
    have hides := twin.hides
    rw [isNew] at hides
    exact absurd hides (by decide)
  have noLine' : byte' ≠ cr := by
    rcases same with rfl | ⟨-, key⟩
    · exact noLine
    · exact key.1
  unfold Common.ordinary
  rw [Prog.run_emit_bind, Prog.run_emit_bind, run_user_bind, run_user_bind,
    twin.stage, if_neg notNew, if_neg notNew, if_neg noLine, if_neg noLine']
  refine .prepend ?_ ?_ ?_ ?_
  · simp [onlooker, noLine]
  · simp [onlooker, noLine']
  · simp [onlooker, Observer.seen, noLine, noLine']
  · rcases same with rfl | ⟨key, key'⟩
    · by_cases ignored : byte = 0 ∨ byte = lf
      · rw [if_pos ignored]
        exact .pure_intro twin
      · rw [if_neg ignored]
        by_cases erases : byte = asciiBS ∨ byte = asciiDEL
        · rw [if_pos erases]
          exact twin.rubOut
        · rw [if_neg erases]
          exact twin.typed byte byte
    · obtain ⟨-, notLf, notNul, notBS, notDEL, -⟩ := key
      obtain ⟨-, notLf', notNul', notBS', notDEL', -⟩ := key'
      rw [if_neg (not_or.mpr ⟨notNul, notLf⟩),
        if_neg (not_or.mpr ⟨notNul', notLf'⟩),
        if_neg (not_or.mpr ⟨notBS, notDEL⟩),
        if_neg (not_or.mpr ⟨notBS', notDEL'⟩)]
      exact twin.typed byte byte'

end Twin

/-- The onlooker stops at a return key. -/
theorem ordinary_cr
    (env : Env)
    (me : Nat)
    (core core' : Core)
    (rest rest' : Bytes)
    {related : Unit → Core → Unit → Core → Prop} :
    Indistinct onlooker related ((ordinary env me cr rest).run core)
      ((ordinary env me cr rest').run core') := by
  unfold ordinary
  rw [Prog.run_emit_bind, Prog.run_emit_bind]
  refine .prepend_stopped ?_ ?_ rfl
  · simp [onlooker]
  · simp [onlooker]

/-! ## Commands -/

/-- The flags that a command sets depend on the level and the flags. -/
theorem settle_flags
    (env : Env)
    (command : TeloptCommand)
    {user user' : User}
    (level : user.level = user'.level)
    (flags : user.flagsTelnet = user'.flagsTelnet) :
    (command.settle env user).flagsTelnet =
      (command.settle env user').flagsTelnet := by
  cases command with
  | option command code =>
      simp only [TeloptCommand.settle, TeloptCommand.settleOption]
      split_ifs <;> simp only [flags]
  | naws cols rows corrupt =>
      simp only [TeloptCommand.settle]
      split <;> simp only [TeloptCommand.settleSize, level, flags]
  | term termType =>
      simp only [TeloptCommand.settle, TeloptCommand.settleType, flags]
  | corruptTerm =>
      simp only [TeloptCommand.settle, TeloptCommand.settleType, flags]
  | ayt => exact flags
  | iac => exact flags
  | other => exact flags

namespace Twin

variable {me : Nat} {user : User} {core core' : Core}

/-- A command that is the same in both sessions. -/
theorem command
    (env : Env)
    (twin : Twin me user core core')
    (command : TeloptCommand) :
    Twin me (command.settle env user)
      (core.setUser me (command.settle env))
      (core'.setUser me (command.settle env)) := by
  obtain ⟨cols, rows, type, flags, same, -⟩ :=
    command.settle_negotiates env (core.users me)
  obtain ⟨_, _, _, _, sameUser, -⟩ := command.settle_negotiates env user
  refine ⟨?_, ?_, ?_, ?_⟩
  · have masks := (Blind.act_intro env command twin.masks).2.2.2
    obtain ⟨obs, ran, -⟩ := (act_changes env me command).runs core
    obtain ⟨obs', ran', -⟩ := (act_changes env me command).runs core'
    rwa [ran, ran'] at masks
  · rw [Core.users_setUser_self, same]
    exact twin.hides
  · rw [Core.users_setUser_self, same, sameUser]
    exact twin.level
  · rw [Core.users_setUser_self]
    exact settle_flags env command twin.level twin.flags

/-- What a command shows. -/
theorem act
    (env : Env)
    (twin : Twin me user core core')
    (command : TeloptCommand) :
    onlooker.Looks ((command.act env me).run core).obs ∧
      ((command.act env me).run core').obs =
        ((command.act env me).run core).obs := by
  obtain ⟨-, same, looks, -⟩ := Blind.act_intro env command twin.masks
  exact ⟨looks, same⟩

end Twin

theorem not_waits_of_text
    {byte : UInt8}
    (isText : byte ≠ telcmdIAC)
    (todo : Bytes) : ¬ Waits (byte :: todo) := by
  rintro (empty | ⟨isIAC, -⟩)
  · exact absurd empty (by simp)
  · exact isText (by simpa using isIAC)

theorem cr_ne_telcmdIAC : cr ≠ telcmdIAC := by decide

namespace Discreet

variable {env : Env} {user : User} {todo todo' : Bytes}
variable {later later' : List Bytes}

/-- Text at the front. -/
theorem of_text
    {byte byte' : UInt8}
    (discreet : Discreet env user (byte :: todo) later (byte' :: todo') later')
    (isText : byte ≠ telcmdIAC) :
    (byte = cr ∧ byte' = cr) ∨ Discreet env user todo later todo' later' := by
  have noIAC : ¬ (byte :: todo).head? = some telcmdIAC := by simpa using isText
  have noWait := not_waits_of_text isText todo
  cases discreet with
  | line => exact .inl ⟨rfl, rfl⟩
  | key _ rest => exact .inr rest
  | command isIAC => exact absurd isIAC noIAC
  | unknown stuck => exact absurd stuck.1 noIAC
  | packet waits => exact absurd waits noWait
  | done waits => exact absurd waits noWait

/-- A command at the front. -/
theorem of_command
    (discreet : Discreet env user todo later todo' later')
    (isIAC : todo.head? = some telcmdIAC) :
    (∃ command size, todo'.head? = some telcmdIAC ∧
        decodeCommand todo = some (command, size) ∧
        decodeCommand todo' = some (command, size) ∧
        ¬ Truncates todo command size ∧
        ((todo.drop size).head? ≠ some telcmdIAC →
          (command.settle env user).flagsTelnet.due = false) ∧
        Discreet env (command.settle env user) (todo.drop size) later
          (todo'.drop size) later') ∨
      (∃ option, Stuck todo ∧ Stuck todo' ∧
        todo[2]? = some option ∧ todo'[2]? = some option) ∨
      (Waits todo ∧ todo' = todo) := by
  cases discreet with
  | line => exact absurd isIAC (by simp [cr_ne_telcmdIAC])
  | key isText => exact absurd isIAC (by simpa using isText)
  | command _ isIAC' decoded decoded' whole known rest =>
      exact .inl ⟨_, _, isIAC', decoded, decoded', whole, known, rest⟩
  | unknown stuck stuck' option option' =>
      exact .inr (.inl ⟨_, stuck, stuck', option, option'⟩)
  | packet waits => exact .inr (.inr ⟨waits, rfl⟩)
  | done waits => exact .inr (.inr ⟨waits, rfl⟩)

/-- The text ends where another packet comes. -/
theorem of_packet
    {data data' : Bytes}
    (discreet : Discreet env user todo (data :: later) todo' (data' :: later'))
    (waits : Waits todo) :
    data.length < maxSize ∧ todo.length + data.length < 2 ^ 31 ∧
      Discreet env user (todo ++ data) later (todo' ++ data') later' := by
  cases discreet with
  | line => exact absurd waits (not_waits_of_text cr_ne_telcmdIAC _)
  | key isText => exact absurd waits (not_waits_of_text isText _)
  | command isIAC _ decoded =>
      rcases waits with rfl | ⟨-, undecoded, -⟩
      · exact absurd isIAC (by simp)
      · rw [undecoded] at decoded
        exact absurd decoded (by simp)
  | unknown stuck =>
      rcases waits with rfl | ⟨-, -, known, -⟩
      · exact absurd stuck.1 (by simp)
      · exact absurd stuck known
  | packet _ short small rest => exact ⟨short, small, rest⟩

end Discreet

/-! ## The telnet parser -/

/-- Two sessions whose pending bytes are read with these packets behind them,
and the user that negotiates. -/
structure Abreast
    (env : Env)
    (me : Nat)
    (user : User)
    (later later' : List Bytes)
    (reader reader' : Reader) : Prop where
  /-- The sessions differ only in their lines. -/
  twin : Twin me user reader.core reader'.core
  /-- The pending bytes are in the buffer. -/
  fits : ReadRule.Fits reader.buffer
  /-- The pending bytes are in the other buffer. -/
  fits' : ReadRule.Fits reader'.buffer
  /-- As many are pending. -/
  used : reader'.buffer.bpos = reader.buffer.bpos
  /-- They differ only in the keys. -/
  keys : List.Forall₂ SameKey reader.buffer.pending reader'.buffer.pending
  /-- They are discreet. -/
  discreet : Discreet env user reader.buffer.pending later
    reader'.buffer.pending later'

/-- Where the telnet parser is between two passes. -/
def Passing
    (env : Env)
    (me : Nat)
    (later later' : List Bytes)
    (reader reader' : Reader) : Prop :=
  ∃ user, Abreast env me user later later' reader reader' ∧
    (reader.buffer.pending.head? ≠ some telcmdIAC →
      user.flagsTelnet.due = false)

/-- How the loop of the telnet parser ends. -/
def Passed
    (env : Env)
    (me : Nat)
    (later later' : List Bytes)
    (complete : Bool)
    (reader : Reader)
    (complete' : Bool)
    (reader' : Reader) : Prop :=
  complete' = complete ∧
    ∃ user, Abreast env me user later later' reader reader' ∧
      if complete then
        reader.buffer.pending.head? ≠ some telcmdIAC ∧
          user.flagsTelnet.due = false
      else Waits reader.buffer.pending

/-- The first bytes are commands in both texts or in none. -/
theorem head_of_keys
    {todo todo' : Bytes}
    (keys : List.Forall₂ SameKey todo todo')
    (noIAC : todo.head? ≠ some telcmdIAC) : todo'.head? ≠ some telcmdIAC := by
  cases keys with
  | nil => simp
  | cons same rest =>
      rcases same with rfl | ⟨-, key⟩
      · simpa using noIAC
      · simpa using key.2.2.2.2.2

/-- A sub-option that is not known is told by the byte behind IAC SB. -/
theorem unknownOption_of_stuck
    {buffer : TeloptBuffer}
    (fits : ReadRule.Fits buffer)
    {option : UInt8}
    (stuck : Stuck buffer.pending)
    (isOption : buffer.pending[2]? = some option) :
    UnknownOption buffer ∧ buffer.buff.getD 2 0 = option := by
  obtain ⟨first, second, notNaws, notTerm⟩ := stuck
  rw [List.head?_eq_getElem?] at first
  have long : 2 < buffer.bpos := by
    rw [← length_pending fits.inside]
    exact (List.getElem?_eq_some_iff.mp isOption).1
  have read : ∀ position byte, position < buffer.bpos →
      buffer.pending[position]? = some byte →
        buffer.buff.getD position 0 = byte := by
    intro position byte inside isByte
    rw [← pending_getD inside, List.getD_eq_getElem?_getD, isByte]
    rfl
  have third := read 2 option long isOption
  rw [isOption] at notNaws notTerm
  refine ⟨⟨by omega, read 0 _ (by omega) first, read 1 _ (by omega) second,
    ?_, ?_⟩, third⟩
  · rw [third]
    exact fun same => notNaws (congrArg some same)
  · rw [third]
    exact fun same => notTerm (congrArg some same)

/-- What two passes lead to. -/
def Onward
    (env : Env)
    (me : Nat)
    (later later' : List Bytes)
    (answer : Unit ⊕ Bool)
    (reader : Reader)
    (answer' : Unit ⊕ Bool)
    (reader' : Reader) : Prop :=
  Sum.LiftRel (fun _ _ => Passing env me later later' reader reader')
    (fun complete complete' =>
      Passed env me later later' complete reader complete' reader')
    answer answer'

section Parser

variable {env : Env} {me : Nat} {user : User}
variable {later later' : List Bytes} {reader reader' : Reader}

namespace Abreast

theorem length_pending
    (abreast : Abreast env me user later later' reader reader') :
    reader'.buffer.pending.length = reader.buffer.pending.length :=
  abreast.keys.length_eq.symm

/-- A pass over text ends the loop. -/
theorem pass_text
    (abreast : Abreast env me user later later' reader reader')
    (noIAC : reader.buffer.pending.head? ≠ some telcmdIAC)
    (notDue : user.flagsTelnet.due = false) :
    Indistinct onlooker (Onward env me later later')
      ((teloptPass env me ()).run reader)
      ((teloptPass env me ()).run reader') := by
  rw [run_teloptPass_text env me reader.core abreast.fits.inside noIAC,
    run_teloptPass_text env me reader'.core abreast.fits'.inside
      (head_of_keys abreast.keys noIAC)]
  exact .returned onlooker.looks_nil onlooker.looks_nil rfl
    (.inr ⟨rfl, user, abreast, noIAC, notDue⟩)

/-- A pass over a command takes it away in both. -/
theorem pass_command
    (abreast : Abreast env me user later later' reader reader')
    {command : TeloptCommand}
    {size : Nat}
    (isIAC : reader.buffer.pending.head? = some telcmdIAC)
    (isIAC' : reader'.buffer.pending.head? = some telcmdIAC)
    (decoded : decodeCommand reader.buffer.pending = some (command, size))
    (decoded' : decodeCommand reader'.buffer.pending = some (command, size))
    (whole : ¬ Truncates reader.buffer.pending command size)
    (known : (reader.buffer.pending.drop size).head? ≠ some telcmdIAC →
      (command.settle env user).flagsTelnet.due = false)
    (rest : Discreet env (command.settle env user)
      (reader.buffer.pending.drop size) later
      (reader'.buffer.pending.drop size) later') :
    Indistinct onlooker (Onward env me later later')
      ((teloptPass env me ()).run reader)
      ((teloptPass env me ()).run reader') := by
  have whole' : ¬ Truncates reader'.buffer.pending command size := by
    rwa [Truncates, abreast.length_pending]
  have inside := (decodeCommand_size decoded).2
  have inside' := (decodeCommand_size decoded').2
  rw [Common.length_pending abreast.fits.inside] at inside
  rw [Common.length_pending abreast.fits'.inside] at inside'
  obtain ⟨left, fits, used⟩ := ReadRule.pending_after abreast.fits inside whole
  obtain ⟨left', fits', used'⟩ :=
    ReadRule.pending_after abreast.fits' inside' whole'
  obtain ⟨looks, same⟩ := abreast.twin.act env command
  rw [run_teloptPass_decoded env me reader.core abreast.fits.inside
      abreast.fits.wide isIAC decoded,
    run_teloptPass_decoded env me reader'.core abreast.fits'.inside
      abreast.fits'.wide isIAC' decoded', same]
  obtain ⟨looksPass, seen⟩ := onlooker_pass looks me reader.buffer.pending
    (toInt size) (reader.buffer.after command size)
  obtain ⟨looksPass', seen'⟩ := onlooker_pass looks me reader'.buffer.pending
    (toInt size) (reader'.buffer.after command size)
  refine .returned looksPass looksPass' (seen.trans seen'.symm)
    (.inl ⟨command.settle env user, ?_, ?_⟩)
  · refine ⟨abreast.twin.command env command, fits, fits', ?_, ?_, ?_⟩
    · simp only [used, used', abreast.used]
    · simp only [left, left']
      exact List.forall₂_drop size abreast.keys
    · simpa only [left, left'] using rest
  · simpa only [left] using known

/-- A pass over an unfinished command ends the loop. -/
theorem pass_waits
    (abreast : Abreast env me user later later' reader reader')
    (isIAC : reader.buffer.pending.head? = some telcmdIAC)
    (waits : Waits reader.buffer.pending)
    (same : reader'.buffer.pending = reader.buffer.pending) :
    Indistinct onlooker (Onward env me later later')
      ((teloptPass env me ()).run reader)
      ((teloptPass env me ()).run reader') := by
  obtain ⟨undecoded, known, whole⟩ : decodeCommand reader.buffer.pending = none ∧
      ¬ Stuck reader.buffer.pending ∧ ¬ PartialSize reader.buffer.pending := by
    rcases waits with empty | ⟨-, undecoded, known, whole⟩
    · rw [empty] at isIAC
      exact absurd isIAC (by simp)
    · exact ⟨undecoded, known, whole⟩
  have unchanged : reader.buffer.incomplete = id := by
    funext user
    rw [TeloptBuffer.incomplete, if_neg whole, id]
  have unchanged' : reader'.buffer.incomplete = id := by
    funext user
    rw [TeloptBuffer.incomplete, same, if_neg whole, id]
  rw [run_teloptPass_incomplete env me reader.core abreast.fits.inside
      abreast.fits.wide isIAC undecoded known,
    run_teloptPass_incomplete env me reader'.core abreast.fits'.inside
      abreast.fits'.wide (by rw [same]; exact isIAC)
      (by rw [same]; exact undecoded) (by rw [same]; exact known),
    unchanged, unchanged', Core.setUser_id, Core.setUser_id]
  refine .returned (by simp [onlooker]) (by simp [onlooker]) ?_
    (.inr ⟨rfl, user, abreast, waits⟩)
  simp [onlooker, Observer.seen]

/-- A pass over a sub-option that is not known changes nothing. -/
theorem pass_unknown
    (abreast : Abreast env me user later later' reader reader')
    {option : UInt8}
    (stuck : Stuck reader.buffer.pending)
    (stuck' : Stuck reader'.buffer.pending)
    (isOption : reader.buffer.pending[2]? = some option)
    (isOption' : reader'.buffer.pending[2]? = some option) :
    Indistinct onlooker (Onward env me later later')
      ((teloptPass env me ()).run reader)
      ((teloptPass env me ()).run reader') := by
  obtain ⟨unknown, read⟩ := unknownOption_of_stuck abreast.fits stuck isOption
  obtain ⟨unknown', read'⟩ :=
    unknownOption_of_stuck abreast.fits' stuck' isOption'
  have blind : Blind me (unknownOption me option) := Blind.uPrintf_intro _
  obtain ⟨-, same, looks, -⟩ := blind abreast.twin.masks
  rw [run_teloptPass_unknown env me reader.core abreast.fits.inside
      abreast.fits.wide unknown,
    run_teloptPass_unknown env me reader'.core abreast.fits'.inside
      abreast.fits'.wide unknown', read, read', same]
  obtain ⟨looksPass, seen⟩ := onlooker_pass looks me reader.buffer.pending 0
    reader.buffer
  obtain ⟨looksPass', seen'⟩ := onlooker_pass looks me reader'.buffer.pending 0
    reader'.buffer
  refine .returned looksPass looksPass' (seen.trans seen'.symm)
    (.inl ⟨user, abreast, fun noIAC => absurd stuck.1 noIAC⟩)

end Abreast

/-- A pass of the telnet parser. -/
theorem Passing.pass (passing : Passing env me later later' reader reader') :
    Indistinct onlooker (Onward env me later later')
      ((teloptPass env me ()).run reader)
      ((teloptPass env me ()).run reader') := by
  obtain ⟨user, abreast, notDue⟩ := passing
  by_cases isIAC : reader.buffer.pending.head? = some telcmdIAC
  · rcases abreast.discreet.of_command isIAC with
      ⟨command, size, isIAC', decoded, decoded', whole, known, rest⟩ |
        ⟨option, stuck, stuck', isOption, isOption'⟩ | ⟨waits, same⟩
    · exact abreast.pass_command isIAC isIAC' decoded decoded' whole known rest
    · exact abreast.pass_unknown stuck stuck' isOption isOption'
    · exact abreast.pass_waits isIAC waits same
  · exact abreast.pass_text isIAC (notDue isIAC)

/-- Nothing happens while the negotiation goes on. -/
theorem run_gotTelopt_notDue
    (env : Env)
    {me : Nat}
    {reader : Reader}
    (notDue : (reader.core.users me).flagsTelnet.due = false) :
    (onCore (gotTelopt env me)).run reader = ⟨.ok (), reader, []⟩ := by
  simp [onCore, Prog.run_zoom, gotTelopt, notDue]

/-- The telnet parser, when no negotiation ends. -/
theorem Passing.parseTelopt
    (passing : Passing env me later later' reader reader') :
    Indistinct onlooker (Passed env me later later')
      ((Common.parseTelopt env me).run reader)
      ((Common.parseTelopt env me).run reader') := by
  have used : reader'.buffer.bpos = reader.buffer.bpos := by
    obtain ⟨user, abreast, -⟩ := passing
    exact abreast.used
  rw [Common.parseTelopt, Prog.run_get_bind, Prog.run_get_bind, used]
  refine .bind _ (.loop (fun _ reader _ reader' =>
    Passing env me later later' reader reader')
    (fun _ _ _ _ passing => passing.pass) _ _ passing) ?_
  rintro complete reader complete' reader' ⟨rfl, user, abreast, ended⟩
  cases complete' with
  | false => exact .pure_intro ⟨rfl, user, abreast, ended⟩
  | true =>
      have notDue : (reader.core.users me).flagsTelnet.due = false := by
        rw [abreast.twin.flags]
        exact ended.2
      have notDue' : (reader'.core.users me).flagsTelnet.due = false := by
        rw [abreast.twin.flags']
        exact ended.2
      simp only [if_true]
      rw [Prog.run_bind_ok (run_gotTelopt_notDue env notDue),
        Prog.run_bind_ok (run_gotTelopt_notDue env notDue')]
      exact .pure_intro ⟨rfl, user, abreast, ended⟩

end Parser

/-! ## The reading loop -/

/-- Two sessions between packets. -/
def Between
    (env : Env)
    (me : Nat)
    (later later' : List Bytes)
    (reader reader' : Reader) : Prop :=
  ∃ user, Abreast env me user later later' reader reader' ∧
    Waits reader.buffer.pending

/-- The text that is still to be read. -/
def textAt (position : ReadPosition) (reader : Reader) : Bytes :=
  reader.buffer.pending ++ position.input.drop position.i

/-- Two sessions between two turns of their reading loops. -/
structure Turn
    (env : Env)
    (me : Nat)
    (user : User)
    (later later' : List Bytes)
    (position : ReadPosition)
    (reader : Reader)
    (position' : ReadPosition)
    (reader' : Reader) : Prop where
  /-- The sessions differ only in their lines. -/
  twin : Twin me user reader.core reader'.core
  /-- The turns read at the same place. -/
  i : position'.i = position.i
  /-- The count is the length of the input. -/
  whole : position.len = position.input.length
  /-- The other count is the length of the other input. -/
  whole' : position'.len = position'.input.length
  /-- The pending bytes are in the buffer. -/
  fits : ReadRule.Fits reader.buffer
  /-- The pending bytes are in the other buffer. -/
  fits' : ReadRule.Fits reader'.buffer
  /-- As many are pending. -/
  used : reader'.buffer.bpos = reader.buffer.bpos
  /-- The text can be counted. -/
  small : (textAt position reader).length < 2 ^ 31
  /-- The texts differ only in the keys. -/
  keys : List.Forall₂ SameKey (textAt position reader)
    (textAt position' reader')
  /-- The texts are discreet. -/
  discreet : Discreet env user (textAt position reader) later
    (textAt position' reader') later'
  /-- Pending bytes start a command, and more is to be read. -/
  unfinished : reader.buffer.bpos ≠ 0 → position.i < position.len ∧
    (textAt position reader).head? = some telcmdIAC

/-- What two turns lead to. -/
def TurnsTo
    (env : Env)
    (me : Nat)
    (later later' : List Bytes)
    (answer : ReadPosition ⊕ Unit)
    (reader : Reader)
    (answer' : ReadPosition ⊕ Unit)
    (reader' : Reader) : Prop :=
  Sum.LiftRel
    (fun position position' =>
      ∃ user, Turn env me user later later' position reader position' reader')
    (fun _ _ => Between env me later later' reader reader') answer answer'

section Loop

variable {env : Env} {me : Nat} {user : User}
variable {later later' : List Bytes}
variable {position position' : ReadPosition} {reader reader' : Reader}

theorem textAt_of_unused
    (position : ReadPosition)
    (unused : reader.buffer.bpos = 0) :
    textAt position reader = position.input.drop position.i := by
  rw [textAt, ReadRule.pending_of_zero unused, List.nil_append]

theorem length_textAt (fits : ReadRule.Fits reader.buffer) :
    (textAt position reader).length =
      reader.buffer.bpos + (position.input.length - position.i) := by
  rw [textAt, List.length_append, length_pending fits.inside,
    List.length_drop]

/-- The telnet parser is asked when a command stands at the front. -/
theorem parses_iff_head
    (whole : position.len = position.input.length)
    (inside : position.i < position.len)
    (unfinished : reader.buffer.bpos ≠ 0 →
      (textAt position reader).head? = some telcmdIAC) :
    Parses position reader ↔
      (textAt position reader).head? = some telcmdIAC := by
  have inInput : position.i < position.input.length := by
    rw [← whole]
    exact inside
  by_cases unused : reader.buffer.bpos = 0
  · rw [textAt_of_unused _ unused, List.drop_eq_getElem_cons inInput,
      List.head?_cons, Parses, List.getD_eq_getElem?_getD,
      List.getElem?_eq_getElem inInput]
    simp [inside, unused]
  · exact ⟨fun _ => unfinished unused, fun _ => ⟨inside, .inr unused⟩⟩

namespace Turn

/-- As much is still to be read in both. -/
theorem inside_iff
    (turn : Turn env me user later later' position reader position' reader') :
    position'.i < position'.len ↔ position.i < position.len := by
  have same := turn.keys.length_eq
  rw [length_textAt turn.fits, length_textAt turn.fits', turn.used,
    turn.i] at same
  rw [turn.whole, turn.whole', turn.i]
  omega

/-- A byte of the text is read. -/
theorem readByte
    (turn : Turn env me user later later' position reader position' reader')
    (unused : reader.buffer.bpos = 0)
    (inside : position.i < position.len)
    (noIAC : (textAt position reader).head? ≠ some telcmdIAC) :
    Indistinct onlooker (TurnsTo env me later later')
      ((Common.readByte env me position).run reader)
      ((Common.readByte env me position').run reader') := by
  have unused' : reader'.buffer.bpos = 0 := turn.used.trans unused
  have inside' := turn.inside_iff.mpr inside
  rw [turn.whole] at inside
  rw [turn.whole'] at inside'
  have keys := turn.keys
  have discreet := turn.discreet
  have small := turn.small
  rw [textAt_of_unused _ unused] at keys discreet noIAC small
  rw [textAt_of_unused _ unused'] at keys discreet
  rw [List.drop_eq_getElem_cons inside] at keys discreet noIAC small
  rw [List.drop_eq_getElem_cons inside'] at keys discreet
  have isText : position.input[position.i] ≠ telcmdIAC := fun isIAC =>
    noIAC (by rw [List.head?_cons, isIAC])
  obtain ⟨same, keys⟩ := List.forall₂_cons.mp keys
  rw [Common.readByte, Common.readByte, charAt_of_lt inside,
    charAt_of_lt inside', checked_ok, checked_ok, Prog.run_pure_bind,
    Prog.run_pure_bind]
  by_cases isCr : position.input[position.i] = cr
  · have isCr' : position'.input[position'.i] = cr := by
      rcases same with same | ⟨key, -⟩
      · rw [← same, isCr]
      · exact absurd isCr key.1
    rw [isCr, isCr']
    refine .bind (fun _ _ _ _ => False)
      (.zoom (fun _ _ _ _ => False) (ordinary_cr ..) ?_) ?_
    · exact fun _ _ _ _ impossible => impossible
    · exact fun _ _ _ _ impossible => impossible.elim
  · have rest := (discreet.of_text isText).resolve_left fun both => isCr both.1
    refine .bind (fun _ reached _ reached' =>
      Twin me user reached.core reached'.core ∧
        reached.buffer = reader.buffer ∧ reached'.buffer = reader'.buffer)
      (.zoom _ (turn.twin.ordinary env same isCr _ _) ?_) ?_
    · exact fun _ _ _ _ twin => ⟨twin, rfl, rfl⟩
    · rintro _ ⟨reached, _⟩ _ ⟨reached', _⟩ ⟨twin, rfl, rfl⟩
      have text : textAt { position with i := position.i + 1 }
          ⟨reached, reader.buffer⟩ = position.input.drop (position.i + 1) :=
        textAt_of_unused _ unused
      have text' : textAt { position' with i := position'.i + 1 }
          ⟨reached', reader'.buffer⟩ =
            position'.input.drop (position'.i + 1) :=
        textAt_of_unused _ unused'
      refine .pure_intro (.inl ⟨user, twin, ?_, turn.whole, turn.whole',
        turn.fits, turn.fits', turn.used, ?_, ?_, ?_, ?_⟩)
      · simp only [turn.i]
      · rw [text]
        exact Nat.lt_of_succ_lt small
      · rwa [text, text']
      · rwa [text, text']
      · exact fun used => absurd unused used

end Turn

/-- The rest of a turn that has handed the text to the telnet parser. -/
theorem Passing.afterTelopt
    (passing : Passing env me later later' reader reader') :
    Indistinct onlooker (TurnsTo env me later later')
      ((ReadRule.afterTelopt env me).run reader)
      ((ReadRule.afterTelopt env me).run reader') := by
  refine .bind _ passing.parseTelopt ?_
  rintro complete ⟨core, buffer⟩ complete' ⟨core', buffer'⟩
    ⟨rfl, user, abreast, ended⟩
  cases complete' with
  | false => exact .pure_intro (.inr ⟨user, abreast, ended⟩)
  | true =>
      simp only [if_true]
      rw [Prog.run_get_bind, Prog.run_get_bind]
      have used : buffer'.bpos = buffer.bpos := abreast.used
      simp only [used]
      by_cases unused : buffer.bpos = 0
      · rw [if_pos unused, if_pos unused]
        exact .pure_intro (.inr ⟨user, abreast,
          .inl (ReadRule.pending_of_zero unused)⟩)
      · have fits : ReadRule.Fits buffer := abreast.fits
        have fits' : ReadRule.Fits buffer' := abreast.fits'
        have length := length_pending fits.inside
        have length' := length_pending fits'.inside
        rw [if_neg unused, if_neg unused,
          substrCount_of_le _ (Nat.zero_le _),
          substrCount_of_le _ (Nat.zero_le _), checked_ok, checked_ok,
          Prog.run_pure_bind, Prog.run_pure_bind, Prog.run_modify_bind,
          Prog.run_modify_bind, List.drop_zero, List.drop_zero]
        have text : textAt ⟨buffer.pending, buffer.bpos, 0⟩
            ⟨core, { buffer with bpos := 0 }⟩ = buffer.pending :=
          textAt_of_unused _ rfl
        have text' : textAt ⟨buffer'.pending, buffer.bpos, 0⟩
            ⟨core', { buffer' with bpos := 0 }⟩ = buffer'.pending :=
          textAt_of_unused _ rfl
        have turn : Turn env me user later later'
            ⟨buffer.pending, buffer.bpos, 0⟩ ⟨core, { buffer with bpos := 0 }⟩
            ⟨buffer'.pending, buffer.bpos, 0⟩
            ⟨core', { buffer' with bpos := 0 }⟩ := by
          refine ⟨abreast.twin, rfl, length.symm, ?_, ⟨Nat.zero_le _, ?_⟩,
            ⟨Nat.zero_le _, ?_⟩, rfl, ?_, ?_, ?_, ?_⟩
          · rw [length', used]
          · exact Nat.two_pow_pos 31
          · exact Nat.two_pow_pos 31
          · rw [text, length]
            exact fits.small
          · rw [text, text']
            exact abreast.keys
          · rw [text, text']
            exact abreast.discreet
          · exact fun used => absurd rfl used
        have inside : 0 < buffer.bpos := Nat.pos_of_ne_zero unused
        have read := turn.readByte rfl inside (by rw [text]; exact ended.1)
        simpa only [TeloptBuffer.pending, used] using read

namespace Turn

theorem honest
    (turn : Turn env me user later later' position reader position' reader') :
    Honest position reader where
  whole := turn.whole
  fits := turn.fits
  small := by
    rw [← length_pending turn.fits.inside, ← List.length_append]
    exact turn.small

theorem honest'
    (turn : Turn env me user later later' position reader position' reader') :
    Honest position' reader' where
  whole := turn.whole'
  fits := turn.fits'
  small := by
    rw [← length_pending turn.fits'.inside, ← List.length_append]
    exact turn.keys.length_eq ▸ turn.small

/-- Both texts start with a command or none does. -/
theorem head_iff
    (turn : Turn env me user later later' position reader position' reader') :
    (textAt position' reader').head? = some telcmdIAC ↔
      (textAt position reader).head? = some telcmdIAC := by
  have back : List.Forall₂ SameKey (textAt position' reader')
      (textAt position reader) := by
    refine turn.keys.flip.imp fun byte byte' same => ?_
    exact same.imp Eq.symm And.symm
  exact ⟨not_imp_not.mp (head_of_keys turn.keys),
    not_imp_not.mp (head_of_keys back)⟩

/-- The telnet parser is asked in both when a command stands at the front. -/
theorem parses_iff
    (turn : Turn env me user later later' position reader position' reader')
    (inside : position.i < position.len) :
    (Parses position reader ↔
        (textAt position reader).head? = some telcmdIAC) ∧
      (Parses position' reader' ↔
        (textAt position reader).head? = some telcmdIAC) := by
  constructor
  · exact parses_iff_head turn.whole inside fun used =>
      (turn.unfinished used).2
  · rw [← turn.head_iff]
    apply parses_iff_head turn.whole' (turn.inside_iff.mpr inside)
    intro used
    rw [turn.head_iff]
    exact (turn.unfinished (turn.used ▸ used)).2

/-- A turn of the two reading loops. -/
theorem readPass
    (turn : Turn env me user later later' position reader position' reader') :
    Indistinct onlooker (TurnsTo env me later later')
      ((Common.readPass env me position).run reader)
      ((Common.readPass env me position').run reader') := by
  by_cases inside : position.i < position.len
  · obtain ⟨parses, parses'⟩ := turn.parses_iff inside
    by_cases isIAC : (textAt position reader).head? = some telcmdIAC
    · obtain ⟨joined, fits, used, pending, -, -, ran⟩ :=
        readPass_parses env me turn.honest (parses.mpr isIAC)
      obtain ⟨joined', fits', used', pending', -, -, ran'⟩ :=
        readPass_parses env me turn.honest' (parses'.mpr isIAC)
      rw [ran, ran']
      refine Passing.afterTelopt ⟨user, ⟨turn.twin, fits, fits', ?_, ?_, ?_⟩,
        fun noIAC => ?_⟩
      · have length := turn.keys.length_eq
        have all := length_pending fits.inside
        have all' := length_pending fits'.inside
        rw [pending] at all
        rw [pending'] at all'
        simp only [textAt] at length
        simp only
        omega
      · rw [pending, pending']
        exact turn.keys
      · rw [pending, pending']
        exact turn.discreet
      · rw [pending] at noIAC
        exact absurd isIAC noIAC
    · have unused : reader.buffer.bpos = 0 := by
        by_contra used
        exact isIAC (turn.unfinished used).2
      rw [readPass_reads env me turn.honest inside (mt parses.mp isIAC),
        readPass_reads env me turn.honest' (turn.inside_iff.mpr inside)
          (mt parses'.mp isIAC)]
      exact turn.readByte unused inside isIAC
  · have inside' := turn.inside_iff.not.mpr inside
    rw [Common.readPass, Common.readPass, if_neg inside, if_neg inside']
    have text : textAt position reader = reader.buffer.pending := by
      rw [textAt, List.drop_eq_nil_of_le, List.append_nil]
      rw [← turn.whole]
      omega
    have text' : textAt position' reader' = reader'.buffer.pending := by
      rw [textAt, List.drop_eq_nil_of_le, List.append_nil]
      rw [← turn.whole']
      omega
    have unused : reader.buffer.bpos = 0 := by
      by_contra used
      exact inside (turn.unfinished used).1
    have keys := turn.keys
    have discreet := turn.discreet
    rw [text, text'] at keys discreet
    exact .pure_intro (.inr ⟨user, ⟨turn.twin, turn.fits, turn.fits',
      turn.used, keys, discreet⟩, .inl (ReadRule.pending_of_zero unused)⟩)

end Turn

/-- A packet in both sessions. -/
theorem Between.uRead
    {data data' : Bytes}
    (between : Between env me (data :: later) (data' :: later') reader reader')
    (same : List.Forall₂ SameKey data data') :
    Indistinct onlooker
      (fun _ reached _ reached' => Between env me later later' reached reached')
      ((Common.uRead env me data).run reader)
      ((Common.uRead env me data').run reader') := by
  obtain ⟨user, abreast, waits⟩ := between
  obtain ⟨short, small, discreet⟩ := abreast.discreet.of_packet waits
  by_cases empty : data = []
  · obtain rfl : data = [] := empty
    obtain rfl : data' = [] := List.forall₂_nil_left_iff.mp same
    rw [List.append_nil, List.append_nil] at discreet
    rw [run_uRead_nil, run_uRead_nil]
    exact .returned (by simp [onlooker]) (by simp [onlooker])
      (by simp [onlooker, Observer.seen])
      ⟨user, { abreast with discreet := discreet }, waits⟩
  · have length := same.length_eq
    have positive := List.length_pos_of_ne_nil empty
    have raw : getRaw data = data := if_neg (by omega)
    have raw' : getRaw data' = data' := if_neg (by omega)
    have turn : Turn env me user later later' ⟨data, data.length, 0⟩ reader
        ⟨data', data.length, 0⟩ reader' := by
      refine ⟨abreast.twin, rfl, rfl, length, abreast.fits, abreast.fits',
        abreast.used, ?_, ?_, ?_, fun used => ⟨positive, ?_⟩⟩
      · simpa [textAt] using small
      · exact List.rel_append abreast.keys same
      · exact discreet
      · have some := length_pending abreast.fits.inside
        rcases waits with nothing | ⟨isIAC, -⟩
        · rw [nothing] at some
          exact absurd some.symm used
        · rw [textAt, List.head?_append, isIAC]
          rfl
    rw [Common.uRead, Common.uRead, Prog.run_get_bind, Prog.run_get_bind,
      Prog.run_emit_bind, Prog.run_emit_bind, abreast.used, ← length, raw, raw']
    refine .prepend (by simp [onlooker]) (by simp [onlooker])
      (by simp [onlooker, Observer.seen]) ?_
    refine .loop (fun position reader position' reader' =>
      ∃ user, Turn env me user later later' position reader position' reader')
      ?_ _ _ ⟨user, turn⟩
    rintro position reader position' reader' ⟨user, turn⟩
    exact turn.readPass

end Loop

/-- What the peers are sent, until a return key is read. -/
def screen (obs : List Obs) : List (Nat × Bytes) :=
  onlooker.seen obs

/-- In a stage that reads a password, nothing that is sent to a client before
it presses the return key depends on the ordinary bytes that it has sent. -/
theorem feed_screen
    (env : Env)
    (me : Nat)
    (core : Core)
    (buffer : TeloptBuffer)
    (packets packets' : List Bytes)
    (hides : (core.users me).stage.hidesInput = true)
    (unused : buffer.bpos = 0)
    (same : List.Forall₂ (List.Forall₂ SameKey) packets packets')
    (discreet : Discreet env (core.users me) [] packets [] packets') :
    screen ((feed env me packets).run ⟨core, buffer⟩).obs =
      screen ((feed env me packets').run ⟨core, buffer⟩).obs := by
  have pending : buffer.pending = [] := ReadRule.pending_of_zero unused
  have fits : ReadRule.Fits buffer := ⟨by omega, by omega⟩
  have start : Between env me packets packets' ⟨core, buffer⟩
      ⟨core, buffer⟩ := by
    refine ⟨core.users me, ⟨⟨.refl core me, hides, rfl, rfl⟩, fits, fits, rfl,
      ?_, ?_⟩, .inl pending⟩
    · simp [pending]
    · simpa only [pending] using discreet
  have step : ∀ data later reader data' later' reader',
      List.Forall₂ (List.Forall₂ SameKey) (data :: later) (data' :: later') ∧
        Between env me (data :: later) (data' :: later') reader reader' →
      Indistinct onlooker
        (fun _ reached _ reached' =>
          List.Forall₂ (List.Forall₂ SameKey) later later' ∧
            Between env me later later' reached reached')
        ((uRead env me data).run reader) ((uRead env me data').run reader') := by
    rintro data later reader data' later' reader' ⟨same, between⟩
    obtain ⟨first, rest⟩ := List.forall₂_cons.mp same
    exact (between.uRead first).mono fun _ _ _ _ between => ⟨rest, between⟩
  exact (Indistinct.forEach (fun packets reader packets' reader' =>
    List.Forall₂ (List.Forall₂ SameKey) packets packets' ∧
      Between env me packets packets' reader reader')
    step same.length_eq ⟨same, start⟩).seen

/-- Text in front of a discreet one. -/
theorem Discreet.append_text
    {env : Env}
    {user : User}
    {text text' todo todo' : Bytes}
    {later later' : List Bytes}
    (same : List.Forall₂ SameKey text text')
    (noIAC : ∀ byte ∈ text, byte ≠ telcmdIAC)
    (rest : Discreet env user todo later todo' later') :
    Discreet env user (text ++ todo) later (text' ++ todo') later' := by
  induction same with
  | nil => exact rest
  | cons first keys inductionHypothesis =>
      obtain ⟨isText, noIAC⟩ := List.forall_mem_cons.mp noIAC
      exact .key isText (inductionHypothesis noIAC)

/-- Packets without telnet commands are discreet, unless one is too long. -/
theorem discreet_of_text
    (env : Env)
    (user : User)
    {packets packets' : List Bytes}
    (same : List.Forall₂ (List.Forall₂ SameKey) packets packets')
    (text : ∀ data ∈ packets, data.length < maxSize ∧
      ∀ byte ∈ data, byte ≠ telcmdIAC) :
    Discreet env user [] packets [] packets' := by
  induction same with
  | nil => exact .done (.inl rfl)
  | @cons data data' later later' keys rest inductionHypothesis =>
      obtain ⟨⟨short, noIAC⟩, text⟩ := List.forall_mem_cons.mp text
      have small : ([] : Bytes).length + data.length < 2 ^ 31 := by
        unfold maxSize at short
        rw [List.length_nil]
        omega
      refine .packet (.inl rfl) short small ?_
      have read := Discreet.append_text keys noIAC (inductionHypothesis text)
      simpa using read

/-- A session that is asked for its password. -/
def asking : Core where
  users _ := { alive := true, client := some 0, stage := .loginPwd }
  protocols _ := { connected := true }
  connections _ := { state := .open }

/-- Two passwords in two packets, with a question of the client between. -/
theorem feed_screen_passwords :
    screen ((feed (Env.testing []) 0
        [lit "se", [telcmdIAC, telcmdAYT] ++ lit "cret" ++ [cr]]).run
          ⟨asking, {}⟩).obs =
      screen ((feed (Env.testing []) 0
        [lit "pa", [telcmdIAC, telcmdAYT] ++ lit "sswd" ++ [cr]]).run
          ⟨asking, {}⟩).obs := by
  apply feed_screen (Env.testing []) 0 asking {} _ _ rfl rfl (by decide)
  have answered : decodeCommand ([telcmdIAC, telcmdAYT] ++ lit "cret" ++ [cr]) =
      some (.ayt, 2) := rfl
  have answered' :
      decodeCommand ([telcmdIAC, telcmdAYT] ++ lit "sswd" ++ [cr]) =
        some (.ayt, 2) := rfl
  have line : Discreet (Env.testing []) (asking.users 0)
      (lit "cret" ++ [cr]) [] (lit "sswd" ++ [cr]) [] :=
    .append_text (by decide) (by decide +kernel) .line
  have rest : Discreet (Env.testing []) (asking.users 0) []
      [[telcmdIAC, telcmdAYT] ++ lit "cret" ++ [cr]] []
      [[telcmdIAC, telcmdAYT] ++ lit "sswd" ++ [cr]] :=
    .packet (.inl rfl) (by decide) (by decide)
      (.command rfl rfl answered answered' (by decide) (fun _ => rfl) line)
  exact .packet (.inl rfl) (by decide) (by decide)
    (show Discreet _ _ (lit "se" ++ []) _ (lit "pa" ++ []) _ from
      .append_text (by decide) (by decide +kernel) rest)

/-- The telnet parser shows a byte of the password that stands behind those in
use. -/
theorem staleByte_shown :
    ¬ ∀ (env : Env) (me : Nat) (core : Core) (buffer : TeloptBuffer)
        (packets packets' : List Bytes),
      (core.users me).stage.hidesInput = true → buffer.bpos = 0 →
      List.Forall₂ (List.Forall₂ SameKey) packets packets' →
      screen ((feed env me packets).run ⟨core, buffer⟩).obs =
        screen ((feed env me packets').run ⟨core, buffer⟩).obs := by
  intro always
  have same := always (Env.testing []) 0 asking {}
    [[telcmdIAC, telcmdAYT, 97, 98, 99, telcmdIAC, telcmdSB]]
    [[telcmdIAC, telcmdAYT, 97, 98, 100, telcmdIAC, telcmdSB]] rfl rfl
    (by decide)
  exact absurd same (by decide +kernel)

end Common
end Lotospp
