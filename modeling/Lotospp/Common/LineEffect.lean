import Lotospp.Common.ByteOutcome

/-!
# What a line can do

The ways in which a complete line of the login changes the state of the
server, each with the circumstances in which it is taken.
-/

namespace Lotospp
namespace Common

open Text Effect Commands

section Circumstances

variable (env : Env) (me : Nat) (line : Bytes) (core : Core)

/-- The line is read as a name and is no login command. -/
def ReadsName : Prop :=
  (core.users me).level = .login ∧ (core.users me).stage.readsName ∧
    LoginCom.search env.loginComEnd line ≠ LoginCom.quit ∧
    LoginCom.search env.loginComEnd line ≠ LoginCom.who ∧
    LoginCom.search env.loginComEnd line ≠ LoginCom.version

/-- The line abandons the login. -/
def AbandonsLogin : Prop :=
  (core.users me).level = .login ∧ (core.users me).stage.readsName ∧
    LoginCom.search env.loginComEnd line = LoginCom.quit

/-- The line names the account to log in to. -/
def EntersName : Prop :=
  ReadsName env me line core ∧ minUsernameLen ≤ line.length ∧
    line.length ≤ maxUsernameLen

/-- The session waits for a password. -/
def AwaitsPwd : Prop :=
  (core.users me).level = .login ∧ (core.users me).stage = .loginPwd

/-- The line is long enough and matches the cached hash, which is not
empty. -/
def RightPassword : Prop :=
  AwaitsPwd me core ∧ minPasswordLen ≤ line.length ∧
    ∃ password ∈ (core.users me).password,
      password ≠ [] ∧ password = env.crypt line password

/-- The line chooses the password of a new account. -/
def ChoosesPassword : Prop :=
  AwaitsPwd me core ∧ minPasswordLen ≤ line.length ∧
    ∀ password ∈ (core.users me).password, password = []

/-- The session waits for the confirmation of a chosen password. -/
def AwaitsReenter : Prop :=
  (core.users me).level = .login ∧ (core.users me).stage = .loginReenterPwd

/-- The line confirms the chosen password. -/
def Confirms : Prop :=
  AwaitsReenter me core ∧
    ∃ password ∈ (core.users me).password, password = env.crypt line password

/-- The line is a name of a bad length. -/
def BadName : Prop :=
  ReadsName env me line core ∧
    (line.length < minUsernameLen ∨ line.length > maxUsernameLen)

/-- The line is a wrong password. -/
def WrongPassword : Prop :=
  AwaitsPwd me core ∧
    (line.length < minPasswordLen ∨
      ∃ password ∈ (core.users me).password,
        password ≠ [] ∧ password ≠ env.crypt line password)

/-- The line does not confirm the chosen password. -/
def Mistypes : Prop :=
  AwaitsReenter me core ∧
    ∃ password ∈ (core.users me).password, password ≠ env.crypt line password

/-- The line is a failed attempt. -/
def FailsAttempt : Prop :=
  BadName env me line core ∨ WrongPassword env me line core ∨
    Mistypes env me line core

instance : Decidable (ReadsName env me line core) :=
  inferInstanceAs (Decidable (_ ∧ _ ∧ _ ∧ _ ∧ _))

instance : Decidable (EntersName env me line core) :=
  inferInstanceAs (Decidable (_ ∧ _ ∧ _))

instance : Decidable (AwaitsPwd me core) :=
  inferInstanceAs (Decidable (_ ∧ _))

instance : Decidable (RightPassword env me line core) :=
  inferInstanceAs (Decidable (_ ∧ _ ∧ _))

instance : Decidable (ChoosesPassword me line core) :=
  inferInstanceAs (Decidable (_ ∧ _ ∧ _))

instance : Decidable (AwaitsReenter me core) :=
  inferInstanceAs (Decidable (_ ∧ _))

instance : Decidable (Confirms env me line core) :=
  inferInstanceAs (Decidable (_ ∧ _))

instance : Decidable (BadName env me line core) :=
  inferInstanceAs (Decidable (_ ∧ _))

instance : Decidable (WrongPassword env me line core) :=
  inferInstanceAs (Decidable (_ ∧ _))

instance : Decidable (Mistypes env me line core) :=
  inferInstanceAs (Decidable (_ ∧ _))

instance : Decidable (FailsAttempt env me line core) :=
  inferInstanceAs (Decidable (_ ∨ _ ∨ _))

end Circumstances

/-- A failed attempt belongs to a login. -/
theorem FailsAttempt.level
    {env : Env}
    {me : Nat}
    {line : Bytes}
    {core : Core}
    (fails : FailsAttempt env me line core) :
    (core.users me).level = .login := by
  rcases fails with bad | wrong | mistyped
  · exact bad.1.1
  · exact wrong.1.1
  · exact mistyped.1.1

/-- A new account is written to the database. -/
def Core.created
    (core : Core)
    (env : Env)
    (me : Nat)
    (password : Bytes) : Nat × Database.Users :=
  createOutcome env.dbFails (core.users me).name password
    UserLevel.novice.value.toNat core.db

/-- What a complete line can do. -/
inductive LineEffect
    (env : Env)
    (me : Nat)
    (line : Bytes)
    (core : Core) : Except Abort Unit × Core → Prop
  /-- The line is answered, or ignored. -/
  | answers
      (level : (core.users me).level = .login) :
      LineEffect env me line core (.ok (), core)
  /-- The login is abandoned. -/
  | abandons
      (abandons : AbandonsLogin env me line core) :
      LineEffect env me line core (.error (.stage .disconnect), core)
  /-- An attempt fails. -/
  | fails
      (fails : FailsAttempt env me line core) :
      LineEffect env me line core (.ok (), core.attempted me)
  /-- A name is entered. -/
  | names
      (entered : EntersName env me line core) :
      LineEffect env me line core (.ok (), core.named env me line)
  /-- A password is chosen. -/
  | chooses
      (chosen : ChoosesPassword me line core) :
      LineEffect env me line core (.ok (), core.chosen env me line)
  /-- The password is right, but the level cannot be converted. -/
  | throws
      (right : RightPassword env me line core)
      {abort : Abort}
      {reached : Core}
      (loaded : loadOutcome env me (core.users me).name false core =
        (.error abort, reached)) :
      LineEffect env me line core (.error abort, reached)
  /-- The password is right. -/
  | admits
      (right : RightPassword env me line core)
      {found : Bool}
      {reached : Core}
      (loaded : loadOutcome env me (core.users me).name false core =
        (.ok found, reached)) :
      LineEffect env me line core (connectOutcome me (reached.admitted me))
  /-- The password is confirmed. -/
  | confirms
      (confirmed : Confirms env me line core)
      (client : (core.users me).client ≠ none)
      {password : Bytes}
      (cached : (core.users me).password = some password) :
      LineEffect env me line core
        (.ok (), core.registered me (core.created env me password).1
          (core.created env me password).2)
  /-- A pointer that is followed for the confirmation is null. -/
  | stumbles
      (awaits : AwaitsReenter me core)
      (missing : (core.users me).password = none ∨
        (core.users me).client = none) :
      LineEffect env me line core (.error .nullPointer, core)
  /-- The line is parsed for a command. -/
  | parses
      (level : (core.users me).level ≠ .login) :
      LineEffect env me line core (parseOutcome me core)

theorem nameOutcome_effect
    (env : Env)
    (me : Nat)
    (line : Bytes)
    {core : Core}
    (level : (core.users me).level = .login)
    (stage : (core.users me).stage.readsName) :
    LineEffect env me line core (nameOutcome env me line core) := by
  unfold nameOutcome
  simp only
  split
  · rename_i isQuit
    exact .abandons ⟨level, stage, isQuit⟩
  · rename_i notQuit
    split
    · exact .answers level
    · rename_i notAnswer
      obtain ⟨notWho, notVersion⟩ := not_or.mp notAnswer
      have reads : ReadsName env me line core :=
        ⟨level, stage, notQuit, notWho, notVersion⟩
      split
      · rename_i bad
        exact .fails (.inl ⟨reads, bad⟩)
      · rename_i good
        exact .names ⟨reads, by omega, by omega⟩

theorem pwdOutcome_effect
    (env : Env)
    {me : Nat}
    (line : Bytes)
    {core : Core}
    (awaits : AwaitsPwd me core) :
    LineEffect env me line core (pwdOutcome env me line core) := by
  unfold pwdOutcome
  split
  · rename_i short
    exact .fails (.inr (.inl ⟨awaits, .inl short⟩))
  · rename_i notShort
    have long : minPasswordLen ≤ line.length := not_lt.mp notShort
    split
    · rename_i cached
      exact .chooses ⟨awaits, long, by simp [cached]⟩
    · rename_i cached
      exact .chooses ⟨awaits, long, by simp [cached]⟩
    · rename_i password nonempty cached
      have notEmpty : password ≠ [] := by
        rintro rfl
        exact nonempty rfl
      split
      · rename_i matching
        have right : RightPassword env me line core :=
          ⟨awaits, long, password, cached, notEmpty, matching⟩
        split
        · rename_i loaded
          exact .throws right loaded
        · rename_i loaded
          exact .admits right loaded
      · rename_i different
        exact .fails (.inr (.inl ⟨awaits, .inr
          ⟨password, cached, notEmpty, different⟩⟩))

theorem reenterOutcome_effect
    (env : Env)
    {me : Nat}
    (line : Bytes)
    {core : Core}
    (awaits : AwaitsReenter me core) :
    LineEffect env me line core (reenterOutcome env me line core) := by
  unfold reenterOutcome
  split
  · rename_i missing
    exact .stumbles awaits (.inl missing)
  · rename_i password cached
    split
    · rename_i matching
      split
      · rename_i missing
        exact .stumbles awaits (.inr missing)
      · rename_i protocol client
        exact .confirms ⟨awaits, password, cached, matching⟩ (by simp [client])
          cached
    · rename_i different
      exact .fails (.inr (.inr ⟨awaits, password, cached, different⟩))

/-- What a line does is one of these. -/
theorem lineOutcome_effect
    (env : Env)
    (me : Nat)
    (line : Bytes)
    (core : Core) :
    LineEffect env me line core (lineOutcome env me line core) := by
  unfold lineOutcome
  split
  · rename_i level
    unfold loginOutcome
    cases stage : (core.users me).stage with
    | new => exact nameOutcome_effect env me line level (by rw [stage]; rfl)
    | loginId =>
        exact nameOutcome_effect env me line level (by rw [stage]; rfl)
    | loginName =>
        exact nameOutcome_effect env me line level (by rw [stage]; rfl)
    | loginPwd => exact pwdOutcome_effect env line ⟨level, stage⟩
    | loginReenterPwd => exact reenterOutcome_effect env line ⟨level, stage⟩
    | _ => exact .answers level
  · rename_i level
    exact .parses level

/-! ## What a line leaves alone -/

/-- A user keeps its terminal size and the position in its line, does not get
back to the first stage, and has no NUL in its line. -/
structure Core.Stays (core reached : Core) (me : Nat) : Prop where
  /-- The position in the line. -/
  tbpos : (reached.users me).tbpos = (core.users me).tbpos
  /-- The width of the terminal. -/
  termCols : (reached.users me).termCols = (core.users me).termCols
  /-- The height of the terminal. -/
  termRows : (reached.users me).termRows = (core.users me).termRows
  /-- The options have been negotiated. -/
  started : (core.users me).stage ≠ .new → (reached.users me).stage ≠ .new
  /-- No NUL has been typed. -/
  noNul : (core.users me).NoNul → (reached.users me).NoNul

namespace Core.Stays

theorem of_users
    {core reached : Core}
    (same : reached.users = core.users)
    (me : Nat) : core.Stays reached me := by
  constructor <;> rw [same]
  · exact id
  · exact id

theorem refl (core : Core) (me : Nat) : core.Stays core me :=
  of_users rfl me

theorem trans
    {core middle reached : Core}
    {me : Nat}
    (stays : core.Stays middle me)
    (staysNext : middle.Stays reached me) : core.Stays reached me where
  tbpos := staysNext.tbpos.trans stays.tbpos
  termCols := staysNext.termCols.trans stays.termCols
  termRows := staysNext.termRows.trans stays.termRows
  started started := staysNext.started (stays.started started)
  noNul noNul := staysNext.noNul (stays.noNul noNul)

/-- A change of some user that keeps these members. -/
theorem setUser
    {change : User → User}
    (keeps : ∀ user : User,
      ((change user).tbpos, (change user).termCols, (change user).termRows,
          (change user).textBuffer) =
        (user.tbpos, user.termCols, user.termRows, user.textBuffer))
    (started : ∀ user : User,
      user.stage ≠ .new → (change user).stage ≠ .new)
    (core : Core)
    (me other : Nat) : core.Stays (core.setUser me change) other := by
  have kept := keeps (core.users me)
  simp only [Prod.mk.injEq] at kept
  obtain ⟨tbpos, termCols, termRows, textBuffer⟩ := kept
  constructor <;> rw [Core.users_setUser] <;> split
  all_goals rename_i same
  all_goals try rfl
  · rw [tbpos, same]
  · rw [termCols, same]
  · rw [termRows, same]
  · rw [same]
    exact started _
  · exact id
  · rw [User.NoNul, User.NoNul, textBuffer, same]
    exact id
  · exact id

/-- A change of some user that also keeps its stage. -/
theorem edit
    {change : User → User}
    (keeps : ∀ user : User,
      ((change user).tbpos, (change user).termCols, (change user).termRows,
          (change user).textBuffer) =
        (user.tbpos, user.termCols, user.termRows, user.textBuffer))
    (stage : ∀ user : User, (change user).stage = user.stage)
    (core : Core)
    (me other : Nat) : core.Stays (core.setUser me change) other :=
  setUser keeps (fun user started => by rwa [stage]) core me other

variable (core : Core) (me : Nat)

theorem attempted : core.Stays (core.attempted me) me := by
  have counts : core.Stays (core.counted me) me :=
    edit (fun _ => by rfl) (fun _ => by rfl) core me me
  apply counts.trans
  unfold Core.attempted
  simp only
  split
  · refine of_users ?_ me
    exact (core.counted me).users_kicked me
  · exact setUser (fun _ => by rfl) (by simp) _ me me

theorem rejected (inpstr : Bytes) :
    core.Stays (core.rejected me inpstr) me := by
  apply @Core.rejected_intro core me inpstr fun now => core.Stays now me
  · exact refl core me
  · exact fun now stays => stays.trans (attempted now me)

theorem load (env : Env) (userName : Bytes) (preload : Bool) :
    core.Stays (loadOutcome env me userName preload core).2 me := by
  apply @loadOutcome_intro env me userName preload core
    fun now => core.Stays now me
  · exact of_users (by rfl) me
  · intro now row queried
    exact queried.trans (edit (fun _ => by rfl) (fun _ => by rfl) now me me)
  · intro now level queried
    exact queried.trans (edit (fun _ => by rfl) (fun _ => by rfl) now me me)

theorem named (env : Env) (inpstr : Bytes) :
    core.Stays (core.named env me inpstr) me := by
  have names : (core.rejected me inpstr).Stays
      ((core.rejected me inpstr).setUser me fun user =>
        { user with name := properName inpstr }) me :=
    edit (fun _ => by rfl) (fun _ => by rfl) _ me me
  unfold Core.named
  simp only
  refine (rejected core me inpstr).trans (names.trans ?_)
  apply trans (of_users (Core.users_cleared _ me) me)
  apply trans (load _ me env inpstr true)
  exact setUser (fun _ => by rfl) (by simp) _ me me

theorem chosen (env : Env) (inpstr : Bytes) :
    core.Stays (core.chosen env me inpstr) me := by
  constructor <;> simp [Core.chosen]
  exact id

theorem registered (guid : Nat) (db : Database.Users) :
    core.Stays (core.registered me guid db) me := by
  constructor <;> simp [Core.registered]
  exact id

theorem connect : core.Stays (connectOutcome me core).2 me := by
  unfold connectOutcome
  split
  · exact refl core me
  · rename_i other _
    have disconnects := of_users (core.users_disconnected other) me
    split
    · exact disconnects
    · rename_i protocol _
      have users : (core.takenOver me other protocol).users =
          (((core.disconnected other).setUser other fun user =>
            { user with client := some protocol }).setUser me fun user =>
              { user with client := none }).users := rfl
      refine disconnects.trans (trans ?_ (of_users users me))
      exact trans (edit (fun _ => by rfl) (fun _ => by rfl) _ other me)
        (edit (fun _ => by rfl) (fun _ => by rfl) _ me me)

end Core.Stays

/-- The command line changes no user. -/
theorem users_runOutcome (me : Nat) (core : Core) :
    (runOutcome me core).2.users = core.users := by
  have draws : (drawOutcome core).2.users = core.users := by
    unfold drawOutcome
    split <;> rfl
  apply @runOutcome_intro me core fun now => now.users = core.users
  · rfl
  · exact draws
  · exact (Core.users_kicked _ me).trans draws

theorem Core.Stays.parse (core : Core) (me : Nat) :
    core.Stays (parseOutcome me core).2 me := by
  have cleans : core.Stays (core.setUser me fun user =>
      user.setText (Strings.cleanString user.text)) me := by
    constructor <;> rw [Core.users_setUser_self]
    all_goals try rfl
    · exact id
    · exact fun noNul => noNul.setText (Strings.noNul_cleanString (noNul _))
  apply @parseOutcome_intro me core _ (fun now => core.Stays now me) rfl cleans
  · intro com
    apply cleans.trans
    generalize core.setUser me (fun user =>
      user.setText (Strings.cleanString user.text)) = cleaned
    have parsed : cleaned.Stays
        (cleaned.setUser me fun user => { user with com := com }) me :=
      edit (fun _ => by rfl) (fun _ => by rfl) cleaned me me
    apply parsed.trans
    unfold dispatchOutcome
    split
    · exact of_users (users_runOutcome me _) me
    · dsimp only
      exact setUser (fun _ => by rfl) (by simp) _ me me
  · intro now stays
    exact stays.trans (edit (fun _ => by rfl) (fun _ => by rfl) now me me)

/-- A line leaves its user's terminal size and position in the line alone. -/
theorem LineEffect.stays
    {env : Env}
    {me : Nat}
    {line : Bytes}
    {core : Core}
    {outcome : Except Abort Unit × Core}
    (effect : LineEffect env me line core outcome) :
    core.Stays outcome.2 me := by
  cases effect with
  | answers level => exact .refl core me
  | abandons abandons => exact .refl core me
  | fails fails => exact .attempted core me
  | names entered => exact .named core me env line
  | chooses chosen => exact .chosen core me env line
  | throws right loaded =>
      have loads := Core.Stays.load core me env (core.users me).name false
      rwa [loaded] at loads
  | admits right loaded =>
      have loads := Core.Stays.load core me env (core.users me).name false
      rw [loaded] at loads
      refine loads.trans (.trans ?_ (.connect _ me))
      exact .setUser (fun _ => by rfl) (by simp) _ me me
  | confirms confirmed client cached => exact .registered core me _ _
  | stumbles awaits missing => exact .refl core me
  | parses level => exact .parse core me

theorem lineOutcome_stays
    (env : Env)
    (me : Nat)
    (line : Bytes)
    (core : Core) : core.Stays (lineOutcome env me line core).2 me :=
  (lineOutcome_effect env me line core).stays

/-- A byte leaves the terminal size alone, and a started session goes on. -/
theorem byteOutcome_stays
    (env : Env)
    (me : Nat)
    (byte : UInt8)
    (core : Core) :
    ((byteOutcome env me byte core).2.users me).termCols =
        (core.users me).termCols ∧
      ((byteOutcome env me byte core).2.users me).termRows =
        (core.users me).termRows ∧
      ((core.users me).stage ≠ .new →
        ((byteOutcome env me byte core).2.users me).stage ≠ .new) := by
  have edits : ∀ reached : Core, core.Edits reached me →
      (reached.users me).termCols = (core.users me).termCols ∧
        (reached.users me).termRows = (core.users me).termRows ∧
        (reached.users me).stage = (core.users me).stage := by
    rintro _ ⟨textBuffer, tbpos, -, rfl⟩
    simp
  cases handed : handedOf me byte [] core with
  | none =>
      obtain ⟨cols, rows, stage⟩ := edits _ (byteOutcome_edits env handed)
      exact ⟨cols, rows, fun started => by rwa [stage]⟩
  | some line =>
      obtain ⟨-, complete, same, outcome⟩ := byteOutcome_line env handed
      obtain ⟨cols, rows, stage⟩ := edits _ (Core.edits_ended complete)
      have stays := lineOutcome_stays env me line.line line.core
      have taken : line.core = core.ended me line.line := by
        rw [same]
      rw [← taken] at cols rows stage
      rw [outcome]
      exact ⟨stays.termCols.trans cols, stays.termRows.trans rows,
        fun started => stays.started (by rwa [stage])⟩

end Common
end Lotospp
