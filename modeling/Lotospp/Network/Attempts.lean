import Lotospp.Common.Credentials
import Lotospp.Network.Invariant

/-!
# Login attempts

`User::login` counts the lines it rejects in the 8-bit counter `attempts`, and
`User::attempt` kicks the session when the counter reaches the limit.  A name
with a character that is not a letter is an exception: it is counted once for
every such character, and the login goes on with it all the same.
-/

namespace Lotospp
namespace Network

open Text Effect Common Commands

section Rejections

variable (env : Env) (me : Nat) (line : Bytes) (core : Core)

/-- A name of the right length with a character that is not a letter. -/
def NonLetters : Prop :=
  EntersName env me line core ∧ ∃ byte ∈ line, ¬ isAlpha byte

instance : Decidable (NonLetters env me line core) :=
  inferInstanceAs (Decidable (_ ∧ _))

/-- The lines that `User::login` is to reject. -/
def Rejects : Prop :=
  FailsAttempt env me line core ∨ NonLetters env me line core

instance : Decidable (Rejects env me line core) :=
  inferInstanceAs (Decidable (_ ∨ _))

end Rejections

/-- How far the login has come: it asks for the name, for the password, for
its confirmation, or it is over. -/
def loginProgress : UserStage → Nat
  | .new => 0
  | .loginId => 0
  | .loginName => 0
  | .loginPwd => 1
  | .loginReenterPwd => 2
  | _ => 3

/-- The state after a line. -/
def afterLogin (env : Env) (me : Nat) (core : Core) (line : Bytes) : Core :=
  ((login env me line).run core).state

/-- The lines that are handed to `User::login` while the session is not logged
in, each with the state before it.  An exception ends the session. -/
def loginTrace (env : Env) (me : Nat) : Core → List Bytes → List (Core × Bytes)
  | _, [] => []
  | core, line :: rest =>
      if (core.users me).level = .login then
        (core, line) ::
          match ((login env me line).run core).val with
          | .ok _ => loginTrace env me (afterLogin env me core line) rest
          | .error _ => []
      else []

/-- The number of rejected lines. -/
def rejections (env : Env) (me : Nat) (trace : List (Core × Bytes)) : Nat :=
  trace.countP fun handed => Rejects env me handed.2 handed.1

/-- The line closes the connection, which was open. -/
def KickedBy
    (env : Env)
    (me connection : Nat)
    (core : Core)
    (line : Bytes) : Prop :=
  (core.connections connection).state = .open ∧
    ((afterLogin env me core line).connections connection).state ≠ .open

/-- What is expected of a line, when so many have been rejected before. -/
structure Counts
    (env : Env)
    (me connection : Nat)
    (before : Nat)
    (core : Core)
    (line : Bytes) : Prop where
  /-- A rejected line is counted once. -/
  raises : Rejects env me line core →
    ((afterLogin env me core line).users me).attempts =
      (core.users me).attempts + 1
  /-- It does not bring the login forward. -/
  stays : Rejects env me line core →
    loginProgress ((afterLogin env me core line).users me).stage ≤
      loginProgress (core.users me).stage
  /-- Another line is not counted. -/
  keeps : ¬ Rejects env me line core →
    ((afterLogin env me core line).users me).attempts =
      (core.users me).attempts
  /-- The session is kicked by the last line it may get wrong. -/
  kicks : KickedBy env me connection core line ↔
    Rejects env me line core ∧ before + 1 = maxLoginAttempts

/-- The line is counted otherwise: it is a name with other characters than
letters, or the counter has no room for it. -/
def Miscounted (env : Env) (me : Nat) (core : Core) (line : Bytes) : Prop :=
  NonLetters env me line core ∨
    (Rejects env me line core ∧ 255 ≤ (core.users me).attempts)

instance (env : Env) (me : Nat) (core : Core) (line : Bytes) :
    Decidable (Miscounted env me core line) :=
  inferInstanceAs (Decidable (_ ∨ _ ∧ _))

/-! ## The outcome of a line -/

section Outcome

variable {env : Env} {me connection : Nat} {line : Bytes} {core : Core}

theorem afterLogin_eq (env : Env) (me : Nat) (core : Core) (line : Bytes) :
    afterLogin env me core line = (loginOutcome env me line core).2 := by
  obtain ⟨obs, ran, -⟩ := Runs.login env me line core
  rw [afterLogin, ran]

/-- The line of a session that is not logged in has one of the known
effects. -/
theorem loginOutcome_effect
    (level : (core.users me).level = .login) :
    LineEffect env me line core (loginOutcome env me line core) := by
  have effect := lineOutcome_effect env me line core
  rwa [lineOutcome, if_pos level] at effect

/-- A line in a name stage is read as a name. -/
theorem loginOutcome_readsName
    (reads : ReadsName env me line core) :
    loginOutcome env me line core =
      if line.length < minUsernameLen ∨ line.length > maxUsernameLen then
        (.ok (), core.attempted me)
      else (.ok (), core.named env me line) := by
  obtain ⟨-, stage, notQuit, notWho, notVersion⟩ := reads
  have isName : loginOutcome env me line core =
      nameOutcome env me line core := by
    unfold loginOutcome
    cases same : (core.users me).stage <;>
      simp_all [UserStage.readsName]
  rw [isName, nameOutcome]
  simp only [notQuit, notWho, notVersion, or_self, if_false]

theorem loginOutcome_entersName
    (entered : EntersName env me line core) :
    loginOutcome env me line core = (.ok (), core.named env me line) := by
  obtain ⟨reads, long, short⟩ := entered
  rw [loginOutcome_readsName reads, if_neg (by omega)]

/-- A failed attempt is counted. -/
theorem loginOutcome_failsAttempt
    (fails : FailsAttempt env me line core) :
    loginOutcome env me line core = (.ok (), core.attempted me) := by
  rcases fails with ⟨reads, bad⟩ | ⟨⟨-, stage⟩, wrong⟩ |
    ⟨⟨-, stage⟩, password, cached, different⟩
  · rw [loginOutcome_readsName reads, if_pos bad]
  · simp only [loginOutcome, stage, pwdOutcome]
    split
    · rfl
    · rename_i notShort
      obtain ⟨password, cached, notEmpty, different⟩ :=
        wrong.resolve_left notShort
      rw [Option.mem_def.mp cached]
      cases password with
      | nil => exact absurd rfl notEmpty
      | cons first rest => simp only [different, if_false]
  · simp only [loginOutcome, stage, reenterOutcome]
    rw [Option.mem_def.mp cached]
    simp only [different, if_false]

/-- The counter after a failed attempt. -/
theorem attempts_attempted (core : Core) (me : Nat) :
    ((core.attempted me).users me).attempts =
      ((core.users me).attempts + 1) % 2 ^ 8 := by
  unfold Core.attempted Core.counted
  simp only
  split
  · simp [Core.removeList]
  · simp

/-- A failed attempt does not bring the login forward. -/
theorem progress_attempted (core : Core) (me : Nat) :
    loginProgress ((core.attempted me).users me).stage ≤
      loginProgress (core.users me).stage := by
  unfold Core.attempted Core.counted
  simp only
  split
  · simp [Core.removeList]
  · simp [loginProgress]

/-- The connection of a session stays open on an attempt, except on the
last. -/
theorem open_attempted
    (session : Session core me connection)
    (isOpen : (core.connections connection).state = .open) :
    ((core.attempted me).connections connection).state = .open ↔
      ((core.users me).attempts + 1) % 2 ^ 8 ≠ maxLoginAttempts := by
  have counted : Session (core.counted me) me connection :=
    session.setUser fun _ => by rfl
  have number : ((core.counted me).users me).attempts =
      ((core.users me).attempts + 1) % 2 ^ 8 := by
    simp [Core.counted]
  unfold Core.attempted
  simp only [number]
  split
  · rename_i last
    have closed := Core.closed_kicked
      (counted.linked.attached me connection counted.client)
    exact iff_of_false closed (not_not.mpr last)
  · rename_i notLast
    exact iff_of_true isOpen notLast

/-- A line that is neither counted nor closes the connection. -/
structure Uncounted (me connection : Nat) (core reached : Core) : Prop where
  /-- The counter is as before. -/
  attempts : (reached.users me).attempts = (core.users me).attempts
  /-- The connection is as open as before. -/
  opens : (core.connections connection).state = .open →
    (reached.connections connection).state = .open

namespace Uncounted

variable {middle reached : Core}

theorem refl (me connection : Nat) (core : Core) :
    Uncounted me connection core core := ⟨rfl, id⟩

theorem trans
    (first : Uncounted me connection core middle)
    (second : Uncounted me connection middle reached) :
    Uncounted me connection core reached where
  attempts := second.attempts.trans first.attempts
  opens := fun isOpen => second.opens (first.opens isOpen)

theorem setUser
    {change : User → User}
    (keeps : ∀ user, (change user).attempts = user.attempts)
    (me connection : Nat)
    (core : Core) : Uncounted me connection core (core.setUser me change) where
  attempts := by
    rw [Core.users_setUser_self]
    exact keeps _
  opens := id

/-- Neither the users nor the connections have changed. -/
theorem of_rest
    (users : reached.users = core.users)
    (connections : reached.connections = core.connections) :
    Uncounted me connection core reached where
  attempts := by rw [users]
  opens isOpen := by rwa [connections]

theorem load
    (env : Env)
    (me connection : Nat)
    (userName : Bytes)
    (preload : Bool)
    (core : Core) :
    Uncounted me connection core
      (loadOutcome env me userName preload core).2 := by
  apply @loadOutcome_intro env me userName preload core
    (Uncounted me connection core)
  · exact of_rest rfl rfl
  · exact fun now row queried =>
      queried.trans (setUser (fun _ => by rfl) me connection now)
  · exact fun now level queried =>
      queried.trans (setUser (fun _ => by rfl) me connection now)

/-- The connections of the sessions that hang are others. -/
theorem cleared (session : Session core me connection) :
    Uncounted me connection core (core.cleared me) where
  attempts := by rw [Core.users_cleared]
  opens := by
    intro isOpen
    have both : (core.cleared me).users = core.users ∧
        ((core.cleared me).connections connection).state = .open := by
      apply @Core.cleared_intro core me fun now => now.users = core.users ∧
        (now.connections connection).state = .open
      · exact ⟨rfl, isOpen⟩
      · rintro now other - hangs ⟨users, isOpenNow⟩
        refine ⟨by simp [users], Core.open_kicked (fun client => ?_) isOpenNow⟩
        rw [users] at client
        exact hangs.2.1 (session.linked.same_of_client client session.client)
    exact both.2

/-- A name of letters is not rejected. -/
theorem named
    (session : Session core me connection)
    (letters : ∀ byte ∈ line, isAlpha byte) :
    Uncounted me connection core (core.named env me line) := by
  have accepted : core.rejected me line = core := by
    unfold Core.rejected
    induction line with
    | nil => rfl
    | cons byte rest inductionHypothesis =>
        rw [List.foldl_cons,
          if_neg (not_not.mpr (letters byte List.mem_cons_self))]
        exact inductionHypothesis fun other inside =>
          letters other (List.mem_cons_of_mem _ inside)
  rw [Core.named, accepted]
  have renamed : Uncounted me connection core (core.setUser me fun user =>
      { user with name := properName line }) :=
    setUser (fun _ => by rfl) me connection core
  have sessionRenamed : Session (core.setUser me fun user =>
      { user with name := properName line }) me connection :=
    session.setUser fun _ => by rfl
  exact renamed.trans ((cleared sessionRenamed).trans
    ((load env me connection line true _).trans
      (setUser (fun _ => by rfl) me connection _)))

theorem chosen (env : Env) (line : Bytes) (core : Core) :
    Uncounted me connection core (core.chosen env me line) where
  attempts := by simp [Core.chosen, Core.setUser]
  opens := id

theorem registered (guid : Nat) (db : Database.Users) (core : Core) :
    Uncounted me connection core (core.registered me guid db) where
  attempts := by simp [Core.registered, Core.setUser]
  opens := id

/-- The session that is taken over has another connection. -/
theorem connected (session : Session core me connection) :
    Uncounted me connection core (connectOutcome me core).2 := by
  unfold connectOutcome
  split
  · exact refl me connection core
  · rename_i other found
    have different : other ≠ me := by
      have holds := List.find?_some found
      simp only [decide_eq_true_eq] at holds
      exact holds.1
    have disconnected :
        (core.connections connection).state = .open →
        ((core.disconnected other).connections connection).state = .open :=
      Core.open_disconnected fun client =>
        different (session.linked.same_of_client client session.client)
    split
    · exact ⟨by simp, disconnected⟩
    · refine ⟨?_, disconnected⟩
      rw [Core.users_takenOver core _ different, if_pos rfl]

end Uncounted

/-- A line that is not rejected is not counted. -/
theorem uncounted_loginOutcome
    (session : Session core me connection)
    (level : (core.users me).level = .login)
    (accepted : ¬ Rejects env me line core) :
    Uncounted me connection core (loginOutcome env me line core).2 := by
  have effect : LineEffect env me line core (loginOutcome env me line core) :=
    loginOutcome_effect level
  generalize loginOutcome env me line core = outcome at effect
  cases effect with
  | answers => exact .refl me connection core
  | abandons => exact .refl me connection core
  | fails fails => exact absurd (.inl fails) accepted
  | names entered =>
      refine .named session fun byte inside => ?_
      by_contra notLetter
      exact accepted (.inr ⟨entered, byte, inside, notLetter⟩)
  | chooses => exact .chosen env line core
  | throws right loaded =>
      have loads := Uncounted.load env me connection
        (core.users me).name false core
      rwa [loaded] at loads
  | @admits right found reached loaded =>
      have loads := Uncounted.load env me connection
        (core.users me).name false core
      have near := Core.Local.load env me (core.users me).name false core
      obtain ⟨obs, -, follows⟩ :=
        Runs.load env me (core.users me).name false core
      rw [loaded] at loads near follows
      have reachedSession := session.near follows near.toNear
      exact loads.trans ((Uncounted.setUser (fun _ => by rfl) me connection
        reached).trans (.connected (reachedSession.setUser fun _ => by rfl)))
  | confirms => exact .registered _ _ core
  | stumbles => exact .refl me connection core
  | parses notLogin => exact absurd level notLogin

/-- A line after which the login goes on keeps the session. -/
theorem session_afterLogin
    (session : Session core me connection)
    (level : (core.users me).level = .login)
    {value : Unit}
    (ended : ((login env me line).run core).val = .ok value) :
    Session (afterLogin env me core line) me connection := by
  have effect : LineEffect env me line core (loginOutcome env me line core) :=
    loginOutcome_effect level
  obtain ⟨obs, ran, follows⟩ := Runs.login env me line core
  rw [ran] at ended
  rw [afterLogin_eq]
  rcases effect.concerns with
    ⟨near, -⟩ | ⟨before, other, found, -, -, -, -, swaps⟩
  · exact session.near follows near.toNear
  · simp [swaps] at ended

end Outcome

/-! ## Runs of lines -/

section Lines

variable {env : Env} {me connection : Nat} {line : Bytes} {core : Core}

/-- A rejected line that is not miscounted is a failed attempt. -/
theorem afterLogin_rejects
    (rejects : Rejects env me line core)
    (letters : ¬ NonLetters env me line core) :
    afterLogin env me core line = core.attempted me := by
  rw [afterLogin_eq, loginOutcome_failsAttempt (rejects.resolve_right letters)]

/-- A line is counted as expected unless it is miscounted.  As long as the
limit has not been reached the connection is open. -/
theorem counts_of_not_miscounted
    (session : Session core me connection)
    (level : (core.users me).level = .login)
    (counted : ¬ Miscounted env me core line)
    (waits : (core.users me).attempts < maxLoginAttempts →
      (core.connections connection).state = .open) :
    Counts env me connection (core.users me).attempts core line := by
  obtain ⟨letters, room⟩ := not_or.mp counted
  by_cases rejects : Rejects env me line core
  · have small : ((core.users me).attempts + 1) % 2 ^ 8 =
        (core.users me).attempts + 1 := by
      have below : ¬ 255 ≤ (core.users me).attempts :=
        fun full => room ⟨rejects, full⟩
      exact Nat.mod_eq_of_lt (by omega)
    have after := afterLogin_rejects rejects letters
    refine ⟨fun _ => ?_, fun _ => ?_, fun accepted => absurd rejects accepted, ?_⟩
    · rw [after, attempts_attempted, small]
    · rw [after]
      exact progress_attempted core me
    · rw [KickedBy, after]
      constructor
      · rintro ⟨isOpen, closed⟩
        rw [ne_eq, open_attempted session isOpen, not_not, small] at closed
        exact ⟨rejects, closed⟩
      · rintro ⟨-, last⟩
        have isOpen := waits (by omega)
        refine ⟨isOpen, ?_⟩
        rw [ne_eq, open_attempted session isOpen, not_not, small]
        exact last
  · have same := uncounted_loginOutcome session level rejects
    rw [← afterLogin_eq] at same
    refine ⟨fun rejected => absurd rejected rejects,
      fun rejected => absurd rejected rejects, fun _ => same.attempts, ?_⟩
    constructor
    · rintro ⟨isOpen, closed⟩
      exact absurd (same.opens isOpen) closed
    · rintro ⟨rejected, -⟩
      exact absurd rejected rejects

/-- A miscounted line is not counted as expected. -/
theorem Counts.not_miscounted
    {before : Nat}
    (counts : Counts env me connection before core line) :
    ¬ Miscounted env me core line := by
  have letters : ¬ NonLetters env me line core := by
    intro nonLetters
    have stays := counts.stays (.inr nonLetters)
    have stage := nonLetters.1.1.2.1
    rw [afterLogin_eq, loginOutcome_entersName nonLetters.1] at stays
    have advanced : ((core.named env me line).users me).stage = .loginPwd :=
      congrArg Credentials.stage (credentials_named env me line core)
    rw [advanced] at stays
    cases same : (core.users me).stage <;>
      simp_all [UserStage.readsName, loginProgress]
  rintro (nonLetters | ⟨rejects, full⟩)
  · exact letters nonLetters
  · have raised := counts.raises rejects
    rw [afterLogin_rejects rejects letters, attempts_attempted] at raised
    have bound := Nat.mod_lt ((core.users me).attempts + 1)
      (show 2 ^ 8 > 0 by decide)
    omega

/-- In what state a line is handed over, when the lines before it have been
counted. -/
theorem handed_state
    {lines : List Bytes}
    {earlier later : List (Core × Bytes)}
    {before : Core}
    (session : Session core me connection)
    (waits : (core.users me).attempts < maxLoginAttempts →
      (core.connections connection).state = .open)
    (split : loginTrace env me core lines = earlier ++ (before, line) :: later)
    (counted : ∀ handed ∈ earlier, ¬ Miscounted env me handed.1 handed.2) :
    Session before me connection ∧ (before.users me).level = .login ∧
      (before.users me).attempts =
        (core.users me).attempts + rejections env me earlier ∧
      ((before.users me).attempts < maxLoginAttempts →
        (before.connections connection).state = .open) := by
  induction lines generalizing core earlier with
  | nil => simp [loginTrace] at split
  | cons first rest inductionHypothesis =>
      rw [loginTrace] at split
      by_cases level : (core.users me).level = .login
      · rw [if_pos level] at split
        cases earlier with
        | nil =>
            simp only [List.nil_append, List.cons.injEq, Prod.mk.injEq] at split
            obtain ⟨⟨rfl, rfl⟩, -⟩ := split
            exact ⟨session, level, by simp [rejections], waits⟩
        | cons handed earlier =>
            simp only [List.cons_append, List.cons.injEq] at split
            obtain ⟨rfl, split⟩ := split
            have counts : Counts env me connection (core.users me).attempts
                core first :=
              counts_of_not_miscounted session level
                (counted (core, first) List.mem_cons_self) waits
            cases ended : ((login env me first).run core).val with
            | error abort => simp [ended] at split
            | ok value =>
                rw [ended] at split
                have sessionAfter := session_afterLogin session level ended
                have waitsAfter :
                    ((afterLogin env me core first).users me).attempts <
                      maxLoginAttempts →
                    ((afterLogin env me core first).connections
                      connection).state = .open := by
                  intro few
                  by_contra closed
                  by_cases rejects : Rejects env me first core
                  · have raised := counts.raises rejects
                    obtain ⟨-, last⟩ :=
                      counts.kicks.mp ⟨waits (by omega), closed⟩
                    omega
                  · have kept := counts.keeps rejects
                    obtain ⟨rejected, -⟩ :=
                      counts.kicks.mp ⟨waits (by omega), closed⟩
                    exact rejects rejected
                obtain ⟨sessionBefore, levelBefore, attempts, waitsBefore⟩ :=
                  inductionHypothesis sessionAfter waitsAfter split
                    fun other inside =>
                      counted other (List.mem_cons_of_mem _ inside)
                refine ⟨sessionBefore, levelBefore, ?_, waitsBefore⟩
                rw [attempts]
                unfold rejections
                rw [List.countP_cons]
                by_cases rejects : Rejects env me first core
                · rw [counts.raises rejects, if_pos (by simpa using rejects)]
                  omega
                · rw [counts.keeps rejects, if_neg (by simpa using rejects)]
                  omega
      · rw [if_neg level] at split
        simp at split

end Lines

/-- Every line of a login is counted as expected: the number of lines rejected
before it tells whether it is the last. -/
def CountsAttempts
    (env : Env)
    (me connection : Nat)
    (core : Core)
    (lines : List Bytes) : Prop :=
  ∀ earlier before line later,
    loginTrace env me core lines = earlier ++ (before, line) :: later →
      Counts env me connection
        ((core.users me).attempts + rejections env me earlier) before line

/-- The lines of a login are counted as expected exactly when none of them is
miscounted. -/
theorem countsAttempts_iff
    (env : Env)
    {me connection : Nat}
    {core : Core}
    (session : Session core me connection)
    (isOpen : (core.connections connection).state = .open)
    (lines : List Bytes) :
    CountsAttempts env me connection core lines ↔
      ∀ handed ∈ loginTrace env me core lines,
        ¬ Miscounted env me handed.1 handed.2 := by
  constructor
  · rintro counts ⟨before, line⟩ inside
    obtain ⟨earlier, later, split⟩ := List.append_of_mem inside
    exact (counts earlier before line later split).not_miscounted
  · intro counted earlier before line later split
    have inEarlier : ∀ handed ∈ earlier,
        ¬ Miscounted env me handed.1 handed.2 := by
      intro handed inside
      exact counted handed (by rw [split]; exact List.mem_append_left _ inside)
    obtain ⟨sessionBefore, level, attempts, waits⟩ :=
      handed_state session (fun _ => isOpen) split inEarlier
    rw [← attempts]
    exact counts_of_not_miscounted sessionBefore level
      (counted (before, line) (by rw [split]; simp)) waits

/-- A client has connected and is asked for its name. -/
def asked : Core :=
  (World.after (Env.testing []) []
    [.accept, .packet 0 [lf]]).server.core

theorem session_asked : Session asked 0 0 where
  linked := linked_after (Env.testing []) [] _
  client := by decide +kernel

/-- A short name, a good one, a short password and two short names, of which
the first is the last one that may be wrong. -/
theorem countsAttempts_short :
    CountsAttempts (Env.testing []) 0 0 asked
      [lit "x", lit "ann", lit "pw", lit "y", lit "z"] :=
  (countsAttempts_iff (Env.testing []) session_asked (by decide +kernel)
    [lit "x", lit "ann", lit "pw", lit "y", lit "z"]).mpr (by decide +kernel)

/-- A name with a digit is counted, and the login goes on with it. -/
theorem name_with_digit_advances :
    ¬ ∀ env me connection core lines, Session core me connection →
      (core.connections connection).state = .open →
        CountsAttempts env me connection core lines := by
  intro always
  have counts := always (Env.testing []) 0 0 asked [lit "ann1"] session_asked
    (by decide +kernel)
  have level : (asked.users 0).level = .login := by decide +kernel
  have inside : (asked, lit "ann1") ∈
      loginTrace (Env.testing []) 0 asked [lit "ann1"] := by
    rw [loginTrace, if_pos level]
    exact List.mem_cons_self
  obtain ⟨earlier, later, split⟩ := List.append_of_mem inside
  have miscounted : Miscounted (Env.testing []) 0 asked (lit "ann1") := by
    decide +kernel
  exact (counts earlier asked (lit "ann1") later split).not_miscounted miscounted

end Network
end Lotospp
