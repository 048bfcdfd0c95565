import Lotospp.Common.LoginOutcome
import Lotospp.Common.Read

/-!
# The outcomes of a line

What `User::parseLine` and the end of a line in `User::uRead` do to the state
of the server, without output.
-/

namespace Lotospp
namespace Commands

open Text Effect Common Strings

/-- What drawing an identifier does. -/
def drawOutcome (core : Core) : Except Abort Unit × Core :=
  match core.autoID.construct with
  | none => (.error .hang, core)
  | some (_, autoID) => (.ok (), { core with autoID := autoID })

/-- Whether `Say::execute` ends normally; it only prints. -/
def sayOutcome (com : Splitline) : Except Abort Unit :=
  if com.word.length < 2 then .ok ()
  else
    match com.wordptr 1 with
    | .ok _ => .ok ()
    | .error fault => .error (.ofFault fault)

/-- What `User::runCmdLine` does. -/
def runOutcome (me : Nat) (core : Core) : Except Abort Unit × Core :=
  match (core.users me).com.word with
  | [] | [] :: _ => (.ok (), core)
  | first :: _ =>
      if first = [46] then (.ok (), core)
      else if iequals (commandWord first) (lit "say") then
        match drawOutcome core with
        | (.error abort, core) => (.error abort, core)
        | (.ok _, core) => (sayOutcome (core.users me).com, core)
      else if iequals (commandWord first) (lit "quit") then
        match drawOutcome core with
        | (.error abort, core) => (.error abort, core)
        | (.ok _, core) => (.ok (), (core.kicked me).removeList me)
      else (.ok (), core)

/-- What holds before the line, once an identifier has been drawn, and once the
user has then left, holds after `User::runCmdLine`. -/
theorem runOutcome_intro
    {me : Nat}
    {core : Core}
    {inv : Core → Prop}
    (ignored : inv core)
    (drawn : inv (drawOutcome core).2)
    (left : inv (((drawOutcome core).2.kicked me).removeList me)) :
    inv (runOutcome me core).2 := by
  unfold runOutcome
  split
  · exact ignored
  · exact ignored
  · split
    · exact ignored
    · split
      · split
        · rename_i failed
          rwa [failed] at drawn
        · rename_i done
          rwa [done] at drawn
      · split
        · split
          · rename_i failed
            rwa [failed] at drawn
          · rename_i done
            rwa [done] at left
        · exact ignored

/-- What the switch of `User::parseLine` does. -/
def dispatchOutcome (me : Nat) (stage : UserStage) (core : Core) :
    Except Abort Unit × Core :=
  if stage = .cmdLine then runOutcome me core
  else (.ok (), core.setUser me fun user => { user with stage := .cmdLine })

/-- What `User::parseLine` does. -/
def parseOutcome (me : Nat) (core : Core) : Except Abort Unit × Core :=
  let cleaned :=
    core.setUser me fun user => user.setText (cleanString user.text)
  match (cleaned.users me).com.parse (cleaned.users me).text with
  | .error fault => (.error (.ofFault fault), cleaned)
  | .ok com =>
      match dispatchOutcome me (cleaned.users me).stage
        (cleaned.setUser me fun user => { user with com := com }) with
      | (.error abort, core) => (.error abort, core)
      | (.ok _, core) =>
          (.ok (), core.setUser me fun user =>
            { user with buffnum := !user.buffnum })

/-- What holds once the line has been cleaned and once its words have been
dispatched, and survives the change of the buffer, holds after
`User::parseLine`. -/
theorem parseOutcome_intro
    {me : Nat}
    {core entered : Core}
    {inv : Core → Prop}
    (cleaned : entered =
      core.setUser me fun user => user.setText (cleanString user.text))
    (enters : inv entered)
    (dispatches : ∀ com, inv (dispatchOutcome me (entered.users me).stage
      (entered.setUser me fun user => { user with com := com })).2)
    (flips : ∀ now, inv now → inv (now.setUser me fun user =>
      { user with buffnum := !user.buffnum })) :
    inv (parseOutcome me core).2 := by
  subst cleaned
  unfold parseOutcome
  simp only
  split
  · exact enters
  · rename_i com _
    have dispatched := dispatches com
    split
    · rename_i failed
      rwa [failed] at dispatched
    · rename_i ended
      rw [ended] at dispatched
      exact flips _ dispatched

/-- What is done with a complete line. -/
def lineOutcome (env : Env) (me : Nat) (line : Bytes) (core : Core) :
    Except Abort Unit × Core :=
  if (core.users me).level = .login then loginOutcome env me line core
  else parseOutcome me core

end Commands

open Text Effect Common Commands Strings

namespace Common

theorem Follows.setAutoID
    (core : Core)
    {autoID : AutoID}
    (drawn : ∀ autoId ∈ core.autoID.list, autoId ∈ autoID.list)
    {obs : List Obs}
    (draws : ∀ observation ∈ obs, ∃ autoID, observation = .draw autoID) :
    Follows core obs { core with autoID := autoID } where
  __ := refl core
  plain := by
    intro observation shown
    obtain ⟨_, rfl⟩ := draws observation shown
    trivial
  sound := by
    intro _ observation shown
    obtain ⟨_, rfl⟩ := draws observation shown
    trivial
  kicked := by
    intro connection shown
    obtain ⟨_, same⟩ := draws _ shown
    exact absurd same (by simp)
  drawn := drawn

namespace Runs

theorem drawID (core : Core) :
    ∃ val : Except Abort Nat,
      Runs Commands.drawID core (val, (drawOutcome core).2) ∧
        (drawOutcome core).1 = val.map fun _ => () := by
  unfold drawOutcome
  cases constructed : core.autoID.construct with
  | none =>
      refine ⟨.error .hang, ⟨[.draw core.autoID], ?_, ?_⟩, rfl⟩
      · simp [Commands.drawID, constructed]
      · exact .setAutoID core (fun _ inside => inside) (by simp)
  | some answer =>
      obtain ⟨autoId, after⟩ := answer
      refine ⟨.ok autoId, ⟨[.draw core.autoID], ?_, ?_⟩, rfl⟩
      · simp [Commands.drawID, constructed]
      · refine .setAutoID core (fun other inside => ?_) (by simp)
        rw [AutoID.construct_list constructed]
        exact List.mem_cons_of_mem _ inside

/-- A command object draws its identifier before it is executed. -/
theorem command
    {body : CoreM Unit}
    {core : Core}
    {outcome : Core → Except Abort Unit × Core}
    (executes : ∀ core, Runs body core (outcome core)) :
    Runs (Commands.drawID >>= fun _ => body) core
      (match drawOutcome core with
      | (.error abort, core) => (.error abort, core)
      | (.ok _, core) => outcome core) := by
  obtain ⟨val, ran, same⟩ := drawID core
  rw [← Prod.eta (drawOutcome core), same]
  cases val with
  | error abort => exact bind_error ran _
  | ok autoId => exact bind ran (executes _)

theorem sayLoop
    {core : Core}
    {me : Nat}
    {said : Bytes}
    (told : (core.users me).com.wordptr 1 = .ok said)
    {list : List (Nat × Nat)}
    (listed : ∀ entry ∈ list, entry ∈ core.listUser) :
    Runs (Commands.sayLoop me list) core (.ok (), core) := by
  induction list with
  | nil => exact pure_intro () core
  | cons entry rest inductionHypothesis =>
      have later := inductionHypothesis fun other inside =>
        listed other (List.mem_cons_of_mem _ inside)
      unfold Commands.sayLoop
      split
      · exact later
      · apply user_bind
        rw [told, checked_ok]
        exact bind (pure_intro said core) (bind
          (deref fun safe =>
            safe.alive entry (listed entry (List.mem_cons_self ..)))
          (bind (uPrintf core entry.2 _) later))

theorem say (core : Core) (me : Nat) :
    Runs (Commands.say me) core (sayOutcome (core.users me).com, core) := by
  unfold Commands.say sayOutcome
  apply get_bind
  split
  · exact uPrintf core me _
  · cases told : (core.users me).com.wordptr 1 with
    | error fault => exact bind_error (raise_intro _ core) _
    | ok said =>
        exact bind (pure_intro said core) (bind (uPrintf core me _)
          (sayLoop told fun _ inside => inside))

theorem quit (core : Core) (me : Nat) :
    Runs (Commands.quit me) core
      (.ok (), (core.kicked me).removeList me) :=
  bind (kick core me) (removeList _ me)

theorem runCmdLine (env : Env) (me : Nat) (core : Core) :
    Runs (Commands.runCmdLine env me) core (runOutcome me core) := by
  unfold Commands.runCmdLine runOutcome
  refine user_bind ?_
  rcases (core.users me).com.word with _ | ⟨_ | ⟨byte, bytes⟩, others⟩
  · exact pure_intro () core
  · exact pure_intro () core
  · simp only
    split
    · exact bind (uPrintf core me _) (prompt env core me)
    · split
      · refine command fun core => ?_
        refine andThen (say core me) ?_ ?_
        · intro abort failed
          exact Prod.ext failed rfl
        · rintro ⟨⟩ said
          simp only at said ⊢
          rw [said]
          exact prompt env core me
      · split
        · exact command fun core => quit core me
        · exact uPrintf core me _

theorem dispatch (env : Env) (me : Nat) (stage : UserStage) (core : Core) :
    Runs (Commands.dispatch env me stage) core
      (dispatchOutcome me stage core) := by
  unfold Commands.dispatch dispatchOutcome
  split
  · exact runCmdLine env me core
  · exact bind (uPrintf core me _)
      (update_bind (fun _ => rfl) (prompt env _ me))

theorem parseLine (env : Env) (me : Nat) (core : Core) :
    Runs (Commands.parseLine env me) core (parseOutcome me core) := by
  unfold Commands.parseLine parseOutcome
  refine update_bind (fun _ => rfl) (user_bind ?_)
  simp only
  generalize core.setUser me (fun user =>
    user.setText (cleanString user.text)) = cleaned
  cases parsed : (cleaned.users me).com.parse (cleaned.users me).text with
  | error fault => exact bind_error (raise_intro _ cleaned) _
  | ok com =>
      refine bind (pure_intro com cleaned) (update_bind (fun _ => rfl) ?_)
      refine andThen (dispatch env me (cleaned.users me).stage _) ?_ ?_
      · intro abort failed
        simp only
        rw [← Prod.eta (dispatchOutcome ..), failed]
      · rintro ⟨⟩ done
        simp only
        rw [← Prod.eta (dispatchOutcome ..), done]
        exact update fun _ => by rfl

/-- A complete line is dealt with. -/
theorem handOver (env : Env) (me : Nat) (line : Bytes) (core : Core) :
    Runs
      (if (core.users me).level = .login then do
        Common.login env me line
        let user ← user me
        Prog.when (user.level = .login) (Common.prompt env me)
      else Commands.parseLine env me) core
      (lineOutcome env me line core) := by
  unfold lineOutcome
  split
  · refine andThen (login env me line core) ?_ ?_
    · intro abort failed
      exact Prod.ext failed rfl
    · rintro ⟨⟩ done
      rw [← Prod.eta (loginOutcome ..), done]
      exact user_bind (sometimes (prompt env _ me))
  · exact parseLine env me core

end Runs

end Common
end Lotospp
