import Lotospp.Common.Printf
import Lotospp.Network.Invariant

/-!
# Who hears a command of `say`

`Say::execute` goes over the list of users.  The other sessions with an open
connection are listed once each, so that each of them is sent one message; it
makes no difference whether the session has got past the login.  What is sent
is the line from the second recorded offset on, which is the text that was
typed only if the offset is one of this line.
-/

namespace Lotospp
namespace Network

open Text Effect Common Commands Strings

/-! ## The order of the list -/

/-- The list of users is in the order of the identifiers. -/
def Ordered (core : Core) : Prop :=
  core.listUser.Pairwise fun left right => left.1 < right.1

theorem Core.insertKey_ordered
    {key value : Nat}
    {list : List (Nat × Nat)}
    (ordered : list.Pairwise fun left right => left.1 < right.1) :
    (Core.insertKey key value list).Pairwise fun left right =>
      left.1 < right.1 := by
  induction list with
  | nil => exact List.pairwise_singleton ..
  | cons first rest inductionHypothesis =>
      obtain ⟨below, later⟩ := List.pairwise_cons.mp ordered
      unfold Core.insertKey
      split
      · rename_i before
        refine List.pairwise_cons.mpr ⟨fun entry inside => ?_, ordered⟩
        rcases List.mem_cons.mp inside with rfl | inside
        · exact before
        · exact before.trans (below entry inside)
      · split
        · rename_i same
          exact List.pairwise_cons.mpr ⟨fun entry inside =>
            same ▸ below entry inside, later⟩
        · rename_i notBefore different
          refine List.pairwise_cons.mpr ⟨fun entry inside => ?_,
            inductionHypothesis later⟩
          rcases Core.mem_insertKey inside with rfl | inside
          · simp only
            omega
          · exact below entry inside

/-- The list is in order in every state of a run. -/
theorem ordered_invariant (env : Env) :
    ServerInvariant env fun _ core _ => Ordered core where
  start _ := List.Pairwise.nil
  closes connection _ ordered := by simpa [Ordered] using ordered
  shrinks _ shrinks ordered := ordered.sublist shrinks.listed
  joins _ _ _ ordered := Core.insertKey_ordered ordered
  enters _ _ ordered := ordered
  leaves ordered := ordered
  negotiates _ _ ordered := ordered
  notices _ _ ordered := ordered
  edits := by
    rintro core reached past me connection _ ⟨textBuffer, tbpos, -, rfl⟩ ordered
    exact ordered
  line := by
    intro core past me connection line rest outcome session effect ordered
    refine .of_local session effect fun reached stays => ?_
    rcases stays.listed with same | unlists
    · rwa [Ordered, same]
    · rw [Ordered, unlists.1]
      exact ordered.sublist List.filter_sublist

/-- Nobody has typed a NUL, in any state of a run. -/
theorem noNul_invariant (env : Env) :
    ServerInvariant env fun _ core _ => ∀ user, (core.users user).NoNul where
  start _ _ _ := List.not_mem_nil
  closes connection _ clean user := by simpa using clean user
  shrinks := by
    intro core reached past _ shrinks clean user
    obtain ⟨alive, client, same, -⟩ := shrinks.users user
    rw [same]
    exact clean user
  joins := by
    intro core past connection autoId autoID _ _ _ clean user
    rw [users_joined]
    split
    · exact fun _ => List.not_mem_nil
    · exact clean user
  enters _ _ clean := clean
  leaves clean := clean
  negotiates := by
    intro core past me connection change _ changes clean user
    obtain ⟨cols, rows, type, flags, same, -⟩ := changes (core.users me)
    rw [Core.users_setUser]
    split
    · rw [same]
      exact clean me
    · exact clean user
  notices := by
    intro core past me connection _ _ clean user
    rw [Core.users_setUser]
    split
    · exact clean me
    · exact clean user
  edits := by
    rintro core reached past me connection _ ⟨textBuffer, tbpos, enters, rfl⟩
      clean user
    rw [Core.users_setUser]
    split
    · exact enters (clean me)
    · exact clean user
  line := by
    intro core past me connection line rest outcome session effect clean
    refine .of_after session effect (fun before other found clean user => ?_)
      fun user => ?_
    · have apart := (Core.findSession_some found).1
      have after := clean user
      rw [before.users_takenOver connection apart] at after
      split_ifs at after with isMe isOther
      · rw [isMe]
        exact after
      · rw [isOther]
        exact after
      · exact after
    · by_cases isMe : user = me
      · rw [isMe]
        exact effect.stays.noNul (clean me)
      · exact effect.noNul_others isMe (clean user)

/-- A connected session is listed, and once only. -/
theorem Linked.count_listed
    {core : Core}
    {user connection : Nat}
    (linked : Linked core)
    (ordered : Ordered core)
    (client : (core.users user).client = some connection)
    (isOpen : (core.connections connection).state = .open) :
    core.listUser.filter (fun entry => entry.2 = user) =
      [((core.users user).id, user)] := by
  have inside : ((core.users user).id, user) ∈
      core.listUser.filter fun entry => entry.2 = user :=
    List.mem_filter.mpr ⟨linked.online user connection isOpen client, by simp⟩
  have only : ∀ entry ∈ core.listUser.filter fun entry => entry.2 = user,
      entry = ((core.users user).id, user) := by
    intro entry found
    obtain ⟨isListed, isUser⟩ := List.mem_filter.mp found
    have isUser : entry.2 = user := by simpa using isUser
    exact Prod.ext (isUser ▸ (linked.listed entry isListed).2) isUser
  have nodup : (core.listUser.filter fun entry => entry.2 = user).Nodup :=
    (ordered.imp fun below same => absurd (congrArg Prod.fst same)
      below.ne).sublist List.filter_sublist
  generalize core.listUser.filter (fun entry => entry.2 = user) = entries
    at inside only nodup
  match entries with
  | [] => exact absurd inside List.not_mem_nil
  | [entry] => rw [only entry (List.mem_singleton_self entry)]
  | first :: second :: rest =>
      have same : first = second :=
        (only first (by simp)).trans (only second (by simp)).symm
      exact absurd same (by simp at nodup; tauto)

/-! ## Messages -/

/-- The messages sent to a connection. -/
def sentTo (connection : Nat) (obs : List Obs) : List Bytes :=
  obs.filterMap fun
    | .wrote protocol message =>
        if protocol = connection then some message else none
    | _ => none

@[simp] theorem sentTo_append (connection : Nat) (first second : List Obs) :
    sentTo connection (first ++ second) =
      sentTo connection first ++ sentTo connection second :=
  List.filterMap_append ..

theorem sentTo_flatMap
    {α : Type}
    (connection : Nat)
    (shows : α → List Obs)
    (list : List α) :
    sentTo connection (list.flatMap shows) =
      list.flatMap fun element => sentTo connection (shows element) :=
  List.filterMap_flatMap

@[simp] theorem sentTo_deref (connection : Nat) (core : Core) (user : Nat) :
    sentTo connection (derefObs core user) = [] := by
  unfold derefObs
  split <;> rfl

/-- Nothing is written to the connection of another user. -/
theorem sentTo_write_other
    {core : Core}
    {user connection : Nat}
    (other : (core.users user).client ≠ some connection)
    (message : Bytes) :
    sentTo connection (writeObs core user message) = [] := by
  unfold writeObs sendObs
  split
  · rfl
  · rename_i protocol client
    have different : protocol ≠ connection := by
      rintro rfl
      exact other client
    split
    · rfl
    · split <;> [split; skip] <;> simp [sentTo, different]

/-- A message is written to the open connection of a user. -/
theorem sentTo_write
    {core : Core}
    {user connection : Nat}
    (client : (core.users user).client = some connection)
    (connected : (core.protocols connection).connected)
    (isOpen : (core.connections connection).state = .open)
    {message : Bytes}
    (some : message ≠ []) :
    sentTo connection (writeObs core user message) =
      [messageBytes message] := by
  simp [writeObs, sendObs, sentTo, client, connected, isOpen, some]

/-! ## The command -/

/-- The text that `Say::execute` prints for the others. -/
def sayText (name said : Bytes) : Bytes :=
  cStr name ++ lit " say: " ++ cStr said ++ lit "\n"

/-- It is not empty when it is printed. -/
theorem escape_ne_nil
    {text : Bytes}
    (pcesc : Bool)
    {byte : UInt8}
    (inside : byte ∈ cStr text)
    (visible : byte ≠ 47) : escape pcesc text ≠ [] := by
  induction text generalizing pcesc with
  | nil => exact absurd inside List.not_mem_nil
  | cons first rest inductionHypothesis =>
      unfold cStr at inside
      by_cases nul : first = 0
      · simp [nul] at inside
      · rw [List.takeWhile_cons_of_pos (by simpa using nul)] at inside
        unfold escape
        rw [if_neg nul]
        split
        · simp
        · split
          · rename_i slash
            rcases List.mem_cons.mp inside with rfl | later
            · exact absurd slash visible
            · split
              · simp
              · exact inductionHypothesis true later
          · simp

theorem escape_sayText_ne_nil (name said : Bytes) :
    escape false (sayText name said) ≠ [] := by
  have visible : (115 : UInt8) ∈ cStr (sayText name said) := by
    have noNul : ∀ character ∈ cStr name ++ lit " say: ", character ≠ 0 := by
      intro character inside
      rcases List.mem_append.mp inside with inName | inText
      · exact ne_zero_of_mem_cStr inName
      · have noNul : ∀ character ∈ lit " say: ", character ≠ 0 := by
          decide +kernel
        exact noNul character inText
    rw [sayText, List.append_assoc, cStr_append noNul, List.mem_append,
      List.mem_append]
    exact .inl (.inr (by decide))
  exact escape_ne_nil false visible (by decide)

/-- What the loop over the other users shows. -/
theorem run_sayLoop
    {core : Core}
    {me : Nat}
    {said : Bytes}
    (told : (core.users me).com.wordptr 1 = .ok said)
    (list : List (Nat × Nat)) :
    (sayLoop me list).run core =
      ⟨.ok (), core, list.flatMap fun entry =>
        if entry.2 = me then []
        else derefObs core entry.2 ++ writeObs core entry.2
          (escape false (sayText (core.users me).name said))⟩ := by
  induction list with
  | nil => rfl
  | cons entry rest inductionHypothesis =>
      unfold sayLoop
      by_cases isMe : entry.2 = me
      · rw [if_pos isMe, inductionHypothesis, List.flatMap_cons, if_pos isMe,
          List.nil_append]
      · rw [if_neg isMe, run_user_bind, told, checked_ok, Prog.run_pure_bind,
          run_deref_bind, run_uPrintf_bind, inductionHypothesis,
          List.flatMap_cons, if_neg isMe]
        simp [sayText]

/-- The line of a user that is logged in is a `say` with some text. -/
structure SayCommand (core : Core) (me : Nat) (com : Splitline) : Prop where
  /-- The user is logged in. -/
  level : (core.users me).level ≠ .login
  /-- It is at the command line. -/
  stage : (core.users me).stage = .cmdLine
  /-- These are the words of the line. -/
  parsed : (core.users me).com.parse (cleanString (core.users me).text) =
    .ok com
  /-- There are at least two words, and the first is the command. -/
  word : ∃ first second rest, com.word = first :: second :: rest ∧
    iequals (commandWord first) (lit "say")

/-- The state in which the command is executed. -/
def commanded (core : Core) (me : Nat) (com : Splitline) : Core :=
  (core.setUser me fun user => user.setText (cleanString user.text)).setUser me
    fun user => { user with com := com }

/-- What the others hear of the command: an identifier is free for it, and the
offset of the text is in the line. -/
def announced (core : Core) (com : Splitline) : Option Bytes :=
  if core.autoID.construct = none then none else (com.wordptr 1).toOption

/-- Only the clients, the protocols and the connections matter to what is
written. -/
theorem writeObs_congr
    {core reached : Core}
    {user : Nat}
    (client : (reached.users user).client = (core.users user).client)
    (protocols : reached.protocols = core.protocols)
    (connections : reached.connections = core.connections)
    (message : Bytes) :
    writeObs reached user message = writeObs core user message := by
  unfold writeObs sendObs
  rw [client, protocols, connections]

/-- What the loop shows to a connection, in a state in which the command is
executed. -/
def heard (core : Core) (me : Nat) (said : Bytes) : List Obs :=
  core.listUser.flatMap fun entry =>
    if entry.2 = me then []
    else derefObs core entry.2 ++ writeObs core entry.2
      (escape false (sayText (core.users me).name said))

/-- What `Say::execute` shows. -/
theorem run_say
    {core : Core}
    {me : Nat}
    {com : Splitline}
    (parsed : (core.users me).com = com)
    (words : 2 ≤ com.word.length) :
    ∃ val, ∃ toMe : Bytes, (say me).run core = ⟨val, core,
      match com.wordptr 1 with
      | .error _ => []
      | .ok said => writeObs core me toMe ++ heard core me said⟩ := by
  have enough : ¬ (core.users me).com.word.length < 2 := by
    rw [parsed]
    omega
  unfold say
  rw [Prog.run_get_bind, if_neg enough, parsed]
  cases told : com.wordptr 1 with
  | error fault => exact ⟨_, [], rfl⟩
  | ok said =>
      rw [checked_ok, Prog.run_pure_bind, run_uPrintf_bind,
        run_sayLoop (parsed ▸ told)]
      exact ⟨_, _, rfl⟩

/-- A command object is made before the command is executed. -/
theorem run_drawID (core : Core) :
    drawID.run core =
      match core.autoID.construct with
      | none => ⟨.error .hang, core, [.draw core.autoID]⟩
      | some (autoId, autoID) =>
          ⟨.ok autoId, { core with autoID := autoID }, [.draw core.autoID]⟩ := by
  unfold drawID
  rw [Prog.run_get_bind, Prog.run_emit_bind]
  cases core.autoID.construct with
  | none => rfl
  | some answer => simp

theorem heard_congr
    {core reached : Core}
    {me : Nat}
    (users : ∀ user, (reached.users user).client = (core.users user).client ∧
      (reached.users user).alive = (core.users user).alive ∧
      (reached.users user).name = (core.users user).name)
    (listUser : reached.listUser = core.listUser)
    (protocols : reached.protocols = core.protocols)
    (connections : reached.connections = core.connections)
    (said : Bytes) :
    heard reached me said = heard core me said := by
  unfold heard derefObs
  simp only [listUser, users,
    writeObs_congr (users _).1 protocols connections]

/-- What `User::runCmdLine` shows for a `say`: the others are written to in
between. -/
theorem run_runCmdLine_say
    (env : Env)
    {core : Core}
    {me : Nat}
    {com : Splitline}
    {first second : Bytes}
    {rest : List Bytes}
    (parsed : (core.users me).com = com)
    (words : com.word = first :: second :: rest)
    (isSay : iequals (commandWord first) (lit "say")) :
    ∃ front back : List Obs,
      (∀ connection, (core.users me).client ≠ some connection →
        sentTo connection front = [] ∧ sentTo connection back = []) ∧
      ((runCmdLine env me).run core).obs = front ++
        (match announced core com with
        | none => []
        | some said => heard core me said) ++ back := by
  have notDot : first ≠ [46] := by
    rintro rfl
    exact absurd isSay (by decide)
  obtain ⟨head, tail, rfl⟩ : ∃ head tail, first = head :: tail := by
    cases first with
    | nil => exact absurd isSay (by decide)
    | cons head tail => exact ⟨head, tail, rfl⟩
  unfold runCmdLine
  rw [run_user_bind, parsed, words]
  simp only
  rw [if_neg notDot, if_pos isSay, Prog.run_bind, run_drawID]
  unfold announced
  cases constructed : core.autoID.construct with
  | none =>
      exact ⟨[.draw core.autoID], [], fun _ _ => ⟨rfl, rfl⟩, by simp⟩
  | some answer =>
      obtain ⟨autoId, autoID⟩ := answer
      simp only [reduceCtorEq, if_false]
      have long : 2 ≤ com.word.length := by
        rw [words]
        simp
      have sameHeard (said : Bytes) :
          heard { core with autoID := autoID } me said = heard core me said :=
        heard_congr (fun _ => ⟨rfl, rfl, rfl⟩) rfl rfl rfl said
      have sameWrite (message : Bytes) :
          writeObs { core with autoID := autoID } me message =
            writeObs core me message :=
        writeObs_congr rfl rfl rfl message
      have parsedToo :
          ({ core with autoID := autoID }.users me).com = com := parsed
      obtain ⟨val, toMe, ran⟩ := run_say parsedToo long
      rw [Prog.run_bind, ran]
      cases told : com.wordptr 1 with
      | error fault =>
          simp only [Except.toOption]
          cases val with
          | error abort =>
              exact ⟨[.draw core.autoID], [], fun _ _ => ⟨rfl, rfl⟩, by simp⟩
          | ok value =>
              refine ⟨[.draw core.autoID], writeObs core me
                (escape false (promptText env (core.users me))),
                fun connection other => ⟨rfl, sentTo_write_other other _⟩, ?_⟩
              simp only [run_prompt, promptObs, Run.prepend_mk, sameWrite]
              rfl
      | ok said =>
          simp only [Except.toOption, sameHeard, sameWrite]
          cases val with
          | error abort =>
              refine ⟨.draw core.autoID :: writeObs core me toMe, [],
                fun connection other => ⟨?_, rfl⟩, by simp⟩
              exact sentTo_write_other other toMe
          | ok value =>
              refine ⟨.draw core.autoID :: writeObs core me toMe,
                writeObs core me (escape false (promptText env (core.users me))),
                fun connection other => ⟨?_, sentTo_write_other other _⟩, ?_⟩
              · exact sentTo_write_other other toMe
              · simp only [run_prompt, promptObs, Run.prepend_mk, sameWrite]
                simp

/-- An assignment shows nothing. -/
theorem obs_bind_update
    {α : Type}
    (prog : CoreM α)
    (me : Nat)
    (change : User → User)
    (core : Core) :
    ((prog >>= fun _ => update me change).run core).obs =
      (prog.run core).obs := by
  rw [Prog.run_bind]
  rcases prog.run core with ⟨abort | value, reached, obs⟩ <;> simp

/-- What a `say` shows: the others are written to in between. -/
theorem run_parseLine_say
    (env : Env)
    {core : Core}
    {me : Nat}
    {com : Splitline}
    (command : SayCommand core me com) :
    ∃ first last : List Obs,
      (∀ connection, (core.users me).client ≠ some connection →
        sentTo connection first = [] ∧ sentTo connection last = []) ∧
      ((parseLine env me).run core).obs = first ++
        (match announced core com with
        | none => []
        | some said => heard core me said) ++ last := by
  obtain ⟨first, second, rest, words, isSay⟩ := command.word
  have users : ∀ user,
      ((commanded core me com).users user).client = (core.users user).client ∧
      ((commanded core me com).users user).alive = (core.users user).alive ∧
      ((commanded core me com).users user).name = (core.users user).name := by
    intro user
    by_cases isMe : user = me
    · subst isMe
      simp [commanded, User.setText]
    · simp [commanded, isMe]
  obtain ⟨front, back, quiet, shown⟩ := run_runCmdLine_say env
    (show ((commanded core me com).users me).com = com by simp [commanded])
    words isSay
  refine ⟨front, back, fun connection other => quiet connection ?_, ?_⟩
  · rw [(users me).1]
    exact other
  have sameHeard (said : Bytes) :
      heard (commanded core me com) me said = heard core me said :=
    heard_congr users rfl rfl rfl said
  have ran : ((parseLine env me).run core).obs =
      ((runCmdLine env me).run (commanded core me com)).obs := by
    have cleaned (user : User) :
        (user.setText (cleanString user.text)).text = cleanString user.text :=
      by simp [User.text, User.setText]
    have kept : ((core.setUser me fun user =>
        user.setText (cleanString user.text)).users me).com =
          (core.users me).com := by
      simp [User.setText]
    unfold parseLine
    rw [run_update_bind, run_user_bind, kept, Core.users_setUser_self,
      cleaned, command.parsed, checked_ok, Prog.run_pure_bind, run_update_bind,
      obs_bind_update]
    have atCmdLine : ((core.users me).setText
        (cleanString (core.users me).text)).stage = .cmdLine := command.stage
    rw [atCmdLine, dispatch, if_pos rfl]
    rfl
  rw [ran, shown]
  simp only [sameHeard]
  rfl

/-- One message for every element that meets a condition. -/
theorem flatMap_one
    {α β : Type}
    (condition : α → Prop) [DecidablePred condition]
    (message : β)
    (list : List α) :
    (list.flatMap fun element => if condition element then [message] else []) =
      (list.filter fun element => condition element).map fun _ => message := by
  induction list with
  | nil => rfl
  | cons first rest inductionHypothesis =>
      rw [List.flatMap_cons, inductionHypothesis]
      by_cases holds : condition first <;> simp [holds]

/-- What a connected session hears of a command: one message, if an identifier
was free and the offset of the text was in the line. -/
theorem sentTo_say
    (env : Env)
    {core : Core}
    {me other connection : Nat}
    {com : Splitline}
    (linked : Linked core)
    (ordered : Ordered core)
    (command : SayCommand core me com)
    (different : other ≠ me)
    (client : (core.users other).client = some connection)
    (isOpen : (core.connections connection).state = .open) :
    sentTo connection ((parseLine env me).run core).obs =
      match announced core com with
      | none => []
      | some said =>
          [messageBytes (escape false (sayText (core.users me).name said))] := by
  obtain ⟨front, back, quiet, shown⟩ := run_parseLine_say env command
  have notMine : (core.users me).client ≠ some connection := fun mine =>
    different (linked.same_of_client client mine)
  obtain ⟨frontQuiet, backQuiet⟩ := quiet connection notMine
  rw [shown, sentTo_append, sentTo_append, frontQuiet, backQuiet,
    List.nil_append, List.append_nil]
  cases announced core com with
  | none => rfl
  | some said =>
      have entries := linked.count_listed ordered client isOpen
      have only : ∀ entry : Nat × Nat,
          sentTo connection (if entry.2 = me then []
            else derefObs core entry.2 ++ writeObs core entry.2
              (escape false (sayText (core.users me).name said))) =
            if entry.2 = other then
              [messageBytes (escape false
                (sayText (core.users me).name said))]
            else [] := by
        intro entry
        by_cases isOther : entry.2 = other
        · rw [if_pos isOther, isOther, if_neg different, sentTo_append,
            sentTo_deref, List.nil_append]
          exact sentTo_write client
            (linked.attached other connection client).connected isOpen
            (escape_sayText_ne_nil _ _)
        · rw [if_neg isOther]
          split
          · rfl
          · rw [sentTo_append, sentTo_deref, List.nil_append]
            exact sentTo_write_other (fun same =>
              isOther (linked.same_of_client same client)) _
      simp only [heard, sentTo_flatMap, only]
      rw [flatMap_one, entries]
      rfl

/-! ## The text that was typed -/

/-- The text of a `say`: the line from its second word on. -/
def spoken (line : Bytes) : Option Bytes :=
  (Splitline.starts line)[1]?.map fun offset => line.drop offset

/-- The message that the others are meant to get. -/
def announcement (name said : Bytes) : Bytes :=
  cStr (escape false (sayText name said)) ++ [0]

/-- The text of a command gets to every other session that is logged in, once,
and a session that is not logged in is sent nothing. -/
def Reaches (env : Env) (core : Core) (me : Nat) : Prop :=
  ∀ other connection, other ≠ me →
    (core.users other).client = some connection →
      (core.connections connection).state = .open →
        let sent := sentTo connection ((parseLine env me).run core).obs
        if (core.users other).level = .login then sent.flatten = []
        else ∃ typed, spoken (cleanString (core.users me).text) = some typed ∧
          sent.count (announcement (core.users me).name typed) = 1

/-- A session that is not logged in is sent nothing. -/
theorem Reaches.silent
    {env : Env}
    {core : Core}
    {me other connection : Nat}
    (reaches : Reaches env core me)
    (different : other ≠ me)
    (client : (core.users other).client = some connection)
    (isOpen : (core.connections connection).state = .open)
    (level : (core.users other).level = .login) :
    (sentTo connection ((parseLine env me).run core).obs).flatten = [] := by
  have reached := reaches other connection different client isOpen
  simpa only [level, if_true] using reached

/-- A command is announced to the others: an identifier is free for it, the
second recorded offset is in the line, and the message is not too long. -/
def Announces (core : Core) (me : Nat) (com : Splitline) : Prop :=
  core.autoID.construct ≠ none ∧ ∃ said, com.wordptr 1 = .ok said ∧
    (cStr (escape false (sayText (core.users me).name said))).length ≤ 8192

/-- The second offset that has been recorded since the session began is where
the second word of this line starts. -/
def PointsAtText (core : Core) (me : Nat) (com : Splitline) : Prop :=
  com.wordPtr[1]? =
    (Splitline.starts (cleanString (core.users me).text))[1]?

/-- A message without NUL is printed as it is but for the line feeds. -/
theorem announcement_eq
    (name : Bytes)
    {said : Bytes}
    (noNul : 0 ∉ said) :
    announcement name said =
      withReturns (cStr name ++ lit " say: " ++ said ++ lit "\n") ++ [0] := by
  have noNulText : 0 ∉ sayText name said := by
    have name : 0 ∉ cStr name := fun inside => ne_zero_of_mem_cStr inside rfl
    have front : 0 ∉ lit " say: " := by decide +kernel
    have back : 0 ∉ lit "\n" := by decide +kernel
    simp only [sayText, List.mem_append, not_or, cStr_of_noNul noNul]
    exact ⟨⟨⟨name, front⟩, noNul⟩, back⟩
  have ends : heldBack false (sayText name said) = false := by
    rw [Bool.eq_false_iff, ne_eq, heldBack_eq_true_iff, sayText]
    have last : lit "\n" = [lf] := by decide +kernel
    rw [last, List.getLast?_concat]
    decide
  have printed := escape_append_held noNulText false
  rw [ends, show held false = [] from rfl, List.append_nil, List.nil_append]
    at printed
  rw [announcement, printed, cStr_of_noNul (noNul_withReturns noNulText),
    sayText, cStr_of_noNul noNul]

/-- Texts of a line that start at different offsets are announced
differently. -/
theorem announcement_drop_inj
    {name line : Bytes}
    (noNul : 0 ∉ line)
    {first second : Nat}
    (firstInside : first ≤ line.length)
    (secondInside : second ≤ line.length) :
    announcement name (line.drop first) = announcement name (line.drop second) ↔
      first = second := by
  have noNulDrop (offset : Nat) : 0 ∉ line.drop offset :=
    fun inside => noNul (List.mem_of_mem_drop inside)
  refine ⟨fun same => ?_, fun same => same ▸ rfl⟩
  rw [announcement_eq name (noNulDrop first),
    announcement_eq name (noNulDrop second)] at same
  have sizes := congrArg List.length same
  simp only [List.length_append, length_withReturns, List.count_append,
    List.length_drop] at sizes
  rcases Nat.lt_trichotomy first second with below | same | above
  · have fewer := (List.drop_suffix_drop_left line below.le).count_le lf
    omega
  · exact same
  · have fewer := (List.drop_suffix_drop_left line above.le).count_le lf
    omega

/-- The words of a command are those of its line, with its offsets behind the
earlier ones. -/
theorem SayCommand.parsed_eq
    {core : Core}
    {me : Nat}
    {com : Splitline}
    (command : SayCommand core me com) :
    com.line = cleanString (core.users me).text ∧
      ∃ offset, (Splitline.starts (cleanString (core.users me).text))[1]? =
        some offset := by
  obtain ⟨startQuote, endQuote, parsed⟩ := (core.users me).com.parse_eq
    (cleanString (core.users me).text)
  rw [command.parsed] at parsed
  obtain ⟨first, second, rest, words, -⟩ := command.word
  have com_eq := Except.ok.inj parsed
  have two : 1 < (Splitline.starts (cleanString (core.users me).text)).length := by
    have sameWords : com.word = Splitline.words (cleanString
        (core.users me).text) := congrArg Splitline.word com_eq
    rw [← Splitline.length_words, ← sameWords, words]
    simp
  refine ⟨?_, _, List.getElem?_eq_getElem two⟩
  have notEmpty : cleanString (core.users me).text ≠ [] := by
    intro empty
    rw [empty] at two
    exact absurd two (by decide)
  rw [com_eq]
  exact if_neg notEmpty

/-- What the others are sent is the text that was typed exactly when the second
recorded offset points at it. -/
theorem SayCommand.announcement_eq_iff
    {core : Core}
    {me : Nat}
    {com : Splitline}
    (command : SayCommand core me com)
    (noNul : (core.users me).NoNul)
    {said : Bytes}
    (told : com.wordptr 1 = .ok said) :
    (∃ typed, spoken (cleanString (core.users me).text) = some typed ∧
        announcement (core.users me).name said =
          announcement (core.users me).name typed) ↔
      PointsAtText core me com := by
  obtain ⟨line, offset, starts⟩ := command.parsed_eq
  have clean : 0 ∉ cleanString (core.users me).text :=
    noNul_cleanString (noNul _)
  have inside := Splitline.starts_lt (List.mem_of_getElem? starts)
  unfold Splitline.wordptr at told
  rw [line] at told
  rw [PointsAtText, spoken, starts]
  cases recorded : com.wordPtr[1]? with
  | none =>
      rw [recorded] at told
      cases told
  | some position =>
      rw [recorded] at told
      simp only [substr] at told
      split at told
      · rename_i inLine
        have said_eq := Except.ok.inj told
        have injective := @announcement_drop_inj (core.users me).name _ clean
          position offset inLine inside.le
        simp only [Option.map_some, Option.some.injEq, exists_eq_left', ←
          said_eq, injective]
      · cases told

/-- The text reaches the right sessions if and only if the command is announced
to the other connected sessions with the text that was typed and they are all
logged in, or it is not announced and none of them is. -/
theorem reaches_iff
    {env : Env}
    {core : Core}
    {me : Nat}
    {com : Splitline}
    (linked : Linked core)
    (ordered : Ordered core)
    (noNul : (core.users me).NoNul)
    (command : SayCommand core me com) :
    Reaches env core me ↔
      ∀ other connection, other ≠ me →
        (core.users other).client = some connection →
          (core.connections connection).state = .open →
            if (core.users other).level = .login then ¬ Announces core me com
            else Announces core me com ∧ PointsAtText core me com := by
  refine forall_congr' fun other => forall_congr' fun connection =>
    forall_congr' fun different => forall_congr' fun client =>
      forall_congr' fun isOpen => ?_
  have sent := sentTo_say env linked ordered command different client isOpen
  simp only [sent]
  by_cases free : core.autoID.construct = none
  · have silent : announced core com = none := if_pos free
    have notAnnounced : ¬ Announces core me com := fun announces =>
      announces.1 free
    rw [silent]
    simp [notAnnounced]
  · have said : announced core com = (com.wordptr 1).toOption := if_neg free
    rw [said]
    cases told : com.wordptr 1 with
    | error fault =>
        have notAnnounced : ¬ Announces core me com := by
          rintro ⟨-, said, toldToo, -⟩
          rw [told] at toldToo
          cases toldToo
        simp [notAnnounced, Except.toOption]
    | ok said =>
        simp only [Except.toOption, messageBytes]
        by_cases long : (cStr (escape false
            (sayText (core.users me).name said))).length > 8192
        · have notAnnounced : ¬ Announces core me com := by
            rintro ⟨-, other, toldToo, short⟩
            rw [told] at toldToo
            rw [← Except.ok.inj toldToo] at short
            omega
          simp [notAnnounced, if_pos long, announcement]
        · have announces : Announces core me com :=
            ⟨free, said, told, not_lt.mp long⟩
          rw [if_neg long, ← command.announcement_eq_iff noNul told]
          simp [announces, announcement, List.count_singleton]

/-- In every run, the text of a command reaches the right sessions if and only
if the command is announced to the other connected sessions with the text that
was typed and they are all logged in, or it is not announced and none of them
is. -/
theorem say_reaches_iff
    {env : Env}
    {rows : List Database.Row}
    {events : List Event}
    {before after : List Handed}
    {handed : Handed}
    {com : Splitline}
    (handedOver : handedIn (World.after env rows events).trace =
      before ++ handed :: after)
    (command : SayCommand handed.core handed.user com) :
    Reaches env handed.core handed.user ↔
      ∀ other connection, other ≠ handed.user →
        (handed.core.users other).client = some connection →
          (handed.core.connections connection).state = .open →
            if (handed.core.users other).level = .login then
              ¬ Announces handed.core handed.user com
            else Announces handed.core handed.user com ∧
              PointsAtText handed.core handed.user com := by
  obtain ⟨-, -, recorded⟩ := (ordered_invariant env).recorded.after rows events
  obtain ⟨-, -, clean⟩ := (noNul_invariant env).recorded.after rows events
  obtain ⟨⟨connection, session⟩, ordered⟩ :=
    recorded before handed after handedOver
  exact reaches_iff session.linked ordered
    ((clean before handed after handedOver).2 handed.user) command

/-- Ann is logged in and says hi, while another client looks at the login
prompt. -/
def annSays : List Event :=
  [.accept, .packet 0 (lit "ann\rsecret\rsecret\r\r"),
    .accept, .packet 1 (lit "\n"), .packet 0 (lit "say hi\r")]

/-- The lines of Ann. -/
def annSaid : List Handed :=
  handedIn (World.after (Env.testing []) [] annSays).trace

/-- The words of her command. -/
def sayHi : Splitline :=
  { word := [lit "say", lit "hi"], line := lit "say hi", wordPtr := [0, 4] }

/-- Her last line is the command, and the other client hears it. -/
theorem annSaid_command :
    ∃ before handed after, annSaid = before ++ handed :: after ∧
      SayCommand handed.core handed.user sayHi ∧ 1 ≠ handed.user ∧
      (handed.core.users 1).client = some 1 ∧
      (handed.core.connections 1).state = .open ∧
      (handed.core.users 1).level = .login ∧
      (sentTo 1 ((parseLine (Env.testing []) handed.user).run
        handed.core).obs).flatten ≠ [] := by
  have inside : 4 < annSaid.length := by decide +kernel
  refine ⟨annSaid.take 4, annSaid[4], annSaid.drop 5, ?_, ⟨?_, ?_, ?_,
    lit "say", lit "hi", [], by decide +kernel, by decide⟩, ?_⟩
  · rw [← List.drop_eq_getElem_cons inside, List.take_append_drop]
  · revert inside
    decide +kernel
  · revert inside
    decide +kernel
  · revert inside
    decide +kernel
  · revert inside
    decide +kernel

/-- The last line of Ann. -/
theorem say_reaches_ann :
    ∃ handed ∈ annSaid,
      Reaches (Env.testing []) handed.core handed.user ↔
        ∀ other connection, other ≠ handed.user →
          (handed.core.users other).client = some connection →
            (handed.core.connections connection).state = .open →
              if (handed.core.users other).level = .login then
                ¬ Announces handed.core handed.user sayHi
              else Announces handed.core handed.user sayHi ∧
                PointsAtText handed.core handed.user sayHi := by
  obtain ⟨before, handed, after, handedOver, command, -⟩ := annSaid_command
  have inside : handed ∈ annSaid := by
    rw [handedOver]
    simp
  exact ⟨handed, inside, say_reaches_iff handedOver command⟩

/-- The client at the login prompt hears her. -/
theorem login_hears :
    ¬ ∀ env rows events,
      ∀ handed ∈ handedIn (World.after env rows events).trace,
        ∀ com, SayCommand handed.core handed.user com →
          Reaches env handed.core handed.user := by
  intro always
  obtain ⟨before, handed, after, handedOver, command, different, client, isOpen,
    level, hears⟩ := annSaid_command
  have inside : handed ∈ annSaid := by
    rw [handedOver]
    simp
  have reaches := always (Env.testing []) [] annSays handed inside sayHi command
  exact hears (reaches.silent different client isOpen level)

end Network
end Lotospp
