import Lotospp.Network.PoolFunctions

/-!
# Where the messages of the pool are

Every message that has been created is in the free list, or pointed to, or
waits for the task that puts it back; never in two of these places, and never
twice in one of them.
-/

namespace Lotospp
namespace Network
namespace OutputPool

open Common Effect World

/-- In how many places a message is. -/
def World.placesOf (world : World) (message : Nat) : Nat :=
  world.outputMessages.count message +
    world.tasks.count (.releaseMessage message) +
    if message ∈ world.pointers then 1 else 0

/-- Every message that has been created is in one place, and the free ones
belong to nobody. -/
structure Places (world : World) : Prop where
  place : ∀ message, world.placesOf message =
    if message < world.created then 1 else 0
  free : ∀ message ∈ world.outputMessages,
    (world.messages message).state = .free ∧
      (world.messages message).protocol = none ∧
      (world.messages message).connection = none
  bufferStart : ∀ message, (world.messages message).outputBufferStart = 0

namespace Places

variable {world world' : World}

/-- It is about messages, pointers and tasks that release messages. -/
theorem congr
    (places : Places world)
    (messages : world'.messages = world.messages)
    (created : world'.created = world.created)
    (outputMessages : world'.outputMessages = world.outputMessages)
    (tasks : ∀ message, world'.tasks.count (.releaseMessage message) =
      world.tasks.count (.releaseMessage message))
    (pointers : ∀ message,
      message ∈ world'.pointers ↔ message ∈ world.pointers) :
    Places world' := by
  refine ⟨fun message => ?_, ?_, ?_⟩
  · rw [placesOf, outputMessages, created, tasks, ← places.place message,
      placesOf]
    simp only [pointers]
  · simpa only [messages, outputMessages] using places.free
  · simpa only [messages] using places.bufferStart

theorem atMostOnce
    (places : Places world)
    (message : Nat) :
    world.placesOf message ≤ 1 := by
  rw [places.place]
  split <;> omega

theorem created_of_somewhere
    (places : Places world)
    {message : Nat}
    (somewhere : 0 < world.placesOf message) :
    message < world.created := by
  by_contra unmade
  rw [places.place, if_neg unmade] at somewhere
  exact absurd somewhere (Nat.lt_irrefl 0)

/-- A message that is pointed to is in no other place. -/
theorem of_pointed
    (places : Places world)
    {message : Nat}
    (pointed : message ∈ world.pointers) :
    message < world.created ∧ message ∉ world.outputMessages ∧
      .releaseMessage message ∉ world.tasks := by
  have once := places.atMostOnce message
  have created : 0 < world.placesOf message → message < world.created :=
    places.created_of_somewhere
  rw [placesOf, if_pos pointed] at once created
  refine ⟨created (by omega), ?_, ?_⟩ <;>
    · rw [← List.count_eq_zero]
      omega

/-- A message that waits to be released is in no other place. -/
theorem of_waiting
    (places : Places world)
    {message : Nat}
    (waiting : .releaseMessage message ∈ world.tasks) :
    message < world.created ∧ message ∉ world.outputMessages ∧
      message ∉ world.pointers ∧
      world.tasks.count (.releaseMessage message) = 1 := by
  have counted := List.count_pos_iff.mpr waiting
  have once := places.atMostOnce message
  have unpointed : message ∉ world.pointers := fun pointed =>
    (places.of_pointed pointed).2.2 waiting
  have created : 0 < world.placesOf message → message < world.created :=
    places.created_of_somewhere
  rw [placesOf, if_neg unpointed] at once created
  refine ⟨created (by omega), ?_, unpointed, by omega⟩
  rw [← List.count_eq_zero]
  omega

/-- A message that is free is in no other place. -/
theorem of_free
    (places : Places world)
    {message : Nat}
    (free : message ∈ world.outputMessages) :
    message < world.created ∧ message ∉ world.pointers ∧
      .releaseMessage message ∉ world.tasks ∧
      world.outputMessages.count message = 1 := by
  have counted := List.count_pos_iff.mpr free
  have once := places.atMostOnce message
  have unpointed : message ∉ world.pointers := fun pointed =>
    (places.of_pointed pointed).2.1 free
  have unawaited : .releaseMessage message ∉ world.tasks := fun waiting =>
    (places.of_waiting waiting).2.1 free
  have created : 0 < world.placesOf message → message < world.created :=
    places.created_of_somewhere
  rw [placesOf, if_neg unpointed] at once created
  exact ⟨created (by omega), unpointed, unawaited, by omega⟩

/-- A message that has not been created is nowhere. -/
theorem of_unmade
    (places : Places world)
    {message : Nat}
    (unmade : world.created ≤ message) :
    message ∉ world.outputMessages ∧ message ∉ world.pointers ∧
      .releaseMessage message ∉ world.tasks := by
  refine ⟨fun free => ?_, fun pointed => ?_, fun waiting => ?_⟩
  · exact absurd (places.of_free free).1 (Nat.not_lt.mpr unmade)
  · exact absurd (places.of_pointed pointed).1 (Nat.not_lt.mpr unmade)
  · exact absurd (places.of_waiting waiting).1 (Nat.not_lt.mpr unmade)

/-- The message that is handed out next is nowhere but in the free list. -/
theorem of_takeFree (places : Places world) :
    world.takeFree.1 ∉ world.pointers ∧
      .releaseMessage world.takeFree.1 ∉ world.tasks := by
  cases free : world.outputMessages with
  | nil =>
      have nowhere := places.of_unmade (Nat.le_refl world.created)
      simpa only [takeFree, free] using nowhere.2
  | cons message rest =>
      have only := places.of_free (by simp [free] : message ∈ _)
      simpa only [takeFree, free] using ⟨only.2.1, only.2.2.1⟩

/-! ## Small changes -/

/-- The last pointer of a message goes, and its task is added. -/
theorem drops
    (places : Places world)
    {message : Nat}
    (same : SameButPointers world world')
    (pointed : message ∈ world.pointers)
    (pointers : ∀ other, other ∈ world.pointers ↔
      other ∈ world'.pointers ∨ other = message) :
    Places (world'.dropped message) := by
  unfold dropped
  split
  · next still =>
      refine places.congr same.messages same.created same.outputMessages
        (fun other => by rw [same.tasks]) fun other => ?_
      rw [pointers]
      constructor
      · exact .inl
      · rintro (found | rfl)
        · exact found
        · exact still
  · next gone =>
      refine ⟨fun other => ?_, ?_, ?_⟩
      · have before := places.place other
        show world'.outputMessages.count other +
            (.releaseMessage message :: world'.tasks).count
              (.releaseMessage other) +
            (if other ∈ world'.pointers then 1 else 0) =
          if other < world'.created then 1 else 0
        rw [placesOf] at before
        rw [same.outputMessages, same.tasks, same.created, ← before,
          List.count_cons]
        simp only [pointers other]
        by_cases dropped : other = message
        · subst dropped
          simp [gone]
          omega
        · simp [dropped, Ne.symm dropped]
      · simpa only [releaseMessage, same.messages, same.outputMessages]
          using places.free
      · simpa only [releaseMessage, same.messages] using places.bufferStart

/-- The text that a message had is gone when it is handed out. -/
theorem takeFree_bufferStart (places : Places world) :
    (world.takeFree.2.messages world.takeFree.1).outputBufferStart = 0 := by
  cases free : world.outputMessages with
  | nil => simp [takeFree, free]
  | cons message rest => simpa [takeFree, free] using places.bufferStart _

/-- A message is handed out. -/
theorem takes
    (places : Places world)
    (protocol connection : Nat) (autosend : Bool) :
    Places (world.handOut protocol connection autosend) := by
  refine ⟨fun message => ?_, fun message free => ?_, fun message => ?_⟩
  · have before := places.place message
    have nowhere := places.of_takeFree
    rw [placesOf] at before ⊢
    rw [handOut_outputMessages, handOut_tasks, handOut_created]
    simp only [mem_pointers_handOut]
    cases free : world.outputMessages with
    | nil =>
        simp only [takeFree, free] at nowhere ⊢
        by_cases new : message = world.created
        · subst new
          have absent := List.count_eq_zero.mpr nowhere.2
          simp [absent]
        · have same : message < world.created + 1 ↔ message < world.created := by
            omega
          simpa [new, free, same] using before
    | cons head rest =>
        simp only [takeFree, free] at nowhere ⊢
        rw [free, List.count_cons] at before
        by_cases taken : message = head
        · subst taken
          simpa [nowhere.1, Nat.add_right_comm] using before
        · simpa [taken, Ne.symm taken] using before
  · rw [handOut_outputMessages] at free
    have listed := List.mem_of_mem_tail free
    have once := (places.of_free listed).2.2.2
    have different : message ≠ world.takeFree.1 := by
      rintro rfl
      cases found : world.outputMessages with
      | nil =>
          rw [found] at listed
          cases listed
      | cons head rest =>
          simp only [takeFree, found, List.tail_cons, List.count_cons_self]
            at free once
          have := List.count_pos_iff.mpr free
          omega
    rw [handOut_messages, Function.update_of_ne different]
    exact places.free message listed
  · rw [handOut_messages]
    by_cases same : message = world.takeFree.1
    · subst same
      simpa [Message.reset] using places.takeFree_bufferStart
    · rw [Function.update_of_ne same]
      exact places.bufferStart message

/-- A message goes back to the pool. -/
theorem releases
    (places : Places world)
    {message : Nat} {rest : List Task}
    (first : world.tasks = .releaseMessage message :: rest) :
    Places ({ world with tasks := rest }.internalReleaseMessage message) := by
  have pointers : (({ world with tasks := rest } : World).internalReleaseMessage
      message).pointers = world.pointers :=
    internalReleaseMessage_pointers
  refine ⟨fun other => ?_, fun other free => ?_, fun other => ?_⟩
  · have before := places.place other
    rw [placesOf, first, List.count_cons] at before
    rw [placesOf, pointers, internalReleaseMessage_eq]
    simp only [List.count_cons]
    rw [← before]
    simp
    omega
  · rw [internalReleaseMessage_messages]
    by_cases same : other = message
    · simp [same, Message.freeMessage]
    · rw [Function.update_of_ne same]
      rw [internalReleaseMessage_eq] at free
      exact places.free other (List.mem_of_ne_of_mem same free)
  · rw [internalReleaseMessage_messages]
    by_cases same : other = message
    · simp [same, Message.freeMessage]
    · rw [Function.update_of_ne same]
      exact places.bufferStart other

/-- Tasks that release messages are neither added nor taken. -/
theorem of_tasks
    (places : Places world)
    {tasks : List Task} {events : List Event}
    (same : ∀ message, tasks.count (.releaseMessage message) =
      world.tasks.count (.releaseMessage message)) :
    Places { world with tasks := tasks, events := events } :=
  places.congr rfl rfl rfl same fun _ => Iff.rfl

/-- Protocols and connections change, but no output buffer does. -/
theorem of_buffers
    (places : Places world)
    {protocols : Nat → Protocol} {connections : Nat → Connection}
    {protocolCount connectionCount : Nat}
    (same : ∀ protocol message,
      protocol < protocolCount ∧
          (protocols protocol).outputBuffer = some message ↔
        protocol < world.protocolCount ∧
          (world.protocols protocol).outputBuffer = some message) :
    Places
      { world with
        protocols := protocols
        protocolCount := protocolCount
        connections := connections
        connectionCount := connectionCount } := by
  refine places.congr rfl rfl rfl (fun _ => rfl) fun message => ?_
  simp only [mem_pointers, same]

/-- A protocol changes, but not its output buffer. -/
theorem of_protocol
    (places : Places world)
    {protocol : Nat} {change : Protocol → Protocol}
    (same : ∀ protocol,
      (change protocol).outputBuffer = protocol.outputBuffer) :
    Places (world.updateProtocol protocol change) := by
  refine places.of_buffers fun other _ => ?_
  by_cases found : other = protocol <;> simp [found, same]

/-- A protocol is made. -/
theorem of_newProtocol
    (places : Places world)
    {connections : Nat → Connection}
    {connectionCount : Nat} {connection : Option Nat} :
    Places
      { world with
        protocols := Function.update world.protocols world.protocolCount
          { connection := connection }
        protocolCount := world.protocolCount + 1
        connections := connections
        connectionCount := connectionCount } := by
  refine places.of_buffers fun protocol message => ?_
  by_cases new : protocol = world.protocolCount
  · simp [new]
  · have bound : protocol < world.protocolCount + 1 ↔
        protocol < world.protocolCount := by
      omega
    simp [new, bound]

/-- Every small change keeps it. -/
theorem change
    (places : Places world)
    (change : Change world world') :
    Places world' := by
  cases change with
  | points same pointers =>
      exact places.congr same.messages same.created same.outputMessages
        (fun _ => by rw [same.tasks]) pointers
  | drops same pointed pointers => exact places.drops same pointed pointers
  | takes => exact places.takes _ _ _
  | releases first => exact places.releases first
  | @texts message change pointed protocol connection bufferStart =>
      have used := (places.of_pointed pointed).2.1
      refine ⟨places.place, fun other free => ?_, fun other => ?_⟩
      · have different : other ≠ message := by
          rintro rfl
          exact used free
        simpa [World.updateMessage, different] using places.free other free
      · have before := places.bufferStart other
        by_cases same : other = message
        · simpa [World.updateMessage, same, bufferStart] using
            places.bufferStart message
        · simpa [World.updateMessage, same] using before
  | opens => exact places.congr rfl rfl rfl (fun _ => rfl) fun _ => Iff.rfl
  | writes => exact places.of_buffers fun _ _ => Iff.rfl
  | closes => exact places.of_buffers fun _ _ => Iff.rfl
  | requests => exact places.of_tasks (by simp)
  | unlinks => exact places.of_protocol fun _ => rfl
  | deletesProtocol => exact places.of_protocol fun _ => rfl
  | detaches => exact places.of_buffers fun _ _ => Iff.rfl
  | schedules => exact places.of_tasks fun _ => rfl
  | deletesConnection => exact places.of_buffers fun _ _ => Iff.rfl
  | due => exact places.of_tasks (by simp)
  | takesTask first other =>
      refine places.of_tasks fun message => ?_
      rw [first, List.count_cons_of_ne (other message)]
  | accepts singleSocket =>
      cases singleSocket with
      | false => exact places.of_buffers fun _ _ => Iff.rfl
      | true => exact places.of_newProtocol
  | makes made =>
      unfold makeProtocol at made
      split at made
      · cases made
        exact places.of_newProtocol
      · cases made

/-- At first every message is free. -/
theorem start : Places machine.start := by
  refine ⟨fun message => ?_, fun message _ => ⟨rfl, rfl, rfl⟩, fun _ => rfl⟩
  have unpointed : message ∉ machine.start.pointers := by
    simp [machine, pointers]
  rw [placesOf, if_neg unpointed]
  show (List.range outputPoolSize).reverse.count message + 0 + 0 =
    if message < outputPoolSize then 1 else 0
  rw [List.count_reverse, Nat.add_zero]
  by_cases created : message < outputPoolSize
  · rw [if_pos created]
    exact List.count_eq_one_of_mem List.nodup_range
      (List.mem_range.mpr created)
  · rw [if_neg created, List.count_eq_zero, List.mem_range]
    exact created

end Places

/-- In every reachable state. -/
theorem places_after (actions : List Action) :
    Places (machine.after actions) := by
  have run := changes_of_run sound_start actions
  exact run.keeps (fun _ _ => Places.change) Places.start

namespace World

/-- Once in the free list, free and of no protocol and no connection. -/
def IsFree (world : World) (message : Nat) : Prop :=
  world.outputMessages.count message = 1 ∧
    (world.messages message).state = .free ∧
    (world.messages message).protocol = none ∧
    (world.messages message).connection = none

/-- Live pointers hold the message. -/
def IsHeld (world : World) (message : Nat) : Prop :=
  message ∈ world.pointers

/-- A release task names the message. -/
def IsAwaited (world : World) (message : Nat) : Prop :=
  world.tasks.count (.releaseMessage message) = 1

/-- The message is in none but one place. -/
def InOnePlace (world : World) (message : Nat) : Prop :=
  world.IsFree message ∧ message ∉ world.pointers ∧
      .releaseMessage message ∉ world.tasks ∨
    world.IsHeld message ∧ message ∉ world.outputMessages ∧
      .releaseMessage message ∉ world.tasks ∨
    world.IsAwaited message ∧ message ∉ world.outputMessages ∧
      message ∉ world.pointers

/-- The message was not in use, and is empty and in use now. -/
def HandsOut (world world' : World) (message : Nat) : Prop :=
  message ∉ world.pointers ∧ .releaseMessage message ∉ world.tasks ∧
    message ∈ world'.pointers ∧ message ∉ world'.outputMessages ∧
    (world'.messages message).msgSize = 0 ∧
    (world'.messages message).readPos = 0 ∧
    (world'.messages message).outputBufferStart = 0

end World

theorem Places.inOnePlace
    {world : World}
    (places : Places world)
    {message : Nat}
    (created : message < world.created) :
    world.InOnePlace message := by
  by_cases free : message ∈ world.outputMessages
  · have only := places.of_free free
    exact .inl ⟨⟨only.2.2.2, places.free message free⟩, only.2.1, only.2.2.1⟩
  · by_cases pointed : message ∈ world.pointers
    · exact .inr (.inl ⟨pointed, free, (places.of_pointed pointed).2.2⟩)
    · have place := places.place message
      rw [placesOf, if_neg pointed, if_pos created,
        List.count_eq_zero.mpr free] at place
      exact .inr (.inr ⟨by rw [IsAwaited]; omega, free, pointed⟩)

theorem Places.handsOut
    {world world' : World}
    (places : Places world)
    {protocol message : Nat} {autosend : Bool}
    (got : world.getOutputMessage protocol autosend =
      (some message, world')) :
    world.HandsOut world' message := by
  obtain ⟨connection, -, rfl, rfl⟩ := getOutputMessage_eq_some got
  have nowhere := places.of_takeFree
  have after := places.takes protocol connection autosend
  have pointed : world.takeFree.1 ∈
      (world.handOut protocol connection autosend).pointers :=
    mem_pointers_handOut.mpr (.inl rfl)
  refine ⟨nowhere.1, nowhere.2, pointed, (after.of_pointed pointed).2.1, ?_,
    ?_, after.bufferStart _⟩ <;>
      simp [handOut_messages, Message.reset]

/-- At each moment every message that was ever created is in exactly one
place: once in the free list, or held by live pointers, or named by exactly
one release task; and a message that is handed out was not in use, and is
empty. -/
theorem one_place (actions : List Action) :
    (∀ message < (machine.after actions).created,
      (machine.after actions).InOnePlace message) ∧
    ∀ protocol autosend message world',
      (machine.after actions).getOutputMessage protocol autosend =
        (some message, world') →
      (machine.after actions).HandsOut world' message :=
  ⟨fun _ => (places_after actions).inOnePlace,
    fun _ _ _ _ => (places_after actions).handsOut⟩

/-- A client connects and its protocol asks for a message, which is dropped
at once. -/
theorem one_place_of_dropped :
    (machine.after [.startExecutionFrame 1, .onAccept true,
      .getOutputMessage 0 false, .drop 99]).InOnePlace 99 :=
  (one_place [.startExecutionFrame 1, .onAccept true,
    .getOutputMessage 0 false, .drop 99]).1 99 (by decide)

end OutputPool
end Network
end Lotospp
