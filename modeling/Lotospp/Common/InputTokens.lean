import Lotospp.Common.PendingBytes

/-!
# The tokens of a session

However the input of a session is cut into packets, the session reads the
tokens that the decoder finds in the whole input, and keeps in its telnet
buffer what is left behind them.
-/

namespace Lotospp
namespace Common

open Text Effect

/-- The tokens that a session has read. -/
def tokensRead (obs : List Obs) : List Token :=
  obs.flatMap fun observation =>
    match observation with
    | .text _ byte => [.text byte]
    | .consumed _ pending _ _ =>
        (decodeCommand pending).toList.map fun found => .command found.1
    | _ => []

@[simp] theorem tokensRead_append (obs more : List Obs) :
    tokensRead (obs ++ more) = tokensRead obs ++ tokensRead more :=
  List.flatMap_append

theorem tokensRead_silent {obs : List Obs} (silent : Silent obs) :
    tokensRead obs = [] := by
  rw [tokensRead, List.flatMap_eq_nil_iff]
  intro observation shown
  obtain ⟨-, noText, noCommand⟩ := silent observation shown
  cases observation with
  | text me byte => simp [interpreted] at noText
  | consumed me pending count buffer =>
      exact absurd rfl (noCommand me pending count buffer)
  | _ => rfl

/-! ## The front of the text -/

theorem telnet_text
    {byte : UInt8}
    (isText : byte ≠ telcmdIAC)
    (rest : Bytes) :
    telnet.next (byte :: rest) = some (.text byte, 1) := by
  simp [telnet, nextToken, isText]

theorem telnet_command
    {todo : Bytes}
    (front : todo.head? = some telcmdIAC)
    {command : TeloptCommand}
    {size : Nat}
    (decoded : decodeCommand todo = some (command, size)) :
    telnet.next todo = some (.command command, size) := by
  obtain ⟨rest, rfl⟩ := List.head?_eq_some_iff.mp front
  simp [telnet, nextToken, decoded]

theorem telnet_incomplete
    {todo : Bytes}
    (front : todo.head? = some telcmdIAC)
    (undecoded : decodeCommand todo = none) : telnet.next todo = none := by
  obtain ⟨rest, rfl⟩ := List.head?_eq_some_iff.mp front
  simp [telnet, nextToken, undecoded]

/-! ## Reading packets -/

/-- The tokens of what has been given are those that have been read and those
of the text still to be read. -/
def Decodes (given todo : Bytes) (past : List Obs) : Prop :=
  TamePast past →
    telnet.tokens given = tokensRead past ++ telnet.tokens todo ∧
      telnet.rest given = telnet.rest todo

/-- All tokens of what has been given have been read. -/
def Decoded (given pending : Bytes) (past : List Obs) : Prop :=
  TamePast past →
    telnet.tokens given = tokensRead past ∧ telnet.rest given = pending

section Tokens

variable {given todo : Bytes} {past more : List Obs}

theorem Decodes.append
    (decodes : Decodes given todo past)
    (reads : tokensRead more = []) : Decodes given todo (past ++ more) := by
  intro tame
  rw [tokensRead_append, reads, List.append_nil]
  exact decodes ((tamePast_append ..).mp tame).1

/-- The token at the front is read. -/
theorem Decodes.read
    (decodes : Decodes given todo past)
    {token : Token}
    {count : Nat}
    (found : telnet.next todo = some (token, count))
    (reads : tokensRead more = [token]) :
    Decodes given (todo.drop count) (past ++ more) := by
  intro tame
  obtain ⟨tokens, rest⟩ := decodes ((tamePast_append ..).mp tame).1
  rw [telnet.tokens_of_some found] at tokens
  rw [telnet.rest_of_some found] at rest
  refine ⟨?_, rest⟩
  rw [tokens, tokensRead_append, reads, List.append_assoc,
    List.singleton_append]

/-- No token is left. -/
theorem Decodes.ends
    (decodes : Decodes given todo past)
    (none : telnet.next todo = none) : Decoded given todo past := by
  intro tame
  obtain ⟨tokens, rest⟩ := decodes tame
  rw [telnet.tokens_of_none none, List.append_nil] at tokens
  rw [telnet.rest_of_none none] at rest
  exact ⟨tokens, rest⟩

end Tokens

/-- The text is read token by token, as the decoder finds them. -/
theorem decodes_rule (env : Env) (me : Nat) (given : Bytes) :
    ReadRule env me (fun todo _ => Decodes given todo)
      (fun todo _ => Decodes given todo) (fun _ past => ¬ TamePast past)
      (fun pending _ => Decoded given pending) (fun _ _ _ _ => True) where
  text := by
    intro byte rest core past isText decodes
    obtain ⟨obs, ran, silent⟩ := run_ordinary_silent env me byte rest core
    have reads : tokensRead (.text me byte :: obs) = [.text byte] := by
      rw [← List.singleton_append, tokensRead_append,
        tokensRead_silent silent]
      rfl
    have read := decodes.read (telnet_text isText rest) reads
    rw [ran]
    cases (byteOutcome env me byte core).1 with
    | error abort => trivial
    | ok value => exact read
  enter := fun decodes => decodes
  leave := fun _ _ decodes => decodes
  command := by
    intro todo core past command size head decoded _ decodes obs after follows
      _ _
    apply decodes.read (telnet_command head decoded)
    have found : Silent (.telopt me todo :: obs) :=
      List.forall_mem_cons.mpr
        ⟨⟨rfl, rfl, by simp⟩, silent_of_plain follows.plain⟩
    rw [← List.cons_append, tokensRead_append, tokensRead_silent found]
    simp [tokensRead, decoded]
  notice := fun _ _ decodes _ follows =>
    decodes.append (tokensRead_silent (silent_of_plain follows.plain))
  incomplete := fun head undecoded _ decodes =>
    (decodes.append rfl).ends (telnet_incomplete head undecoded)
  done := fun decodes => decodes.ends rfl
  stuck := fun stuck decodes =>
    ⟨(decodes.append rfl).ends (telnet_incomplete stuck.1 stuck.undecoded),
      fun _ _ => trivial⟩
  cut := by
    intro todo core past command size _ decoded cuts _ obs _ tame
    have isTame := tame (.telopt me todo) (by simp)
    exact isTame (command, size) decoded cuts
  noticeLost := by
    intro core past _ wild obs _ tame
    exact wild ((tamePast_append ..).mp tame).1
  endLost := by
    intro core past wild
    exact ⟨fun tame => absurd ((tamePast_append ..).mp tame).1 wild, trivial⟩

/-- The state of a session that has read what it was given. -/
def HasRead (given : Bytes) (reader : Reader) (past : List Obs) : Prop :=
  TamePast past →
    Decoded given reader.buffer.pending past ∧ ReadRule.Fits reader.buffer

/-- A packet is read behind what has been given before. -/
theorem uRead_hasRead
    (env : Env)
    (me : Nat)
    (data : Bytes)
    {given : Bytes}
    {reader : Reader}
    {past : List Obs}
    (hasRead : HasRead given reader past) :
    ((uRead env me data).run reader).Ends past
      (fun _ => HasRead (given ++ data)) fun _ _ _ => True := by
  have begins : TamePast past →
      Decodes (given ++ data) (reader.buffer.pending ++ data)
        (past ++ [.packet me reader.buffer.pending data]) := by
    intro tame
    refine Decodes.append (fun _ => ?_) rfl
    obtain ⟨tokens, rest⟩ := (hasRead tame).1 tame
    rw [telnet.tokens_append, telnet.rest_append, tokens, rest]
    exact ⟨rfl, rfl⟩
  refine ((decodes_rule env me (given ++ data)).uRead_while TamePast ?_ ?_ ?_
    begins ?_ ?_).mono ?_ ?_
  · exact fun tame => ((tamePast_append ..).mp tame).1
  · exact fun tame =>
      ((tamePast_append ..).mp tame).2 _ (List.mem_singleton_self _)
  · exact fun tame => (hasRead tame).2
  · intro tame none
    simpa [none] using begins tame
  · rintro tame rfl tameAfter
    rw [tokensRead_append, List.append_nil]
    simpa [tokensRead] using (hasRead tame).1 tame
  · exact fun _ _ _ ends => ends
  · exact fun _ _ _ _ => trivial

/-- The packets are read one after the other. -/
theorem feed_hasRead
    (env : Env)
    (me : Nat)
    (packets : List Bytes)
    {given : Bytes}
    {reader : Reader}
    {past : List Obs}
    (hasRead : HasRead given reader past) :
    ((feed env me packets).run reader).Ends past
      (fun _ => HasRead (given ++ packets.flatten)) fun _ _ _ => True := by
  induction packets generalizing given reader past with
  | nil => simpa [feed] using hasRead
  | cons data packets inductionHypothesis =>
      rw [feed, Prog.forEach_cons]
      apply Prog.ends_bind
      refine (uRead_hasRead env me data hasRead).mono ?_ fun _ _ _ _ => trivial
      intro _ reached pastData hasReadData
      rw [List.flatten_cons, ← List.append_assoc]
      exact inductionHypothesis hasReadData

/-- However its input is cut into packets, a session that has read them all,
none of them too long and none cut off by a terminal type, has read the tokens
of the whole input, and its pending bytes are what is left behind them. -/
theorem feed_tokens
    (env : Env)
    (me : Nat)
    (core : Core)
    (packets : List Bytes)
    (tame : TamePast ((feed env me packets).run ⟨core, {}⟩).obs)
    (returned : ((feed env me packets).run ⟨core, {}⟩).val = .ok ()) :
    tokensRead ((feed env me packets).run ⟨core, {}⟩).obs =
        telnet.tokens packets.flatten ∧
      ((feed env me packets).run ⟨core, {}⟩).state.buffer.pending =
        telnet.rest packets.flatten := by
  have start : HasRead [] ⟨core, {}⟩ [] := fun _ =>
    ⟨fun _ => ⟨rfl, rfl⟩, Nat.le_refl _, Nat.two_pow_pos 31⟩
  have outcome := feed_hasRead env me packets start
  generalize (feed env me packets).run ⟨core, {}⟩ = ran at *
  obtain ⟨abort | value, reader, obs⟩ := ran
  · exact absurd returned (by simp)
  · obtain ⟨tokens, rest⟩ := (outcome tame).1 tame
    exact ⟨tokens.symm, rest.symm⟩

/-- A size and a text in two packets, cut within the size. -/
theorem feed_tokens_cutSize :
    let packets := [[255, 250, 31, 0, 80], [0, 24, 255, 240, 97, 255]]
    let run := (feed (Env.testing []) 0 packets).run ⟨{}, {}⟩
    tokensRead run.obs = telnet.tokens packets.flatten ∧
      run.state.buffer.pending = telnet.rest packets.flatten :=
  feed_tokens (Env.testing []) 0 {} _ (by decide +kernel) (by decide +kernel)

end Common
end Lotospp
