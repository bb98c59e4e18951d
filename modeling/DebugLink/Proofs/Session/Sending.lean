import DebugLink.Proofs.Wire.Writing
import DebugLink.Session.Handle

/-!
# What writing a request does

Writing a request has three outcomes. The state refuses it, and nothing changes. It is written
whole, and the session takes note of it. Or the write fails, because the request is too large
or because the sink takes only a part, and nothing but the sink changes. No outcome depends on
the queues of the session.
-/

namespace DebugLink

/-- Whether an error says that nothing was tried, because of the state of the session. -/
def SessionError.isRefusal : SessionError → Bool
  | invalidState .. | notConnected | terminated _ => true
  | _ => false

namespace Session

/-- The state lets a word be written. -/
structure Admits (session : Session) (word : Word) : Prop where
  /-- The session is not over. -/
  notTerminal : session.state.isTerminal = false
  /-- The state allows the word. -/
  allows : session.state.allows word = true

/-- The session that has written a request. -/
def noteSent (now : Nat) (session : Session) (sink : Wire.Sink) (request : Request) : Session :=
  { session with
    sink
    written := session.written.add request.toMessage
    loadSent := if request.word = .load then some now else session.loadSent
    core := session.core.afterSent request }

/-- The session whose write has failed. -/
def withSink (session : Session) (sink : Wire.Sink) : Session := { session with sink }

/-- What a sink has taken of a request whose write has failed: nothing, or a proper part. -/
structure Torn (session : Session) (request : Request) (sink : Wire.Sink) (part : Bytes) :
    Prop where
  /-- The part comes behind the bytes taken before. -/
  accepted : sink.accepted = session.sink.accepted ++ part
  /-- Some bytes of the request are missing. -/
  proper : part = [] ∨ ∃ rest, rest ≠ [] ∧
    Wire.encode session.config.payloadLimit request.toMessage = .ok (part ++ rest)

/-- The outcomes of writing a request. -/
theorem send_cases (now : Nat) (session : Session) (request : Request) :
    (¬ session.Admits request.word ∧ ∃ error, SessionError.isRefusal error = true ∧
      session.send now request = (.error error, session)) ∨
    (session.Admits request.word ∧ ∃ bytes sink,
      Wire.encode session.config.payloadLimit request.toMessage = .ok bytes ∧
        sink.accepted = session.sink.accepted ++ bytes ∧
          session.send now request = (.ok (), session.noteSent now sink request)) ∨
    (session.Admits request.word ∧ ∃ fault sink part, session.Torn request sink part ∧
      session.send now request = (.error (.wire fault), session.withSink sink)) := by
  unfold send
  cases ht : session.state.isTerminal with
  | true =>
    refine .inl ⟨fun h => ?_, _, rfl, if_pos rfl⟩
    rw [h.notTerminal] at ht
    cases ht
  | false =>
    cases ha : session.state.allows request.word with
    | false =>
      refine .inl ⟨fun h => ?_, .invalidState request.word session.state, rfl, rfl⟩
      rw [h.allows] at ha
      cases ha
    | true =>
      have hadmits : session.Admits request.word := ⟨ht, ha⟩
      rcases Wire.Sink.send_cases session.config.payloadLimit session.sink request.toMessage with
        ⟨bytes, sink, he, hs, hb⟩ | ⟨fault, he, hs⟩ | ⟨bytes, fault, sink, part, rest, he, hs, hb,
          hr, hp⟩
      · refine .inr (.inl ⟨hadmits, bytes, sink, he, hb, ?_⟩)
        rw [hs]
        rfl
      · refine .inr (.inr ⟨hadmits, fault, session.sink, [], ⟨by simp, .inl rfl⟩, ?_⟩)
        rw [hs]
        rfl
      · refine .inr (.inr ⟨hadmits, fault, sink, part, ⟨hp, .inr ⟨rest, hr, hb ▸ he⟩⟩, ?_⟩)
        rw [hs]
        rfl

/-! ## The books and the queues -/

/-- A session with other queues and other tickets. -/
def withBooks (session : Session) (commands : List Command) (followUps : List Request)
    (tickets : Nat) : Session := { session with commands, followUps, tickets }

/-- Writing does not look at the books. -/
theorem send_withBooks (now : Nat) (session : Session) (request : Request)
    (commands : List Command) (followUps : List Request) (tickets : Nat) :
    (session.withBooks commands followUps tickets).send now request =
      ((session.send now request).1,
        (session.send now request).2.withBooks commands followUps tickets) := by
  have ht : (session.withBooks commands followUps tickets).state = session.state := rfl
  have hc : (session.withBooks commands followUps tickets).config = session.config := rfl
  have hs : (session.withBooks commands followUps tickets).sink = session.sink := rfl
  simp only [send, ht, hc, hs]
  by_cases hover : session.state.isTerminal = true
  · rw [if_pos hover, if_pos hover]
  rw [if_neg hover, if_neg hover]
  by_cases hword : (!session.state.allows request.word) = true
  · rw [if_pos hword, if_pos hword]
  rw [if_neg hword, if_neg hword]
  cases session.sink.send session.config.payloadLimit request.toMessage with
  | mk result sink => cases result <;> rfl

/-- Beginning to end the debuggee does not look at the books. -/
theorem beginShutdown_withBooks (now : Nat) (session : Session) (commands : List Command)
    (followUps : List Request) (tickets : Nat) :
    (session.withBooks commands followUps tickets).beginShutdown now =
      (session.beginShutdown now).withBooks commands followUps tickets := by
  have hd : (session.withBooks commands followUps tickets).deadline = session.deadline := rfl
  have ht : (session.withBooks commands followUps tickets).state = session.state := rfl
  simp only [beginShutdown, hd, ht, send_withBooks]
  split
  · rfl
  · split
    · rfl
    · cases session.send now .shutdown with
      | mk result next => cases result <;> rfl

/-- Carrying out a command does not look at the books. -/
theorem runCommand_withBooks (now : Nat) (session : Session) (command : Command)
    (commands : List Command) (followUps : List Request) (tickets : Nat) :
    (session.withBooks commands followUps tickets).runCommand now command =
      (session.runCommand now command).withBooks commands followUps tickets := by
  cases command with
  | shutdown => exact beginShutdown_withBooks now session commands followUps tickets
  | send ticket request =>
    simp only [runCommand, send_withBooks]
    cases session.send now request with
    | mk result next =>
      cases result with
      | ok => rfl
      | error error => cases error <;> rfl

/-- A session with other queues. -/
def withQueues (session : Session) (commands : List Command) (followUps : List Request) :
    Session := { session with commands, followUps }

/-- Writing does not look at the queues. -/
theorem send_withQueues (now : Nat) (session : Session) (request : Request)
    (commands : List Command) (followUps : List Request) :
    (session.withQueues commands followUps).send now request =
      ((session.send now request).1,
        (session.send now request).2.withQueues commands followUps) := by
  have hsame := send_withBooks now session request session.commands session.followUps
    session.tickets
  have ht : (session.send now request).2.tickets = session.tickets :=
    congrArg (fun outcome => outcome.2.tickets) hsame
  refine (send_withBooks now session request commands followUps session.tickets).trans ?_
  rw [withBooks, ← ht]
  rfl

/-- Carrying out a command does not look at the queues. -/
theorem runCommand_withQueues (now : Nat) (session : Session) (command : Command)
    (commands : List Command) (followUps : List Request) :
    (session.withQueues commands followUps).runCommand now command =
      (session.runCommand now command).withQueues commands followUps := by
  have hsame := runCommand_withBooks now session command session.commands session.followUps
    session.tickets
  have ht : (session.runCommand now command).tickets = session.tickets :=
    (congrArg Session.tickets hsame).trans rfl
  refine (runCommand_withBooks now session command commands followUps session.tickets).trans ?_
  rw [withBooks, ← ht]
  rfl

end Session

end DebugLink
