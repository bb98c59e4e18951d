import DebugLink.Proofs.Message.Response
import DebugLink.Session.Core

/-!
# How the state of a session moves

Each way to change the state follows one edge of its life: a written word, a received word, or
the loss of the connection. Everything else that a session learns leaves the state alone. No
edge leads back to the start, and only a word of the debuggee stops a program.
-/

namespace DebugLink

namespace SessionState

/-- A word that makes the program run is only allowed while it is stopped. -/
theorem eq_stopped_of_allows {state : SessionState} {word : Word}
    (h : state.allows word = true) (hw : word.requiresStopped = true) : state = .stopped := by
  have hl : word ≠ .load := fun hl => by
    subst hl
    cases hw
  rw [allows, if_neg hl, if_pos hw] at h
  exact of_decide_eq_true h

/-- A program is only asked for while there is none. -/
theorem eq_idle_of_allows {state : SessionState} (h : state.allows .load = true) :
    state = .idle := of_decide_eq_true h

/-- A word that makes the program run needs a stopped one. -/
theorem requiresStopped_of_resumes {word : Word} (h : word.resumes = true) :
    word.requiresStopped = true := by
  cases word <;> first | rfl | cases h

/-- A written word leads from the start to the wait for a program, or from a stop on. -/
theorem afterSent_eq_some {state next : SessionState} {word : Word}
    (h : state.afterSent word = some next) :
    (state = .idle ∧ word = .load ∧ next = .connecting) ∨
      (state = .stopped ∧ word.resumes = true ∧ next = .running) := by
  cases state with
  | idle =>
    cases word <;> cases h
    exact .inl ⟨rfl, rfl, rfl⟩
  | stopped =>
    rw [afterSent] at h
    cases hw : word.resumes with
    | true =>
      rw [hw] at h
      cases h
      exact .inr ⟨rfl, rfl, rfl⟩
    | false =>
      rw [hw] at h
      cases h
  | _ => cases h

/-- The edges along which a received word leads. -/
theorem afterReceived_eq_some {state next : SessionState} {word : Word}
    (h : state.afterReceived word = some next) :
    state.isTerminal = false ∧
      ((next = .exited ∧ word = .exit) ∨
      (next = .stopped ∧ (word = .line ∨ word = .exception) ∧
        (state = .connecting ∨ state = .running)) ∨
      (next = .running ∧ (word = .passiveStartup ∨ word = .ok) ∧
        (state = .idle ∨ state = .connecting))) := by
  cases state <;> cases word <;> cases h <;> simp [isTerminal]

/-- No written word leads to the loss of the connection. -/
theorem afterSent_ne_disconnected (state : SessionState) (word : Word) :
    state.afterSent word ≠ some .disconnected := by
  intro h
  obtain ⟨-, -, hn⟩ | ⟨-, -, hn⟩ := afterSent_eq_some h <;> cases hn

/-- No received word leads to the loss of the connection. -/
theorem afterReceived_ne_disconnected (state : SessionState) (word : Word) :
    state.afterReceived word ≠ some .disconnected := by
  intro h
  obtain ⟨-, ⟨hn, -⟩ | ⟨hn, -⟩ | ⟨hn, -⟩⟩ := afterReceived_eq_some h <;> cases hn

/-- A report of the end moves a session that is not over. -/
theorem afterReceived_exit {state : SessionState} (h : state.isTerminal = false) :
    state.afterReceived .exit = some .exited := by
  cases state with
  | exited | disconnected => cases h
  | _ => rfl

/-- When a session is over, there is no program. -/
theorem isLive_of_isTerminal {state : SessionState} (h : state.isTerminal = true) :
    state.isLive = false := by
  cases state <;> first | rfl | cases h

/-- A written word neither starts a program nor ends one. -/
theorem isLive_afterSent (state : SessionState) (word : Word) :
    ((state.afterSent word).getD state).isLive = state.isLive := by
  cases hn : state.afterSent word with
  | none => rfl
  | some next =>
    obtain ⟨rfl, -, rfl⟩ | ⟨rfl, -, rfl⟩ := afterSent_eq_some hn <;> rfl

/-- A received word that starts a program leads to a live state from one that is not. -/
theorem isLive_of_isStart {state : SessionState} {word : Word}
    (h : state.isStart (state.afterReceived word) = true) :
    state.isLive = false ∧ ((state.afterReceived word).getD state).isLive = true := by
  cases hn : state.afterReceived word with
  | none =>
    rw [hn] at h
    cases h
  | some next =>
    rw [hn, isStart, Bool.and_eq_true, Bool.or_eq_true, beq_iff_eq, beq_iff_eq] at h
    obtain ⟨rfl | rfl, hlive⟩ := h
    · exact ⟨rfl, hlive⟩
    · exact ⟨rfl, hlive⟩

/-- A received word that does not start a program ends the session, or leaves it as live as it
was. -/
theorem isLive_of_not_isStart {state : SessionState} {word : Word}
    (h : state.isStart (state.afterReceived word) = false) :
    ((state.afterReceived word).getD state).isTerminal = true ∨
      ((state.afterReceived word).getD state).isLive = state.isLive := by
  cases hn : state.afterReceived word with
  | none => exact .inr rfl
  | some next =>
    rw [hn] at h
    obtain ⟨-, ⟨rfl, -⟩ | ⟨rfl, -, rfl | rfl⟩ | ⟨rfl, -, rfl | rfl⟩⟩ := afterReceived_eq_some hn
    · exact .inl rfl
    · cases h
    · exact .inr rfl
    · cases h
    · cases h

/-- The loss of the connection ends a session that is not over. -/
theorem afterLoss_eq_some {state next : SessionState} (h : state.afterLoss = some next) :
    state.isTerminal = false ∧ next = .disconnected := by
  unfold afterLoss at h
  cases ht : state.isTerminal with
  | true =>
    rw [ht] at h
    cases h
  | false =>
    rw [ht] at h
    cases h
    exact ⟨rfl, rfl⟩

end SessionState

namespace Core

/-- An event leaves the state alone. -/
@[simp] theorem state_emit (core : Core) (event : Event) : (core.emit event).state = core.state :=
  rfl

/-- A move leads to its state. -/
theorem state_moveTo (core : Core) (next : Option SessionState) :
    (core.moveTo next).state = next.getD core.state := by
  cases next <;> rfl

/-- A written request moves the state by its word. -/
theorem state_afterSent (core : Core) (request : Request) :
    (core.afterSent request).state = (core.state.afterSent request.word).getD core.state := by
  unfold afterSent
  dsimp only
  rw [state_moveTo]
  split <;> rfl

/-- A condition error is noted in the registry, and told if it is news. -/
theorem receiveConditionError_cases (core : Core) (key : PointKey) (event : Event) :
    ∃ registry, core.receiveConditionError key event = { core with registry } ∨
      core.receiveConditionError key event = { core with registry }.emit event := by
  refine ⟨(core.registry.noteError key).2, ?_⟩
  unfold receiveConditionError
  dsimp only
  split
  · exact .inr rfl
  · exact .inl rfl

/-- What a response tells leaves the state alone. -/
theorem state_receiveResponse (core : Core) (response : Response) :
    (core.receiveResponse response).2.state = core.state := by
  have herror : ∀ key event, (core.receiveConditionError key event).state = core.state := by
    intro key event
    obtain ⟨registry, h | h⟩ := core.receiveConditionError_cases key event
    · rw [h]
    · rw [h]; rfl
  cases response with
  | exception report =>
    rw [receiveResponse, receiveException]
    cases core.exceptions.receive report with
    | mk delivery exceptions => cases delivery <;> rfl
  | breakConditionError file line => exact herror _ _
  | watchConditionError condition => exact herror _ _
  | _ => rfl

/-- A response moves the state by its word. -/
theorem state_respond (core : Core) (response : Response) :
    (core.respond response).2.state =
      (core.state.afterReceived response.word).getD core.state := by
  unfold respond
  dsimp only
  rw [state_receiveResponse, state_moveTo]

/-- The outcomes of taking in a frame: a response to a message, output, or a message that is none,
which changes nothing. -/
theorem receive_cases (core : Core) (frame : Frame) :
    (∃ message response, frame = .message message ∧ Response.ofMessage message = .ok response ∧
      core.receive frame = (.ok (core.respond response).1, (core.respond response).2)) ∨
    (∃ text, core.receive frame = (.ok [], core.emit (.output text))) ∨
    ∃ fault, core.receive frame = (.error fault, core) := by
  cases frame with
  | output text => exact .inr (.inl ⟨text, rfl⟩)
  | message message =>
    rw [receive]
    cases hr : Response.ofMessage message with
    | error fault => exact .inr (.inr ⟨fault, rfl⟩)
    | ok response => exact .inl ⟨message, response, rfl, hr, rfl⟩

/-- The loss of the connection moves the state. -/
theorem state_disconnect (core : Core) (loss : Loss) :
    (core.disconnect loss).state = core.state.afterLoss.getD core.state := by
  unfold disconnect
  dsimp only
  split
  · next hn => rw [hn]; rfl
  · next hn => rw [hn]; rfl

end Core

end DebugLink
