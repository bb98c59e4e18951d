import DebugLink.Proofs.Session.Moves
import DebugLink.Proofs.Session.Run

/-!
# What one step does

A step tries to write one request at most, and which one is known before the step. It leaves the
wire alone, writes the request whole, or tears it. The state follows one edge of its life at
most. Commands leave the queue from the front, and each answer belongs to the command that was
carried out.
-/

namespace DebugLink

/-- The request that a command asks for. -/
def Command.request : Command → Request
  | send _ request => request
  | shutdown => .shutdown

namespace Session

/-- A step, with the session that it starts from. -/
structure Step where
  /-- The session in front of the step. -/
  before : Session
  /-- What is done. -/
  action : Action

/-- The session behind a step. -/
def Step.after (step : Step) : Session := step.before.perform step.action

/-- The steps of a run. -/
def steps (session : Session) : List Action → List Step
  | [] => []
  | action :: actions => ⟨session, action⟩ :: steps (session.perform action) actions

/-- A step of a run stands between two runs. -/
theorem steps_eq_append_cons {session : Session} {actions : List Action} {front back : List Step}
    {step : Step} (h : steps session actions = front ++ step :: back) :
    ∃ earlier later, actions = earlier ++ step.action :: later ∧ front = steps session earlier ∧
      step.before = session.run earlier ∧ back = steps step.after later := by
  induction front generalizing session actions with
  | nil =>
    cases actions with
    | nil => cases h
    | cons action actions =>
      rw [steps, List.nil_append, List.cons.injEq] at h
      obtain ⟨rfl, rfl⟩ := h
      exact ⟨[], actions, rfl, rfl, rfl, rfl⟩
  | cons first front ih =>
    cases actions with
    | nil => cases h
    | cons action actions =>
      rw [steps, List.cons_append, List.cons.injEq] at h
      obtain ⟨rfl, hrest⟩ := h
      obtain ⟨earlier, later, rfl, rfl, hb, hl⟩ := ih hrest
      exact ⟨action :: earlier, later, rfl, rfl, hb, hl⟩

namespace Step

/-- The request that a step may write. -/
def offer? (step : Step) : Option Request :=
  if step.before.ended then none
  else
    match step.action with
    | .command _ => step.before.commands.head?.map Command.request
    | .followUp _ => step.before.followUps.head?
    | .timers _ => some .ping
    | _ => none

/-- The step leaves the wire alone. -/
structure Quiet (step : Step) : Prop where
  /-- No byte is taken. -/
  accepted : step.after.sink.accepted = step.before.sink.accepted
  /-- No message is noted. -/
  written : step.after.written = step.before.written

/-- The step writes a request whole. -/
structure Writes (step : Step) (request : Request) : Prop where
  /-- The request was to be written. -/
  offered : step.offer? = some request
  /-- The state lets it be written. -/
  admits : step.before.Admits request.word
  /-- Its bytes are put on the wire, all of them and nothing else. -/
  accepted : ∃ bytes,
    Wire.encode step.before.config.payloadLimit request.toMessage = .ok bytes ∧
      step.after.sink.accepted = step.before.sink.accepted ++ bytes
  /-- The message is noted. -/
  written : step.after.written = step.before.written.add request.toMessage
  /-- The state moves by the word. -/
  state : step.after.state = (step.before.state.afterSent request.word).getD step.before.state

/-- The step writes a proper part of a request, or none of it because it is too large. -/
structure Tears (step : Step) (request : Request) (part : Bytes) : Prop where
  /-- The request was to be written. -/
  offered : step.offer? = some request
  /-- The state lets it be written. -/
  admits : step.before.Admits request.word
  /-- The part is put on the wire. -/
  torn : step.before.Torn request step.after.sink part
  /-- No message is noted. -/
  written : step.after.written = step.before.written
  /-- The connection is lost, unless the debuggee was to end anyway. -/
  ended : request = .shutdown ∧ step.after.state = step.before.state ∨
    step.after.state = .disconnected

end Step

/-! ## The outcomes of the phases -/

/-- A working session performs a phase. -/
theorem andThen_of_not_ended {session : Session} (h : session.ended = false)
    (phase : Session → Session) : session.andThen phase = phase session := by
  rw [andThen, if_neg (by simp [h])]

/-- A session that has ended its work performs no phase. -/
theorem andThen_of_ended {session : Session} (h : session.ended = true)
    (phase : Session → Session) : session.andThen phase = session := by
  rw [andThen, if_pos h]

/-- The outcomes of taking in a frame. -/
theorem receive_cases (now : Nat) (session : Session) :
    (∃ reader, session.receive now = { session with reader }) ∨
    (∃ reader loss, session.receive now = { session with reader }.lose loss) ∨
    (∃ reader frame requests core, session.reader.poll = (.frame frame, reader) ∧
      session.core.receive frame = (.ok requests, core) ∧
      session.receive now =
        { session with
          reader, core
          frames := session.frames + 1
          lastInbound := now
          probeSent := none
          followUps := session.followUps ++ requests }) ∨
    ∃ reader loss, session.receive now =
      { session with
        reader
        frames := session.frames + 1
        lastInbound := now
        probeSent := none }.lose loss := by
  unfold receive
  cases hp : session.reader.poll with
  | mk poll reader =>
    cases poll with
    | idle => exact .inl ⟨reader, rfl⟩
    | closed => exact .inr (.inl ⟨reader, .closed, rfl⟩)
    | fault fault => exact .inr (.inl ⟨reader, .ofFault fault, rfl⟩)
    | frame frame =>
      dsimp only
      rcases session.core.receive_cases frame with ⟨message, response, -, -, hr⟩ | ⟨text, hr⟩ |
        ⟨fault, hr⟩
      · refine .inr (.inr (.inl ⟨reader, frame, _, _, rfl, hr, ?_⟩))
        rw [hr]
      · refine .inr (.inr (.inl ⟨reader, frame, _, _, rfl, hr, ?_⟩))
        rw [hr]
      · refine .inr (.inr (.inr ⟨reader, .protocol fault, ?_⟩))
        rw [hr]

/-- The outcomes of beginning to end the debuggee. -/
theorem beginShutdown_cases (now : Nat) (session : Session) :
    (∃ deadline, session.beginShutdown now = { session with deadline }) ∨
    (session.Admits .shutdown ∧ ∃ bytes sink deadline,
      Wire.encode session.config.payloadLimit Request.shutdown.toMessage = .ok bytes ∧
        sink.accepted = session.sink.accepted ++ bytes ∧
          session.beginShutdown now = { session.noteSent now sink .shutdown with deadline }) ∨
    (session.Admits .shutdown ∧ ∃ sink part deadline, session.Torn .shutdown sink part ∧
      session.beginShutdown now = { session.withSink sink with deadline }) := by
  unfold beginShutdown
  split
  · exact .inl ⟨session.deadline, rfl⟩
  · split
    · exact .inl ⟨some now, rfl⟩
    · rcases session.send_cases now .shutdown with ⟨-, error, -, hs⟩ |
        ⟨ha, bytes, sink, he, hb, hs⟩ | ⟨ha, fault, sink, part, ht, hs⟩
      · exact .inl ⟨some now, by rw [hs]⟩
      · exact .inr (.inl ⟨ha, bytes, sink, _, he, hb, by rw [hs]⟩)
      · exact .inr (.inr ⟨ha, sink, part, some now, ht, by rw [hs]⟩)

/-- The outcomes of carrying out the request of a user. -/
theorem runCommand_send_cases (now : Nat) (session : Session) (ticket : Nat)
    (request : Request) :
    (¬ session.Admits request.word ∧ ∃ error, SessionError.isRefusal error = true ∧
      session.runCommand now (.send ticket request) =
        { session with replies := session.replies ++ [(ticket, Except.error error)] }) ∨
    (session.Admits request.word ∧ ∃ bytes sink,
      Wire.encode session.config.payloadLimit request.toMessage = .ok bytes ∧
        sink.accepted = session.sink.accepted ++ bytes ∧
          session.runCommand now (.send ticket request) =
            { session.noteSent now sink request with
              replies := session.replies ++ [(ticket, Except.ok ())] }) ∨
    (session.Admits request.word ∧ ∃ fault sink part, session.Torn request sink part ∧
      session.runCommand now (.send ticket request) =
        { session.withSink sink with
          replies := session.replies ++ [(ticket, Except.error (SessionError.wire fault))] }.lose
            .requestUnwritten) := by
  rw [runCommand]
  rcases session.send_cases now request with ⟨hn, error, he, hs⟩ |
    ⟨ha, bytes, sink, he, hb, hs⟩ | ⟨ha, fault, sink, part, ht, hs⟩
  · refine .inl ⟨hn, error, he, ?_⟩
    rw [hs]
    cases error with
    | wire fault => cases he
    | _ => rfl
  · exact .inr (.inl ⟨ha, bytes, sink, he, hb, by rw [hs]; rfl⟩)
  · exact .inr (.inr ⟨ha, fault, sink, part, ht, by rw [hs]; rfl⟩)

/-- The outcomes of writing the oldest request that follows from what came in. -/
theorem sendNextFollowUp_cases (now : Nat) {session : Session} {request : Request}
    {rest : List Request} (h : session.followUps = request :: rest) :
    (¬ session.Admits request.word ∧
      session.sendNextFollowUp now = { session with followUps := rest }) ∨
    (session.Admits request.word ∧ ∃ bytes sink,
      Wire.encode session.config.payloadLimit request.toMessage = .ok bytes ∧
        sink.accepted = session.sink.accepted ++ bytes ∧
          session.sendNextFollowUp now =
            { session with followUps := rest }.noteSent now sink request) ∨
    (session.Admits request.word ∧ ∃ fault sink part, session.Torn request sink part ∧
      session.sendNextFollowUp now =
        ({ session with followUps := rest }.withSink sink).lose (.unwritten fault)) := by
  rw [sendNextFollowUp, h]
  dsimp only
  rcases { session with followUps := rest }.send_cases now request with ⟨hn, error, he, hs⟩ |
    ⟨ha, bytes, sink, he, hb, hs⟩ | ⟨ha, fault, sink, part, ht, hs⟩
  · refine .inl ⟨fun h => hn ⟨h.notTerminal, h.allows⟩, ?_⟩
    rw [hs]
    cases error with
    | wire fault => cases he
    | _ => rfl
  · exact .inr (.inl ⟨⟨ha.notTerminal, ha.allows⟩, bytes, sink, he, hb, by rw [hs]⟩)
  · exact .inr (.inr ⟨⟨ha.notTerminal, ha.allows⟩, fault, sink, part,
      ⟨ht.accepted, ht.proper⟩, by rw [hs]⟩)

/-- The outcomes of looking for a sign of life. -/
theorem probe_cases (now : Nat) (session : Session) :
    session.probe now = session ∨
    (∃ loss, session.probe now = session.lose loss) ∨
    (session.Admits .ok ∧ ∃ bytes sink,
      Wire.encode session.config.payloadLimit Request.ping.toMessage = .ok bytes ∧
        sink.accepted = session.sink.accepted ++ bytes ∧
          session.probe now =
            { session.noteSent now sink .ping with probeSent := some now }) ∨
    (session.Admits .ok ∧ ∃ fault sink part, session.Torn .ping sink part ∧
      session.probe now = (session.withSink sink).lose (.unwritten fault)) := by
  unfold probe
  split
  · split
    · exact .inr (.inl ⟨_, rfl⟩)
    · exact .inl rfl
  · split
    · rcases session.send_cases now .ping with
        ⟨-, error, he, hs⟩ | ⟨ha, bytes, sink, he, hb, hs⟩ | ⟨ha, fault, sink, part, ht, hs⟩
      · refine .inl ?_
        rw [hs]
        cases error with
        | wire fault => cases he
        | _ => rfl
      · exact .inr (.inr (.inl ⟨ha, bytes, sink, he, hb, by rw [hs]⟩))
      · exact .inr (.inr (.inr ⟨ha, fault, sink, part, ht, by rw [hs]⟩))
    · exact .inl rfl

/-- The outcomes of a look at the timers. -/
theorem checkTimers_cases (now : Nat) (session : Session) :
    ∃ deadline,
      session.checkTimers now = { session with deadline } ∨
      (∃ loss, session.checkTimers now = { session with deadline }.lose loss) ∨
      (session.Admits .ok ∧ ∃ bytes sink,
        Wire.encode session.config.payloadLimit Request.ping.toMessage = .ok bytes ∧
          sink.accepted = session.sink.accepted ++ bytes ∧
            session.checkTimers now =
              { { session with deadline }.noteSent now sink .ping with probeSent := some now }) ∨
      (session.Admits .ok ∧ ∃ fault sink part, session.Torn .ping sink part ∧
        session.checkTimers now =
          ({ session with deadline }.withSink sink).lose (.unwritten fault)) := by
  obtain ⟨deadline, hd⟩ : ∃ deadline, session.setDeadline now = { session with deadline } := by
    unfold setDeadline
    split
    · exact ⟨_, rfl⟩
    · exact ⟨session.deadline, rfl⟩
  refine ⟨deadline, ?_⟩
  unfold checkTimers
  rw [hd]
  cases deadline with
  | some at_ =>
    dsimp only
    split
    · exact .inr (.inl ⟨_, rfl⟩)
    · exact .inl rfl
  | none =>
    dsimp only
    split
    · split
      · exact .inr (.inl ⟨_, rfl⟩)
      · exact .inl rfl
    · split
      · rcases probe_cases now { session with deadline := none } with hs | ⟨loss, hs⟩ |
          ⟨ha, bytes, sink, he, hb, hs⟩ | ⟨ha, fault, sink, part, ht, hs⟩
        · exact .inl hs
        · exact .inr (.inl ⟨loss, hs⟩)
        · exact .inr (.inr (.inl ⟨⟨ha.notTerminal, ha.allows⟩, bytes, sink, he, hb, hs⟩))
        · exact .inr (.inr (.inr ⟨⟨ha.notTerminal, ha.allows⟩, fault, sink, part,
            ⟨ht.accepted, ht.proper⟩, hs⟩))
      · exact .inl rfl

/-! ## One step -/

/-- The loss of the connection moves the state. -/
theorem state_lose (session : Session) (loss : Loss) :
    (session.lose loss).state = session.state.afterLoss.getD session.state :=
  Core.state_disconnect session.core loss

/-- The loss of the connection ends a session that is not over. -/
theorem state_lose_of_not_terminal {session : Session} (h : session.state.isTerminal = false)
    (loss : Loss) : (session.lose loss).state = .disconnected := by
  rw [state_lose, SessionState.afterLoss, h]
  rfl

/-- After the loss of the connection a session is as over as before, or disconnected. -/
theorem state_lose_cases (session : Session) (loss : Loss) :
    (session.lose loss).state = session.state ∨
      session.state.isTerminal = false ∧ (session.lose loss).state = .disconnected := by
  cases ht : session.state.isTerminal with
  | true =>
    rw [state_lose, SessionState.afterLoss, ht]
    exact .inl rfl
  | false => exact .inr ⟨rfl, state_lose_of_not_terminal ht loss⟩

/-- After the loss of the connection a session is over. -/
theorem isTerminal_lose (session : Session) (loss : Loss) :
    (session.lose loss).state.isTerminal = true := by
  cases ht : session.state.isTerminal with
  | true =>
    rw [state_lose, SessionState.afterLoss, ht]
    exact ht
  | false =>
    rw [state_lose_of_not_terminal ht]
    rfl

namespace Step

/-- The step takes in a message. -/
structure Receives (step : Step) (message : Message) : Prop where
  /-- The session works. -/
  works : step.before.ended = false
  /-- The step takes in a frame. -/
  action : ∃ now, step.action = .receive now
  /-- The frame is the message. -/
  frame : step.before.reader.poll.1 = .frame (.message message)

/-- The step moves the state without writing: by a received message, or by the loss of the
connection. -/
inductive Moves (step : Step) : Prop
  /-- The state stays. -/
  | stays (h : step.after.state = step.before.state)
  /-- A received message moves the state by its word. -/
  | received (message : Message) (h : step.Receives message)
      (hs : step.before.state.afterReceived message.word = some step.after.state)
  /-- The connection is lost. -/
  | lost (h : step.before.state.isTerminal = false) (hs : step.after.state = .disconnected)

/-- A step that loses the connection and else leaves the state alone moves it. -/
theorem moves_of_lose {step : Step} {session : Session} {loss : Loss}
    (h : step.after = session.lose loss) (hs : session.state = step.before.state) :
    step.Moves := by
  rcases state_lose_cases session loss with hl | ⟨ht, hl⟩
  · exact .stays (by rw [h, hl, hs])
  · exact .lost (by rw [← hs, ht]) (by rw [h, hl])

/-- What a step does to the wire and to the state. -/
inductive Outcome (step : Step) : Prop
  /-- The wire is left alone. -/
  | quiet (h : step.Quiet) (hm : step.Moves)
  /-- A request is written whole. -/
  | writes (request : Request) (h : step.Writes request)
  /-- A request is torn. -/
  | tears (request : Request) (part : Bytes) (h : step.Tears request part)

variable {step : Step}

/-- A step of the session is a phase, unless the session has ended its work. -/
theorem phase_cases {phase : Session → Session}
    (h : step.before.perform step.action = step.before.andThen phase) :
    step.before.ended = true ∧ step.after = step.before ∨
      step.before.ended = false ∧ step.after = phase step.before := by
  rw [after, h]
  cases he : step.before.ended with
  | true => exact .inl ⟨rfl, andThen_of_ended he phase⟩
  | false => exact .inr ⟨rfl, andThen_of_not_ended he phase⟩

/-- A command step does nothing, or carries out the oldest command. -/
theorem command_cases {now : Nat} (ha : step.action = .command now) :
    step.offer? = none ∧ step.after = step.before ∨
      step.before.ended = false ∧ ∃ command rest, step.before.commands = command :: rest ∧
        step.offer? = some command.request ∧
          step.after = { step.before with commands := rest }.runCommand now command := by
  have hphase : step.before.perform step.action =
      step.before.andThen (runNextCommand now) := by rw [ha, perform]
  rcases phase_cases hphase with ⟨he, hafter⟩ | ⟨he, hafter⟩
  · exact .inl ⟨by simp [offer?, he], hafter⟩
  · rw [runNextCommand] at hafter
    cases hc : step.before.commands with
    | nil =>
      rw [hc] at hafter
      exact .inl ⟨by simp [offer?, ha, he, hc], hafter⟩
    | cons command rest =>
      rw [hc] at hafter
      exact .inr ⟨he, command, rest, rfl, by simp [offer?, ha, he, hc], hafter⟩

/-- A follow-up step does nothing, or looks at the oldest request that follows from what came
in. -/
theorem followUp_cases {now : Nat} (ha : step.action = .followUp now) :
    step.after = step.before ∨
      ∃ request rest, step.before.followUps = request :: rest ∧ step.offer? = some request ∧
        step.after = step.before.sendNextFollowUp now := by
  have hphase : step.before.perform step.action =
      step.before.andThen (sendNextFollowUp now) := by rw [ha, perform]
  rcases phase_cases hphase with ⟨-, hafter⟩ | ⟨he, hafter⟩
  · exact .inl hafter
  · cases hf : step.before.followUps with
    | nil =>
      rw [sendNextFollowUp, hf] at hafter
      exact .inl hafter
    | cons request rest =>
      exact .inr ⟨request, rest, rfl, by simp [offer?, ha, he, hf], hafter⟩

/-- A step that changes neither the wire nor the state. -/
theorem outcome_of_same (hs : step.after.sink = step.before.sink)
    (hw : step.after.written = step.before.written)
    (hstate : step.after.state = step.before.state) : step.Outcome :=
  .quiet ⟨by rw [hs], hw⟩ (.stays hstate)

/-- A step that does nothing. -/
theorem outcome_of_eq (h : step.after = step.before) : step.Outcome :=
  outcome_of_same (by rw [h]) (by rw [h]) (by rw [h])

/-- A step that only loses the connection. -/
theorem outcome_of_lose {session : Session} {loss : Loss} (h : step.after = session.lose loss)
    (hs : session.sink = step.before.sink) (hw : session.written = step.before.written)
    (hstate : session.state = step.before.state) : step.Outcome :=
  .quiet ⟨by rw [h, ← hs]; rfl, by rw [h, ← hw]; rfl⟩ (moves_of_lose h hstate)

/-- A step that writes a request and takes note of it. -/
theorem writes_of_noted {request : Request} {bytes : Bytes} {sink : Wire.Sink}
    (ho : step.offer? = some request) (ha : step.before.Admits request.word)
    (he : Wire.encode step.before.config.payloadLimit request.toMessage = .ok bytes)
    (hb : sink.accepted = step.before.sink.accepted ++ bytes) (hs : step.after.sink = sink)
    (hw : step.after.written = step.before.written.add request.toMessage)
    (hc : step.after.core = step.before.core.afterSent request) : step.Writes request where
  offered := ho
  admits := ha
  accepted := ⟨bytes, he, by rw [hs, hb]⟩
  written := hw
  state := (congrArg Core.state hc).trans (Core.state_afterSent step.before.core request)

/-- A step that tears a request and loses the connection. -/
theorem outcome_of_torn {request : Request} {part : Bytes} {sink : Wire.Sink} {loss : Loss}
    {session : Session} (ho : step.offer? = some request)
    (ha : step.before.Admits request.word) (ht : step.before.Torn request sink part)
    (h : step.after = session.lose loss) (hs : session.sink = sink)
    (hw : session.written = step.before.written) (hc : session.core = step.before.core) :
    step.Outcome :=
  .tears request part
    { offered := ho
      admits := ha
      torn := by
        have hsink : step.after.sink = sink := by rw [h, ← hs]; rfl
        rw [hsink]
        exact ht
      written := by rw [h, ← hw]; rfl
      ended := .inr (by
        rw [h]
        refine state_lose_of_not_terminal ?_ loss
        rw [state, hc]
        exact ha.notTerminal) }

/-- A step of taking in a frame writes nothing, and moves the state by the word received. -/
theorem receive_outcome {now : Nat} (ha : step.action = .receive now) : step.Outcome := by
  have hphase : step.before.perform step.action = step.before.andThen (receive now) := by
    rw [ha, perform]
  rcases phase_cases hphase with ⟨-, hafter⟩ | ⟨he, hafter⟩
  · exact outcome_of_eq hafter
  rcases receive_cases now step.before with ⟨reader, hr⟩ | ⟨reader, loss, hr⟩ |
    ⟨reader, frame, requests, core, hp, hc, hr⟩ | ⟨reader, loss, hr⟩ <;> rw [hr] at hafter
  · exact outcome_of_same (by rw [hafter]) (by rw [hafter]) (by rw [hafter]; rfl)
  · exact outcome_of_lose hafter rfl rfl rfl
  · refine .quiet ⟨by rw [hafter], by rw [hafter]⟩ ?_
    have hstate : step.after.state = core.state := by rw [hafter]; rfl
    rcases step.before.core.receive_cases frame with ⟨message, response, rfl, hm, hf⟩ |
      ⟨text, hf⟩ | ⟨fault, hf⟩ <;> rw [hc, Prod.mk.injEq] at hf
    · have hmove := step.before.core.state_respond response
      rw [← hf.2, Response.word_of_ofMessage hm, ← hstate] at hmove
      cases hn : step.before.core.state.afterReceived message.word with
      | none =>
        rw [hn] at hmove
        exact .stays hmove
      | some next =>
        rw [hn] at hmove
        exact .received message ⟨he, ⟨now, ha⟩, by rw [hp]⟩
          (hn.trans (congrArg some hmove.symm))
    · exact .stays (by rw [hstate, hf.2]; rfl)
    · cases hf.1
  · exact outcome_of_lose hafter rfl rfl rfl

/-- A step of carrying out a command. -/
theorem command_outcome {now : Nat} (ha : step.action = .command now) : step.Outcome := by
  rcases command_cases ha with ⟨-, hafter⟩ | ⟨-, command, rest, hc, ho, hafter⟩
  · exact outcome_of_eq hafter
  cases command with
  | shutdown =>
    rw [runCommand] at hafter
    rcases beginShutdown_cases now { step.before with commands := rest } with
      ⟨deadline, hs⟩ | ⟨hadmits, bytes, sink, deadline, henc, hb, hs⟩ |
      ⟨hadmits, sink, part, deadline, ht, hs⟩ <;> rw [hs] at hafter
    · exact outcome_of_same (by rw [hafter]) (by rw [hafter]) (by rw [hafter]; rfl)
    · exact .writes _ (writes_of_noted ho ⟨hadmits.notTerminal, hadmits.allows⟩ henc hb
        (by rw [hafter]; rfl) (by rw [hafter]; rfl) (by rw [hafter]; rfl))
    · exact .tears _ part
        { offered := ho
          admits := ⟨hadmits.notTerminal, hadmits.allows⟩
          torn := by rw [hafter]; exact ⟨ht.accepted, ht.proper⟩
          written := by rw [hafter]; rfl
          ended := .inl ⟨rfl, by rw [hafter]; rfl⟩ }
  | send ticket request =>
    rcases runCommand_send_cases now { step.before with commands := rest } ticket request with
      ⟨-, error, -, hs⟩ | ⟨hadmits, bytes, sink, henc, hb, hs⟩ |
      ⟨hadmits, fault, sink, part, ht, hs⟩ <;> rw [hs] at hafter
    · exact outcome_of_same (by rw [hafter]) (by rw [hafter]) (by rw [hafter]; rfl)
    · exact .writes _ (writes_of_noted ho ⟨hadmits.notTerminal, hadmits.allows⟩ henc hb
        (by rw [hafter]; rfl) (by rw [hafter]; rfl) (by rw [hafter]; rfl))
    · exact outcome_of_torn ho ⟨hadmits.notTerminal, hadmits.allows⟩
        ⟨ht.accepted, ht.proper⟩ hafter rfl rfl rfl

/-- A step of writing a request that follows from what came in. -/
theorem followUp_outcome {now : Nat} (ha : step.action = .followUp now) : step.Outcome := by
  rcases followUp_cases ha with hafter | ⟨request, rest, hf, ho, hafter⟩
  · exact outcome_of_eq hafter
  rcases sendNextFollowUp_cases now hf with ⟨-, hs⟩ | ⟨hadmits, bytes, sink, henc, hb, hs⟩ |
    ⟨hadmits, fault, sink, part, ht, hs⟩ <;> rw [hs] at hafter
  · exact outcome_of_same (by rw [hafter]) (by rw [hafter]) (by rw [hafter]; rfl)
  · exact .writes _ (writes_of_noted ho hadmits henc hb (by rw [hafter]; rfl)
      (by rw [hafter]; rfl) (by rw [hafter]; rfl))
  · exact outcome_of_torn ho hadmits ht hafter rfl rfl rfl

/-- A step of looking at the timers. -/
theorem timers_outcome {now : Nat} (ha : step.action = .timers now) : step.Outcome := by
  have hphase : step.before.perform step.action = step.before.andThen (checkTimers now) := by
    rw [ha, perform]
  rcases phase_cases hphase with ⟨-, hafter⟩ | ⟨he, hafter⟩
  · exact outcome_of_eq hafter
  have ho : step.offer? = some .ping := by simp [offer?, ha, he]
  obtain ⟨deadline, hs | ⟨loss, hs⟩ | ⟨hadmits, bytes, sink, henc, hb, hs⟩ |
    ⟨hadmits, fault, sink, part, ht, hs⟩⟩ := checkTimers_cases now step.before <;>
    rw [hs] at hafter
  · exact outcome_of_same (by rw [hafter]) (by rw [hafter]) (by rw [hafter]; rfl)
  · exact outcome_of_lose hafter rfl rfl rfl
  · exact .writes _ (writes_of_noted ho hadmits henc hb (by rw [hafter]; rfl)
      (by rw [hafter]; rfl) (by rw [hafter]; rfl))
  · exact outcome_of_torn ho hadmits ht hafter rfl rfl rfl

/-- Every step leaves the wire alone, writes a request whole, or tears one. -/
theorem outcome (step : Step) : step.Outcome := by
  cases ha : step.action with
  | arrive | submit | askShutdown | setRegistry | setIgnored | unsetIgnored =>
    exact outcome_of_same (by rw [after, ha]; rfl) (by rw [after, ha]; rfl)
      (by rw [after, ha]; rfl)
  | receive now => exact receive_outcome ha
  | command now => exact command_outcome ha
  | followUp now => exact followUp_outcome ha
  | timers now => exact timers_outcome ha

end Step

/-! ## All steps of a run -/

/-- A session that is over stays as it is. -/
theorem state_of_terminal {step : Step} (h : step.before.state.isTerminal = true) :
    step.after.state = step.before.state := by
  cases step.outcome with
  | quiet hq hm =>
    cases hm with
    | stays hs => exact hs
    | received message hr hs =>
      have hn := (SessionState.afterReceived_eq_some hs).1
      rw [h] at hn
      cases hn
    | lost hn hs =>
      rw [h] at hn
      cases hn
  | writes request hw =>
    have hn := hw.admits.notTerminal
    rw [h] at hn
    cases hn
  | tears request part ht =>
    have hn := ht.admits.notTerminal
    rw [h] at hn
    cases hn

/-- What every step keeps holds in front of every step of a run, and behind the run. -/
theorem forall_steps {P : Session → Prop} (hstep : ∀ step : Step, P step.before → P step.after)
    {session : Session} (h : P session) (actions : List Action) :
    (∀ step ∈ steps session actions, P step.before) ∧ P (session.run actions) := by
  induction actions generalizing session with
  | nil => exact ⟨fun _ hm => absurd hm List.not_mem_nil, h⟩
  | cons action actions ih =>
    obtain ⟨hsteps, hrun⟩ := ih (hstep ⟨session, action⟩ h)
    exact ⟨List.forall_mem_cons.mpr ⟨h, hsteps⟩, hrun⟩

end Session

end DebugLink
