import DebugLink.Proofs.Session.Flow

/-!
# What a step makes of the knowledge of a session

A step changes what is known about the debuggee in one of few ways: it writes a request, takes in
a response, takes in output, or loses the connection. Everything else leaves that knowledge
alone, but for the points and the ignore list, which the user may change. The events that a step
publishes follow from the same cases.
-/

namespace DebugLink

/-! ## What is published -/

namespace Core

/-- The later knowledge has published these events more. -/
def Publishes (core next : Core) (events : List Event) : Prop :=
  next.events.toList = core.events.toList ++ events

/-- Nothing happens, and nothing is published. -/
theorem Publishes.refl (core : Core) : core.Publishes core [] := (List.append_nil _).symm

/-- What is published in two parts is published. -/
theorem Publishes.trans {first second third : Core} {front back : List Event}
    (h : first.Publishes second front) (h' : second.Publishes third back) :
    first.Publishes third (front ++ back) := by
  rw [Publishes, h', h, List.append_assoc]

/-- An event that is published comes last. -/
theorem publishes_emit (core : Core) (event : Event) : core.Publishes (core.emit event) [event] :=
  History.toList_add core.events event

/-- The event that tells of a move. -/
def moved (state : SessionState) (next : Option SessionState) : List Event :=
  next.toList.map (.stateChanged state)

/-- A move is published, if there is one. -/
theorem publishes_moveTo (core : Core) (next : Option SessionState) :
    core.Publishes (core.moveTo next) (moved core.state next) := by
  cases next with
  | none => exact .refl core
  | some next => exact publishes_emit { core with state := next } (.stateChanged core.state next)

/-- A move leaves the requests that wait as they are. -/
theorem pending_moveTo (core : Core) (next : Option SessionState) :
    (core.moveTo next).pending = core.pending := by
  cases next <;> rfl

/-- A written request publishes its move. -/
theorem publishes_afterSent (core : Core) (request : Request) :
    core.Publishes (core.afterSent request)
      (moved core.state (core.state.afterSent request.word)) := by
  unfold afterSent
  dsimp only
  split
  · exact publishes_moveTo { core with lastStack := none, exceptions := _ } _
  · exact publishes_moveTo core _

/-- The loss of the connection publishes its move, and then that the connection is gone. -/
theorem publishes_disconnect (core : Core) (loss : Loss) :
    core.Publishes (core.disconnect loss)
      (moved core.state core.state.afterLoss ++
        core.state.afterLoss.toList.map fun _ => .disconnected loss) := by
  unfold disconnect
  dsimp only
  split
  · next hn =>
    rw [show core.state.afterLoss = none from hn]
    exact .refl core
  · next next hn =>
    rw [show core.state.afterLoss = some next from hn]
    exact (publishes_moveTo { core with pending := [] } (some next)).trans (publishes_emit _ _)

/-- What an event that tells of a response says: results and threads name the oldest request that
waits for the word of the response, and no event of a response tells of a move or of a loss. -/
def Tells (core : Core) (response : Response) : Event → Prop
  | .stateChanged _ _ | .disconnected _ => False
  | .evalResult expression result isError =>
    expression = expression? (core.pending.take response.word).1 ∧
      response = if isError then .evalError result else .evalOk result
  | .execResult statement error =>
    statement = statement? (core.pending.take response.word).1 ∧
      response = error.elim .exec .execError
  | .threadSet thread =>
    thread = thread? (core.pending.take response.word).1 ∧ response = .threadSet
  | _ => True

/-- What a response tells is published, and names the oldest request that waits for its word. -/
theorem publishes_receiveResponse (core : Core) (response : Response) :
    ∃ events, core.Publishes (core.receiveResponse response).2 events ∧
      ∀ event ∈ events, core.Tells response event := by
  have herror : ∀ key event, core.Tells response event →
      ∃ events, core.Publishes (core.receiveConditionError key event) events ∧
        ∀ event ∈ events, core.Tells response event := by
    intro key event ht
    obtain ⟨registry, h | h⟩ := core.receiveConditionError_cases key event <;> rw [h]
    · exact ⟨[], .refl core, fun _ hm => absurd hm List.not_mem_nil⟩
    · exact ⟨[event], publishes_emit { core with registry } event,
        List.forall_mem_singleton.mpr ht⟩
  have hone : ∀ event, core.Tells response event →
      ∀ other ∈ [event], core.Tells response other :=
    fun _ ht => List.forall_mem_singleton.mpr ht
  cases response with
  | ok | eval | endOfTransmission =>
    exact ⟨[], .refl core, fun _ hm => absurd hm List.not_mem_nil⟩
  | exception report =>
    rw [receiveResponse, receiveException]
    cases core.exceptions.receive report with
    | mk delivery exceptions =>
      cases delivery with
      | report report => exact ⟨_, publishes_emit _ _, hone _ trivial⟩
      | ignored type count => exact ⟨_, publishes_emit _ _, hone _ trivial⟩
  | breakConditionError file line => exact herror _ _ trivial
  | watchConditionError condition => exact herror _ _ trivial
  | evalOk | evalError | exec | execError | threadSet =>
    exact ⟨_, publishes_emit _ _, hone _ ⟨rfl, rfl⟩⟩
  | _ => exact ⟨_, publishes_emit _ _, hone _ trivial⟩

/-- A response publishes its move, and then what it tells. -/
theorem publishes_respond (core : Core) (response : Response) :
    ∃ events, core.Publishes (core.respond response).2
        (moved core.state (core.state.afterReceived response.word) ++ events) ∧
      ∀ event ∈ events, core.Tells response event := by
  obtain ⟨events, hpublishes, htells⟩ :=
    (core.moveTo (core.state.afterReceived response.word)).publishes_receiveResponse response
  refine ⟨events, (publishes_moveTo core _).trans hpublishes, fun event hm => ?_⟩
  have h := htells event hm
  unfold Tells at h ⊢
  rwa [pending_moveTo] at h

/-- Whether a response resumes the program by itself: an exception on the ignore list does, once
the program is stopped. -/
def resumesOn (core : Core) : Response → Bool
  | .exception report => core.exceptions.isIgnored report.type && core.state == .stopped
  | _ => false

/-- The only request that a response asks for by itself resumes the program. -/
theorem fst_receiveResponse (core : Core) (response : Response) :
    (core.receiveResponse response).1 =
      if core.resumesOn response then [.resume false] else [] := by
  cases response with
  | exception report =>
    rw [receiveResponse, receiveException, resumesOn, ExceptionFilter.receive]
    cases core.exceptions.isIgnored report.type with
    | true => simp [emit]
    | false => simp
  | _ => rfl

/-- A response asks for a request of its own, and then for all points when a program starts. -/
theorem fst_respond (core : Core) (response : Response) :
    (core.respond response).1 =
      (if (core.moveTo (core.state.afterReceived response.word)).resumesOn response then
        [.resume false] else []) ++
      if core.state.isStart (core.state.afterReceived response.word) then
        (core.respond response).2.registry.syncRequests else [] := by
  rw [← fst_receiveResponse, respond]
  dsimp only
  split
  · rfl
  · rw [List.append_nil]

/-- A message that carries a response is responded to. -/
theorem receive_of_response (core : Core) {message : Message} {response : Response}
    (h : Response.ofMessage message = .ok response) :
    core.receive (.message message) =
      (.ok (core.respond response).1, (core.respond response).2) := by
  rw [receive, h]

/-- A message that carries no response changes nothing. -/
theorem receive_of_fault (core : Core) {message : Message} {fault : Wire.Fault}
    (h : Response.ofMessage message = .error fault) :
    core.receive (.message message) = (.error fault, core) := by
  rw [receive, h]

end Core

/-- The response that a frame carries, if it carries one. -/
def Frame.response? : Frame → Option Response
  | .message carried => (Response.ofMessage carried).toOption
  | .output _ => none

/-! ## One step -/

namespace Session.Step

/-- The frame that a step takes in, if it takes in one. -/
def frame? (step : Step) : Option Frame :=
  if step.before.ended then none
  else
    match step.action, step.before.reader.poll.1 with
    | .receive _, .frame frame => some frame
    | _, _ => none

/-- The response that a step takes in, if it takes in one. -/
def heard (step : Step) : Option Response := step.frame?.bind Frame.response?

/-- The requests that follow from the frame that a step takes in. -/
def returned (step : Step) : List Request :=
  (step.frame?.bind fun frame => (step.before.core.receive frame).1.toOption).getD []

/-- The step neither writes a request nor takes in a response. -/
structure Mute (step : Step) : Prop where
  /-- No request is written. -/
  wrote : step.wrote = []
  /-- No response is taken in. -/
  heard : step.heard = none
  /-- No request follows. -/
  returned : step.returned = []

/-- What a step makes of the knowledge of the session. -/
inductive Effect (step : Step) : Prop
  /-- Only the user changes the points or the ignore list, if anything is changed. -/
  | keeps (hm : step.Mute) (registry : Registry) (ignored : List String)
      (hc : step.after.core = { step.before.core with
        registry, exceptions := { step.before.core.exceptions with ignored } })
  /-- A request is written. -/
  | writes (request : Request) (hw : step.Writes request) (hh : step.heard = none)
      (hr : step.returned = []) (hc : step.after.core = step.before.core.afterSent request)
  /-- A response is taken in. -/
  | hears (response : Response) (hw : step.wrote = []) (hh : step.heard = some response)
      (hr : step.returned = (step.before.core.respond response).1)
      (hc : step.after.core = (step.before.core.respond response).2)
  /-- Text outside of messages is taken in. -/
  | outputs (hm : step.Mute) (text : String)
      (hc : step.after.core = step.before.core.emit (.output text))
  /-- The connection is lost. -/
  | loses (hm : step.Mute) (loss : Loss)
      (hc : step.after.core = step.before.core.disconnect loss)
      (he : step.after.ended = true)

variable {step : Step}

/-- A step that takes in no frame and notes no message is mute. -/
theorem mute_of_frame?_eq_none (hf : step.frame? = none)
    (hw : step.after.written = step.before.written) : step.Mute where
  wrote := wrote_of_written_eq hw
  heard := by rw [Step.heard, hf]; rfl
  returned := by rw [Step.returned, hf]; rfl

/-- Only a step of taking in a frame takes in one. -/
theorem frame?_of_action (h : ∀ now, step.action ≠ .receive now) : step.frame? = none := by
  rw [frame?]
  split
  · rfl
  · split
    · next now _ ha _ => exact absurd ha (h now)
    · rfl

/-- A step of a working session takes in the frame that the poll comes to. -/
theorem frame?_of_receive {now : Nat} (ha : step.action = .receive now)
    (he : step.before.ended = false) :
    step.frame? = match step.before.reader.poll.1 with
      | .frame frame => some frame
      | _ => none := by
  rw [frame?, he, if_neg Bool.false_ne_true, ha]
  split <;> simp_all

/-- A step that leaves the knowledge alone. -/
theorem effect_of_same (hm : step.Mute) (hc : step.after.core = step.before.core) : step.Effect :=
  .keeps hm step.before.core.registry step.before.core.exceptions.ignored hc

/-- A step that does nothing. -/
theorem effect_of_eq (hf : step.frame? = none) (h : step.after = step.before) : step.Effect :=
  effect_of_same (mute_of_frame?_eq_none hf (by rw [h])) (by rw [h])

/-- A step that writes a request. -/
theorem effect_of_writes {request : Request} (hf : step.frame? = none) (hw : step.Writes request)
    (hc : step.after.core = step.before.core.afterSent request) : step.Effect :=
  .writes request hw (by rw [heard, hf]; rfl) (by rw [returned, hf]; rfl) hc

/-- Taking in a frame. -/
theorem receive_effect {now : Nat} (ha : step.action = .receive now) : step.Effect := by
  have hphase : step.before.perform step.action = step.before.andThen (receive now) := by
    rw [ha, perform]
  rcases phase_cases hphase with ⟨he, hafter⟩ | ⟨he, hafter⟩
  · exact effect_of_eq (by rw [frame?, he, if_pos rfl]) hafter
  have hframe := frame?_of_receive ha he
  rw [receive] at hafter
  cases hp : step.before.reader.poll with
  | mk poll reader =>
    rw [hp] at hafter hframe
    cases poll with
    | idle =>
      exact effect_of_same (mute_of_frame?_eq_none hframe (by rw [hafter])) (by rw [hafter])
    | closed =>
      exact .loses (mute_of_frame?_eq_none hframe (by rw [hafter]; rfl)) _ (by rw [hafter]; rfl)
        (by rw [hafter]; rfl)
    | fault fault =>
      exact .loses (mute_of_frame?_eq_none hframe (by rw [hafter]; rfl)) _ (by rw [hafter]; rfl)
        (by rw [hafter]; rfl)
    | frame frame =>
      dsimp only at hafter hframe
      cases frame with
      | output text =>
        have hm : step.Mute :=
          ⟨wrote_of_written_eq (by rw [hafter]; rfl), by rw [heard, hframe]; rfl,
            by rw [returned, hframe]; rfl⟩
        exact .outputs hm text (by rw [hafter]; rfl)
      | message message =>
        have hheard : step.heard = (Response.ofMessage message).toOption := by
          rw [heard, hframe]
          rfl
        have hreturned : step.returned =
            ((step.before.core.receive (.message message)).1.toOption).getD [] := by
          rw [returned, hframe]
          rfl
        cases hr : Response.ofMessage message with
        | error fault =>
          rw [hr] at hheard
          rw [step.before.core.receive_of_fault hr] at hafter hreturned
          exact .loses ⟨wrote_of_written_eq (by rw [hafter]; rfl), hheard, hreturned⟩
            (.protocol fault) (by rw [hafter]; rfl) (by rw [hafter]; rfl)
        | ok response =>
          rw [hr] at hheard
          rw [step.before.core.receive_of_response hr] at hafter hreturned
          exact .hears response (wrote_of_written_eq (by rw [hafter])) hheard hreturned
            (by rw [hafter])

/-- Carrying out a command. -/
theorem command_effect {now : Nat} (ha : step.action = .command now) : step.Effect := by
  have hf : step.frame? = none := frame?_of_action fun now h => by rw [ha] at h; cases h
  rcases command_cases ha with ⟨-, hafter⟩ | ⟨-, command, rest, hc, ho, hafter⟩
  · exact effect_of_eq hf hafter
  cases command with
  | shutdown =>
    rw [runCommand] at hafter
    rcases beginShutdown_cases now { step.before with commands := rest } with
      ⟨deadline, hs⟩ | ⟨hadmits, bytes, sink, deadline, henc, hb, hs⟩ |
      ⟨-, sink, part, deadline, -, hs⟩ <;> rw [hs] at hafter
    · exact effect_of_same (mute_of_frame?_eq_none hf (by rw [hafter])) (by rw [hafter])
    · have hcore : step.after.core = step.before.core.afterSent .shutdown := by rw [hafter]; rfl
      have hwrites : step.Writes .shutdown :=
        writes_of_noted ho ⟨hadmits.notTerminal, hadmits.allows⟩ henc hb
          (by rw [hafter]; rfl) (by rw [hafter]; rfl) hcore
      exact effect_of_writes hf hwrites hcore
    · exact effect_of_same (mute_of_frame?_eq_none hf (by rw [hafter]; rfl)) (by rw [hafter]; rfl)
  | send ticket request =>
    rcases runCommand_send_cases now { step.before with commands := rest } ticket request with
      ⟨-, error, -, hs⟩ | ⟨hadmits, bytes, sink, henc, hb, hs⟩ |
      ⟨-, fault, sink, part, -, hs⟩ <;> rw [hs] at hafter
    · exact effect_of_same (mute_of_frame?_eq_none hf (by rw [hafter])) (by rw [hafter])
    · have hcore : step.after.core = step.before.core.afterSent request := by rw [hafter]; rfl
      have hwrites : step.Writes request :=
        writes_of_noted ho ⟨hadmits.notTerminal, hadmits.allows⟩ henc hb
          (by rw [hafter]; rfl) (by rw [hafter]; rfl) hcore
      exact effect_of_writes hf hwrites hcore
    · exact .loses (mute_of_frame?_eq_none hf (by rw [hafter]; rfl)) _ (by rw [hafter]; rfl)
        (by rw [hafter]; rfl)

/-- Writing a request that follows from what came in. -/
theorem followUp_effect {now : Nat} (ha : step.action = .followUp now) : step.Effect := by
  have hf : step.frame? = none := frame?_of_action fun now h => by rw [ha] at h; cases h
  rcases followUp_cases ha with hafter | ⟨request, rest, hq, ho, hafter⟩
  · exact effect_of_eq hf hafter
  rcases sendNextFollowUp_cases now hq with ⟨-, hs⟩ | ⟨hadmits, bytes, sink, henc, hb, hs⟩ |
    ⟨-, fault, sink, part, -, hs⟩ <;> rw [hs] at hafter
  · exact effect_of_same (mute_of_frame?_eq_none hf (by rw [hafter])) (by rw [hafter])
  · have hcore : step.after.core = step.before.core.afterSent request := by rw [hafter]; rfl
    exact effect_of_writes hf (writes_of_noted ho hadmits henc hb (by rw [hafter]; rfl)
      (by rw [hafter]; rfl) hcore) hcore
  · exact .loses (mute_of_frame?_eq_none hf (by rw [hafter]; rfl)) _ (by rw [hafter]; rfl)
      (by rw [hafter]; rfl)

/-- Looking at the timers. -/
theorem timers_effect {now : Nat} (ha : step.action = .timers now) : step.Effect := by
  have hf : step.frame? = none := frame?_of_action fun now h => by rw [ha] at h; cases h
  have hphase : step.before.perform step.action = step.before.andThen (checkTimers now) := by
    rw [ha, perform]
  rcases phase_cases hphase with ⟨-, hafter⟩ | ⟨he, hafter⟩
  · exact effect_of_eq hf hafter
  have ho : step.offer? = some .ping := by simp [offer?, ha, he]
  obtain ⟨deadline, hs | ⟨loss, hs⟩ | ⟨hadmits, bytes, sink, henc, hb, hs⟩ |
    ⟨-, fault, sink, part, -, hs⟩⟩ := checkTimers_cases now step.before <;> rw [hs] at hafter
  · exact effect_of_same (mute_of_frame?_eq_none hf (by rw [hafter])) (by rw [hafter])
  · exact .loses (mute_of_frame?_eq_none hf (by rw [hafter]; rfl)) _ (by rw [hafter]; rfl)
      (by rw [hafter]; rfl)
  · have hcore : step.after.core = step.before.core.afterSent .ping := by rw [hafter]; rfl
    exact effect_of_writes hf (writes_of_noted ho hadmits henc hb (by rw [hafter]; rfl)
      (by rw [hafter]; rfl) hcore) hcore
  · exact .loses (mute_of_frame?_eq_none hf (by rw [hafter]; rfl)) _ (by rw [hafter]; rfl)
      (by rw [hafter]; rfl)

/-- Every step has one of the effects. -/
theorem effect (step : Step) : step.Effect := by
  cases ha : step.action with
  | receive now => exact receive_effect ha
  | command now => exact command_effect ha
  | followUp now => exact followUp_effect ha
  | timers now => exact timers_effect ha
  | arrive | submit | askShutdown | setRegistry | setIgnored | unsetIgnored =>
    have hm : step.Mute := mute_of_frame?_eq_none
      (frame?_of_action fun now h => by rw [ha] at h; cases h) (by rw [after, ha]; rfl)
    exact .keeps hm _ _ (by rw [after, ha]; rfl)

/-- A step that takes in a response makes of the knowledge what the response says. -/
theorem core_of_heard {response : Response} (h : step.heard = some response) :
    step.returned = (step.before.core.respond response).1 ∧
      step.after.core = (step.before.core.respond response).2 := by
  cases step.effect with
  | hears other hw hh hr hc =>
    obtain rfl := Option.some.inj (hh.symm.trans h)
    exact ⟨hr, hc⟩
  | writes request hw hh =>
    rw [hh] at h
    cases h
  | keeps hm | outputs hm | loses hm =>
    rw [hm.heard] at h
    cases h

/-- What follows from a response: a request to resume the program if the response asks for it, and
then all points when a program starts. -/
theorem returned_of_heard {response : Response} (h : step.heard = some response) :
    step.returned =
      (if (step.before.core.moveTo (step.before.state.afterReceived response.word)).resumesOn
          response then [.resume false] else []) ++
        if step.before.state.isStart (step.before.state.afterReceived response.word) then
          step.after.core.registry.syncRequests else [] := by
  obtain ⟨hr, hc⟩ := core_of_heard h
  rw [hr, hc]
  exact step.before.core.fst_respond response

/-- A step that writes a request makes of the knowledge what the request says. -/
theorem core_of_mem_wrote {request : Request} (h : request ∈ step.wrote) :
    step.after.core = step.before.core.afterSent request := by
  cases step.effect with
  | writes written hw hh hr hc =>
    rw [wrote_of_writes hw, List.mem_singleton] at h
    rwa [h]
  | hears response hw =>
    rw [hw] at h
    cases h
  | keeps hm | outputs hm | loses hm =>
    rw [hm.wrote] at h
    cases h

/-- Requests follow only from a response that is taken in. -/
theorem heard_of_mem_returned {request : Request} (h : request ∈ step.returned) :
    ∃ response, step.heard = some response := by
  cases step.effect with
  | hears response hw hh => exact ⟨response, hh⟩
  | writes written hw hh hr =>
    rw [hr] at h
    cases h
  | keeps hm | outputs hm | loses hm =>
    rw [hm.returned] at h
    cases h

end Session.Step

end DebugLink
