import DebugLink.Proofs.Registry.Points
import DebugLink.Proofs.Session.Answers

/-!
# The way of the requests

A request about a point that the user asks for waits among the commands; one that follows from
the start of a program waits among the follow-ups. A step takes one request at most from the
front of one of the two queues, and writes it. It drops the request instead only if the session
is over or the request is about no point. Unless the debuggee clears a point, no step of the
session changes the points.
-/

namespace DebugLink

namespace Core

/-- A move leaves the points alone. -/
theorem registry_moveTo (core : Core) (next : Option SessionState) :
    (core.moveTo next).registry = core.registry := by
  cases next <;> rfl

/-- The loss of the connection leaves the points alone. -/
theorem registry_disconnect (core : Core) (loss : Loss) :
    (core.disconnect loss).registry = core.registry := by
  unfold disconnect
  dsimp only
  split <;> rfl

/-- A written request leaves the points alone. -/
theorem registry_afterSent (core : Core) (request : Request) :
    (core.afterSent request).registry = core.registry := by
  unfold afterSent
  dsimp only
  rw [registry_moveTo]
  split <;> rfl

/-- A response that clears no point leaves the points alone, and asks for nothing about points. -/
theorem receiveResponse_points (core : Core) {response : Response}
    (hb : response.word ≠ .clearBreak) (hw : response.word ≠ .clearWatch) :
    core.registry.SamePoints (core.receiveResponse response).2.registry ∧
      ∀ request ∈ (core.receiveResponse response).1, request.point? = none := by
  have hnone : ∀ request ∈ ([] : List Request), request.point? = none :=
    fun _ hm => absurd hm List.not_mem_nil
  have herror : ∀ key event,
      core.registry.SamePoints (core.receiveConditionError key event).registry := by
    intro key event
    unfold receiveConditionError Registry.noteError
    dsimp only
    split <;> split <;> exact ⟨rfl, rfl⟩
  cases response with
  | exception report =>
    rw [receiveResponse, receiveException]
    cases core.exceptions.receive report with
    | mk delivery exceptions =>
      cases delivery with
      | report report => exact ⟨⟨rfl, rfl⟩, hnone⟩
      | ignored type count =>
        refine ⟨⟨rfl, rfl⟩, fun request hm => ?_⟩
        dsimp only at hm
        split at hm
        · rw [List.mem_singleton.mp hm]
          rfl
        · exact hnone request hm
  | breakConditionError file line => exact ⟨herror _ _, hnone⟩
  | watchConditionError condition => exact ⟨herror _ _, hnone⟩
  | clearBreak file line => exact absurd rfl hb
  | clearWatch condition => exact absurd rfl hw
  | _ => exact ⟨⟨rfl, rfl⟩, hnone⟩

/-- What a response asks for: nothing about points, and all points when a program starts. -/
theorem respond_points (core : Core) {response : Response} (hb : response.word ≠ .clearBreak)
    (hw : response.word ≠ .clearWatch) :
    core.registry.SamePoints (core.respond response).2.registry ∧
      ∃ more : List Request, (∀ request ∈ more, request.point? = none) ∧
        (core.respond response).1 =
          if core.state.isStart (core.state.afterReceived response.word) then
            more ++ (core.respond response).2.registry.syncRequests
          else more := by
  obtain ⟨hsame, hmore⟩ :=
    (core.moveTo (core.state.afterReceived response.word)).receiveResponse_points hb hw
  rw [registry_moveTo] at hsame
  exact ⟨hsame, _, hmore, rfl⟩

end Core

/-- Whether a poll comes to a message by which the debuggee clears a point. -/
def Wire.Poll.clearsPoint : Wire.Poll → Bool
  | .frame (.message message) => message.word == .clearBreak || message.word == .clearWatch
  | _ => false

namespace Session

/-- A request about a point is admitted as long as the session is not over. -/
theorem admits_of_point {session : Session} {request : Request} (h : request.point? ≠ none)
    (ht : session.state.isTerminal = false) : session.Admits request.word := by
  obtain ⟨hl, hs, -⟩ := Request.word_of_point? h
  refine ⟨ht, ?_⟩
  rw [SessionState.allows, if_neg hl, if_neg (by rw [hs]; exact Bool.false_ne_true)]

/-- A request that is not admitted is about no point, unless the session is over. -/
theorem point?_of_not_admits {session : Session} {request : Request}
    (h : ¬ session.Admits request.word) (ht : session.state.isTerminal = false) :
    request.point? = none :=
  by_contra fun hp => h (admits_of_point hp ht)

/-- The requests of the user that wait to be carried out. -/
def asked (session : Session) : List Request := session.waiting.map Prod.snd

/-- A request that is asked for waits behind the others. -/
theorem asked_submit (session : Session) (request : Request) :
    (session.perform (.submit request)).asked = session.asked ++ [request] := by
  rw [asked, waiting_submit, List.map_append]
  rfl

namespace Step

/-- The request that a step has written, if it has written one. -/
def wrote (step : Step) : List Request :=
  if step.before.written.size < step.after.written.size then step.offer?.toList else []

variable {step : Step}

/-- A step that notes no message has written nothing. -/
theorem wrote_of_written_eq (h : step.after.written = step.before.written) : step.wrote = [] := by
  rw [wrote, h, if_neg (Nat.lt_irrefl _)]

/-- A step has written what it writes. -/
theorem wrote_of_writes {request : Request} (h : step.Writes request) :
    step.wrote = [request] := by
  have hlt : step.before.written.size < (step.before.written.add request.toMessage).size :=
    Nat.lt_succ_self _
  rw [wrote, h.written, h.offered, if_pos hlt]
  rfl

/-- The messages noted are those of the requests written. -/
theorem written_eq (step : Step) : step.after.written.toList =
    step.before.written.toList ++ step.wrote.map Request.toMessage := by
  cases step.outcome with
  | quiet hq hm => rw [wrote_of_written_eq hq.written, hq.written, List.map_nil, List.append_nil]
  | writes request hw =>
    rw [wrote_of_writes hw, hw.written, History.toList_add]
    rfl
  | tears request part ht =>
    rw [wrote_of_written_eq ht.written, ht.written, List.map_nil, List.append_nil]

/-- A step that changes no point: the user asks for no request about points and sets no other
points, and the debuggee clears none. -/
def IsPlain (step : Step) : Prop :=
  match step.action with
  | .submit request => request.point? = none
  | .setRegistry registry => step.before.core.registry.SamePoints registry
  | .receive _ => step.before.ended = true ∨ step.before.reader.poll.1.clearsPoint = false
  | _ => True

instance : DecidablePred IsPlain
  | ⟨_, .submit request⟩ => inferInstanceAs (Decidable (request.point? = none))
  | ⟨before, .setRegistry registry⟩ =>
    inferInstanceAs (Decidable (before.core.registry.SamePoints registry))
  | ⟨before, .receive _⟩ => inferInstanceAs
    (Decidable (before.ended = true ∨ before.reader.poll.1.clearsPoint = false))
  | ⟨_, .arrive _⟩ | ⟨_, .askShutdown⟩ | ⟨_, .setIgnored _⟩ | ⟨_, .unsetIgnored _⟩
  | ⟨_, .command _⟩ | ⟨_, .followUp _⟩ | ⟨_, .timers _⟩ => isTrue trivial

/-- A step keeps the points, and the session at work. -/
structure Keeps (step : Step) : Prop where
  /-- The points stay. -/
  points : step.before.core.registry.SamePoints step.after.core.registry
  /-- The session works as long as it did. -/
  ended : step.after.ended = step.before.ended

/-- What a step does to the requests that wait. -/
inductive Flow (step : Step) : Prop
  /-- The session is over. -/
  | closed (h : step.after.state.isTerminal = true)
      (hp : step.before.core.registry.SamePoints step.after.core.registry)
  /-- Requests about no points come to wait, or are written. -/
  | adds (more asked : List Request) (hk : step.Keeps)
      (hl : step.after.state.isLive = step.before.state.isLive)
      (hm : ∀ request ∈ more ++ asked ++ step.wrote, request.point? = none)
      (hf : step.after.followUps = step.before.followUps ++ more)
      (ha : step.after.asked = step.before.asked ++ asked)
  /-- A program starts, and the requests that make all points come to wait. -/
  | starts (more : List Request) (hk : step.Keeps) (hb : step.before.state.isLive = false)
      (hl : step.after.state.isLive = true)
      (hm : ∀ request ∈ more ++ step.wrote, request.point? = none)
      (hf : step.after.followUps =
        step.before.followUps ++ (more ++ step.after.core.registry.syncRequests))
      (ha : step.after.asked = step.before.asked)
  /-- The oldest request of the user is written, or dropped if it is about no point. -/
  | command (request : Request) (hk : step.Keeps)
      (hl : step.after.state.isLive = step.before.state.isLive)
      (ho : step.wrote = [request] ∨ step.wrote = [] ∧ request.point? = none)
      (hf : step.after.followUps = step.before.followUps)
      (ha : step.before.asked = request :: step.after.asked)
      (hh : step.offer? = some request ∧ ∃ now, step.action = .command now)
  /-- The oldest follow-up is written, or dropped if it is about no point. -/
  | followUp (request : Request) (hk : step.Keeps)
      (hl : step.after.state.isLive = step.before.state.isLive)
      (ho : step.wrote = [request] ∨ step.wrote = [] ∧ request.point? = none)
      (hf : step.before.followUps = request :: step.after.followUps)
      (ha : step.after.asked = step.before.asked)

/-- A step that leaves the queues alone and writes nothing. -/
theorem flow_of_same (hp : step.before.core.registry.SamePoints step.after.core.registry)
    (he : step.after.ended = step.before.ended)
    (hs : step.after.state.isLive = step.before.state.isLive)
    (hw : step.after.written = step.before.written)
    (hf : step.after.followUps = step.before.followUps)
    (ha : step.after.asked = step.before.asked) : step.Flow := by
  refine .adds [] [] ⟨hp, he⟩ hs ?_ (by rw [hf, List.append_nil]) (by rw [ha, List.append_nil])
  rw [wrote_of_written_eq hw]
  exact fun _ hm => absurd hm List.not_mem_nil

/-- A step that does nothing. -/
theorem flow_of_eq (h : step.after = step.before) : step.Flow :=
  flow_of_same (by rw [h]; exact ⟨rfl, rfl⟩) (by rw [h]) (by rw [h]) (by rw [h]) (by rw [h])
    (by rw [h])

/-- A step that loses the connection. -/
theorem flow_of_lose {session : Session} {loss : Loss} (h : step.after = session.lose loss)
    (hr : session.core.registry = step.before.core.registry) : step.Flow := by
  refine .closed (by rw [h]; exact isTerminal_lose session loss) ?_
  have hafter : step.after.core.registry = step.before.core.registry := by
    rw [h, ← hr]
    exact Core.registry_disconnect session.core loss
  rw [hafter]
  exact ⟨rfl, rfl⟩

/-- Taking in a response that clears no point. -/
theorem flow_of_response {response : Response} (hb : response.word ≠ .clearBreak)
    (hw : response.word ≠ .clearWatch)
    (hcore : step.after.core = (step.before.core.respond response).2)
    (he : step.after.ended = step.before.ended) (hnone : step.wrote = [])
    (hf : step.after.followUps =
      step.before.followUps ++ (step.before.core.respond response).1)
    (ha : step.after.asked = step.before.asked) : step.Flow := by
  obtain ⟨hsame, more, hmore, hrespond⟩ := step.before.core.respond_points hb hw
  have hstate : step.after.state = (step.before.core.respond response).2.state :=
    congrArg Core.state hcore
  have hkeeps : step.Keeps := ⟨by rw [hcore]; exact hsame, he⟩
  rw [Core.state_respond] at hstate
  rw [hrespond] at hf
  cases hstart : step.before.core.state.isStart
      (step.before.core.state.afterReceived response.word) with
  | true =>
    obtain ⟨hbefore, hlive⟩ := SessionState.isLive_of_isStart hstart
    rw [hstart, if_pos rfl, ← hcore] at hf
    refine .starts more hkeeps hbefore (by rw [hstate]; exact hlive) ?_ hf ha
    rw [hnone, List.append_nil]
    exact hmore
  | false =>
    rw [hstart, if_neg Bool.false_ne_true] at hf
    rcases SessionState.isLive_of_not_isStart hstart with hover | hlive
    · exact .closed (by rw [hstate]; exact hover) hkeeps.points
    · refine .adds more [] hkeeps (by rw [hstate]; exact hlive) ?_ hf
        (by rw [ha, List.append_nil])
      rw [hnone, List.append_nil, List.append_nil]
      exact hmore

/-- Taking in a frame. -/
theorem receive_flow {now : Nat} (ha : step.action = .receive now) (hp : step.IsPlain) :
    step.Flow := by
  have hphase : step.before.perform step.action = step.before.andThen (receive now) := by
    rw [ha, perform]
  rcases phase_cases hphase with ⟨-, hafter⟩ | ⟨he, hafter⟩
  · exact flow_of_eq hafter
  rcases receive_cases now step.before with ⟨reader, hr⟩ | ⟨reader, loss, hr⟩ |
    ⟨reader, frame, requests, core, hpoll, hc, hr⟩ | ⟨reader, loss, hr⟩ <;> rw [hr] at hafter
  · exact flow_of_same (by rw [hafter]; exact ⟨rfl, rfl⟩) (by rw [hafter]) (by rw [hafter]; rfl)
      (by rw [hafter]) (by rw [hafter]) (by rw [hafter]; rfl)
  · exact flow_of_lose hafter rfl
  · have hnone : step.wrote = [] := wrote_of_written_eq (by rw [hafter])
    have hended : step.after.ended = step.before.ended := by rw [hafter]
    have hcore : step.after.core = core := by rw [hafter]
    have hf : step.after.followUps = step.before.followUps ++ requests := by rw [hafter]
    have hasked : step.after.asked = step.before.asked := by rw [hafter]; rfl
    rcases step.before.core.receive_cases frame with ⟨message, response, rfl, hm, hframe⟩ |
      ⟨text, hframe⟩ | ⟨fault, hframe⟩ <;> rw [hc, Prod.mk.injEq] at hframe
    · obtain ⟨hrequests, rfl⟩ := hframe
      rw [Except.ok.injEq] at hrequests
      rw [IsPlain, ha, he, hpoll] at hp
      have hclear : message.word ≠ .clearBreak ∧ message.word ≠ .clearWatch := by
        simpa [Wire.Poll.clearsPoint] using hp
      rw [← Response.word_of_ofMessage hm] at hclear
      exact flow_of_response hclear.1 hclear.2 hcore hended hnone (by rw [hf, hrequests]) hasked
    · obtain ⟨hrequests, rfl⟩ := hframe
      rw [Except.ok.injEq] at hrequests
      exact flow_of_same (by rw [hcore]; exact ⟨rfl, rfl⟩) hended
        (by rw [state, hcore]; rfl) (by rw [hafter])
        (by rw [hf, hrequests, List.append_nil]) hasked
    · cases hframe.1
  · exact flow_of_lose hafter rfl

/-- A step that takes note of a written request leaves the points alone. -/
theorem samePoints_of_afterSent {request : Request}
    (h : step.after.core = step.before.core.afterSent request) :
    step.before.core.registry.SamePoints step.after.core.registry := by
  rw [h, Core.registry_afterSent]
  exact ⟨rfl, rfl⟩

/-- Writing a request that is not one of those that wait. -/
theorem flow_of_writes {request : Request} (hw : step.Writes request)
    (hr : request.point? = none) (hk : step.Keeps)
    (hf : step.after.followUps = step.before.followUps)
    (ha : step.after.asked = step.before.asked) : step.Flow := by
  refine .adds [] [] hk (by rw [hw.state, SessionState.isLive_afterSent]) ?_
    (by rw [hf, List.append_nil]) (by rw [ha, List.append_nil])
  rw [wrote_of_writes hw]
  exact List.forall_mem_singleton.mpr hr

/-- Carrying out a command. -/
theorem command_flow {now : Nat} (ha : step.action = .command now) : step.Flow := by
  rcases command_cases ha with ⟨-, hafter⟩ | ⟨-, command, rest, hc, ho, hafter⟩
  · exact flow_of_eq hafter
  cases command with
  | shutdown =>
    have hasked : step.before.asked = (rest.filterMap Command.ticket?).map Prod.snd := by
      rw [asked, waiting, hc]
      rfl
    rw [runCommand] at hafter
    rcases beginShutdown_cases now { step.before with commands := rest } with
      ⟨deadline, hs⟩ | ⟨hadmits, bytes, sink, deadline, henc, hb, hs⟩ |
      ⟨hadmits, sink, part, deadline, ht, hs⟩ <;> rw [hs] at hafter
    · exact flow_of_same (by rw [hafter]; exact ⟨rfl, rfl⟩) (by rw [hafter])
        (by rw [hafter]; rfl) (by rw [hafter]) (by rw [hafter]) (by rw [hasked, hafter]; rfl)
    · have hcore : step.after.core = step.before.core.afterSent .shutdown := by rw [hafter]; rfl
      exact flow_of_writes (writes_of_noted ho ⟨hadmits.notTerminal, hadmits.allows⟩ henc hb
        (by rw [hafter]; rfl) (by rw [hafter]; rfl) hcore) rfl
        ⟨samePoints_of_afterSent hcore, by rw [hafter]; rfl⟩ (by rw [hafter]; rfl)
        (by rw [hasked, hafter]; rfl)
    · exact flow_of_same (by rw [hafter]; exact ⟨rfl, rfl⟩) (by rw [hafter]; rfl)
        (by rw [hafter]; rfl) (by rw [hafter]; rfl) (by rw [hafter]; rfl)
        (by rw [hasked, hafter]; rfl)
  | send ticket request =>
    have hhead : step.offer? = some request ∧ ∃ now, step.action = .command now :=
      ⟨ho, now, ha⟩
    have hasked : step.before.asked =
        request :: (rest.filterMap Command.ticket?).map Prod.snd := by
      rw [asked, waiting, hc]
      rfl
    rcases runCommand_send_cases now { step.before with commands := rest } ticket request with
      ⟨hn, error, -, hs⟩ | ⟨hadmits, bytes, sink, henc, hb, hs⟩ |
      ⟨-, fault, sink, part, -, hs⟩ <;> rw [hs] at hafter
    · cases ht : step.before.state.isTerminal with
      | true => exact .closed (by rw [hafter]; exact ht) (by rw [hafter]; exact ⟨rfl, rfl⟩)
      | false =>
        have hpoint : request.point? = none :=
          point?_of_not_admits (fun ha => hn ⟨ha.notTerminal, ha.allows⟩) ht
        exact .command request ⟨by rw [hafter]; exact ⟨rfl, rfl⟩, by rw [hafter]⟩
          (by rw [hafter]; rfl) (.inr ⟨wrote_of_written_eq (by rw [hafter]), hpoint⟩)
          (by rw [hafter]) (by rw [hasked, hafter]; rfl) hhead
    · have hcore : step.after.core = step.before.core.afterSent request := by rw [hafter]; rfl
      have hwrites : step.Writes request :=
        writes_of_noted ho ⟨hadmits.notTerminal, hadmits.allows⟩ henc hb
          (by rw [hafter]; rfl) (by rw [hafter]; rfl) hcore
      exact .command request ⟨samePoints_of_afterSent hcore, by rw [hafter]; rfl⟩
        (by rw [hwrites.state, SessionState.isLive_afterSent])
        (.inl (wrote_of_writes hwrites)) (by rw [hafter]; rfl) (by rw [hasked, hafter]; rfl)
        hhead
    · exact flow_of_lose hafter rfl

/-- Writing a request that follows from what came in. -/
theorem followUp_flow {now : Nat} (ha : step.action = .followUp now) : step.Flow := by
  rcases followUp_cases ha with hafter | ⟨request, rest, hf, ho, hafter⟩
  · exact flow_of_eq hafter
  rcases sendNextFollowUp_cases now hf with ⟨hn, hs⟩ | ⟨hadmits, bytes, sink, henc, hb, hs⟩ |
    ⟨-, fault, sink, part, -, hs⟩ <;> rw [hs] at hafter
  · cases ht : step.before.state.isTerminal with
    | true => exact .closed (by rw [hafter]; exact ht) (by rw [hafter]; exact ⟨rfl, rfl⟩)
    | false =>
      exact .followUp request ⟨by rw [hafter]; exact ⟨rfl, rfl⟩, by rw [hafter]⟩
        (by rw [hafter]; rfl)
        (.inr ⟨wrote_of_written_eq (by rw [hafter]), point?_of_not_admits hn ht⟩)
        (by rw [hf, hafter]) (by rw [hafter]; rfl)
  · have hcore : step.after.core = step.before.core.afterSent request := by rw [hafter]; rfl
    have hwrites : step.Writes request :=
      writes_of_noted ho hadmits henc hb (by rw [hafter]; rfl) (by rw [hafter]; rfl) hcore
    exact .followUp request ⟨samePoints_of_afterSent hcore, by rw [hafter]; rfl⟩
      (by rw [hwrites.state, SessionState.isLive_afterSent]) (.inl (wrote_of_writes hwrites))
      (by rw [hf, hafter]; rfl) (by rw [hafter]; rfl)
  · exact flow_of_lose hafter rfl

/-- Looking at the timers. -/
theorem timers_flow {now : Nat} (ha : step.action = .timers now) : step.Flow := by
  have hphase : step.before.perform step.action = step.before.andThen (checkTimers now) := by
    rw [ha, perform]
  rcases phase_cases hphase with ⟨-, hafter⟩ | ⟨he, hafter⟩
  · exact flow_of_eq hafter
  have ho : step.offer? = some .ping := by simp [offer?, ha, he]
  obtain ⟨deadline, hs | ⟨loss, hs⟩ | ⟨hadmits, bytes, sink, henc, hb, hs⟩ |
    ⟨-, fault, sink, part, -, hs⟩⟩ := checkTimers_cases now step.before <;> rw [hs] at hafter
  · exact flow_of_same (by rw [hafter]; exact ⟨rfl, rfl⟩) (by rw [hafter]) (by rw [hafter]; rfl)
      (by rw [hafter]) (by rw [hafter]) (by rw [hafter]; rfl)
  · exact flow_of_lose hafter rfl
  · have hcore : step.after.core = step.before.core.afterSent .ping := by rw [hafter]; rfl
    exact flow_of_writes (writes_of_noted ho hadmits henc hb (by rw [hafter]; rfl)
      (by rw [hafter]; rfl) hcore) rfl
      ⟨samePoints_of_afterSent hcore, by rw [hafter]; rfl⟩ (by rw [hafter]; rfl)
      (by rw [hafter]; rfl)
  · exact flow_of_lose hafter rfl

/-- What a plain step does to the requests that wait. -/
theorem flow (step : Step) (hp : step.IsPlain) : step.Flow := by
  have hplain := hp
  rw [IsPlain] at hplain
  cases ha : step.action with
  | arrive | setIgnored | unsetIgnored =>
    exact flow_of_same (by rw [after, ha]; exact ⟨rfl, rfl⟩) (by rw [after, ha]; rfl)
      (by rw [after, ha]; rfl) (by rw [after, ha]; rfl) (by rw [after, ha]; rfl)
      (by rw [after, ha]; rfl)
  | setRegistry registry =>
    rw [ha] at hplain
    exact flow_of_same (by rw [after, ha]; exact hplain) (by rw [after, ha]; rfl)
      (by rw [after, ha]; rfl) (by rw [after, ha]; rfl) (by rw [after, ha]; rfl)
      (by rw [after, ha]; rfl)
  | askShutdown =>
    have hw : step.after.asked = step.before.asked := by
      rw [after, ha, asked, asked]
      exact congrArg (List.map Prod.snd) (List.filterMap_append.trans (List.append_nil _))
    exact flow_of_same (by rw [after, ha]; exact ⟨rfl, rfl⟩) (by rw [after, ha]; rfl)
      (by rw [after, ha]; rfl) (by rw [after, ha]; rfl) (by rw [after, ha]; rfl) hw
  | submit request =>
    rw [ha] at hplain
    refine .adds [] [request] ⟨by rw [after, ha]; exact ⟨rfl, rfl⟩, by rw [after, ha]; rfl⟩
      (by rw [after, ha]; rfl) ?_ (by rw [after, ha, List.append_nil]; rfl)
      (by rw [after, ha, asked_submit])
    rw [wrote_of_written_eq (by rw [after, ha]; rfl)]
    exact List.forall_mem_singleton.mpr hplain
  | receive now => exact receive_flow ha hp
  | command now => exact command_flow ha
  | followUp now => exact followUp_flow ha
  | timers now => exact timers_flow ha

end Step

end Session

end DebugLink
