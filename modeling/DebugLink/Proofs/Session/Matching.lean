import DebugLink.Proofs.Session.Effect

/-!
# Replies and the requests that they answer

Replies carry no number, and the requests that wait for one stand in a single queue. A reply takes
the oldest request of its kind out of it, from the middle if need be. Seen by kind, the queue is
one queue for each kind of reply, first in, first out, and no kind disturbs another. So as long as
a session goes on, a result names the oldest request of its kind that was written and not answered.
-/

namespace DebugLink

/-! ## Kinds -/

/-- The kinds of replies that a request can wait for. -/
inductive ReplyKind where
  /-- The result of an expression. -/
  | eval
  /-- The result of a statement. -/
  | exec
  /-- The variables of a scope. -/
  | variableList
  /-- The members of a variable. -/
  | expand
  /-- The threads. -/
  | threadList
  /-- The change to another thread. -/
  | threadSet
  /-- The stack. -/
  | currentStack
  deriving DecidableEq

/-- The kind of reply that a request waits for. Most requests wait for none, and a probe is
answered by any sign of life. -/
def Request.replyKind? : Request → Option ReplyKind
  | .eval .. => some .eval
  | .exec .. => some .exec
  | .variableList .. => some .variableList
  | .expand .. => some .expand
  | .threadList => some .threadList
  | .threadSet _ => some .threadSet
  | .currentStack => some .currentStack
  | _ => none

/-- The kind of reply that a response is. That an evaluation began is no reply. -/
def Response.replyKind? : Response → Option ReplyKind
  | .evalOk _ | .evalError _ => some .eval
  | .exec | .execError _ => some .exec
  | .variableList _ => some .variableList
  | .expand _ => some .expand
  | .threadList _ => some .threadList
  | .threadSet => some .threadSet
  | .currentStack _ => some .currentStack
  | _ => none

/-- A request that was written, or a response that was taken in. -/
inductive Exchange where
  /-- A request was written. -/
  | wrote (request : Request)
  /-- A response was taken in. -/
  | heard (response : Response)

namespace ReplyKind

/-- The requests of a queue that wait for a reply of this kind. -/
def queue (kind : ReplyKind) (pending : Pending) : List Request :=
  pending.filter fun request => request.replyKind? == some kind

/-- The queue of one kind after an exchange: a request of the kind joins behind, a reply of the
kind takes the first one away. -/
def advance (kind : ReplyKind) (waiting : List Request) : Exchange → List Request
  | .wrote request => if request.replyKind? = some kind then waiting ++ [request] else waiting
  | .heard response => if response.replyKind? = some kind then waiting.tail else waiting

/-- The requests of one kind that were written and are not answered, oldest first. -/
def outstanding (kind : ReplyKind) (history : List Exchange) : List Request :=
  history.foldl kind.advance []

end ReplyKind

/-! ## One exchange -/

namespace Pending

/-- A reply of a kind is awaited by the requests of that kind. -/
theorem awaits_eq {response : Response} {kind : ReplyKind} (h : response.replyKind? = some kind) :
    awaits response.word = fun request => request.replyKind? == some kind := by
  funext request
  cases response <;> cases h <;> cases request <;> rfl

/-- A written request waits if it has a kind. -/
theorem push_eq (pending : Pending) (request : Request) :
    pending.push request = if request.replyKind? = none then pending else pending ++ [request] := by
  cases request <;> rfl

/-- A reply finds no request of its kind, or takes the first one out. -/
theorem take_cases (pending : Pending) {response : Response} {kind : ReplyKind}
    (h : response.replyKind? = some kind) :
    (kind.queue pending = [] ∧ pending.take response.word = (none, pending)) ∨
      ∃ front oldest back, pending = front ++ oldest :: back ∧
        (∀ other ∈ front, other.replyKind? ≠ some kind) ∧ oldest.replyKind? = some kind ∧
          pending.take response.word = (some oldest, front ++ back) := by
  rw [take, awaits_eq h]
  cases hf : pending.find? fun request => request.replyKind? == some kind with
  | none =>
    have hnone := List.find?_eq_none.mp hf
    exact .inl ⟨List.filter_eq_nil_iff.mpr hnone, by rw [List.eraseP_of_forall_not hnone]⟩
  | some oldest =>
    obtain ⟨hkind, front, back, rfl, hfront⟩ := List.find?_eq_some_iff_append.mp hf
    have hfront : ∀ other ∈ front, other.replyKind? ≠ some kind := fun other hm => by
      simpa using hfront other hm
    have herase : (front ++ oldest :: back).eraseP (fun request =>
        request.replyKind? == some kind) = front ++ back := by
      rw [List.eraseP_append_right _ fun other hm => by simpa using hfront other hm,
        List.eraseP_cons, hkind, cond_true]
    exact .inr ⟨front, oldest, back, rfl, hfront, beq_iff_eq.mp hkind, by rw [herase]⟩

/-- The waiting requests after an exchange. -/
def advance (pending : Pending) : Exchange → Pending
  | .wrote request => pending.push request
  | .heard response =>
    if response.replyKind? = none then pending else (pending.take response.word).2

end Pending

namespace ReplyKind

/-- The oldest request of a kind is the one that a reply of the kind takes out. -/
theorem head?_queue (pending : Pending) {response : Response} {kind : ReplyKind}
    (h : response.replyKind? = some kind) :
    (kind.queue pending).head? = (pending.take response.word).1 := by
  rw [queue, List.head?_filter, Pending.take, Pending.awaits_eq h]

/-- No other request than one of the kind is in the queue of the kind. -/
theorem queue_eq_nil {kind : ReplyKind} {pending : Pending}
    (h : ∀ request ∈ pending, request.replyKind? ≠ some kind) : kind.queue pending = [] :=
  List.filter_eq_nil_iff.mpr fun request hm => by simpa using h request hm

/-- The queue of a kind behind requests of other kinds. -/
theorem queue_append_cons (kind : ReplyKind) (front : Pending) (request : Request)
    (back : Pending) : kind.queue (front ++ request :: back) =
      kind.queue front ++
        if request.replyKind? = some kind then request :: kind.queue back else kind.queue back := by
  rw [queue, List.filter_append, List.filter_cons]
  simp only [beq_iff_eq]
  rfl

/-- The queue of each kind follows the one queue of all requests through every exchange. -/
theorem queue_advance (kind : ReplyKind) (pending : Pending) (exchange : Exchange) :
    kind.queue (pending.advance exchange) = kind.advance (kind.queue pending) exchange := by
  cases exchange with
  | wrote request =>
    rw [Pending.advance, Pending.push_eq, advance]
    split
    · next hn => rw [hn, if_neg nofun]
    · rw [queue_append_cons]
      split
      · rfl
      · exact List.append_nil _
  | heard response =>
    rw [Pending.advance, advance]
    cases hr : response.replyKind? with
    | none => rfl
    | some other =>
      rw [if_neg nofun]
      rcases pending.take_cases hr with ⟨hnil, ht⟩ | ⟨front, oldest, back, rfl, hfront, hkind, ht⟩
      · rw [ht]
        split
        · next he =>
          obtain rfl := Option.some.inj he
          rw [hnil, List.tail_nil]
        · rfl
      · -- The request that goes is of the other kind: it was first in that queue, and in no other.
        have hrest : kind.queue (front ++ back) = kind.queue front ++ kind.queue back :=
          List.filter_append ..
        rw [ht, hrest, queue_append_cons, hkind]
        split
        · next he =>
          obtain rfl := Option.some.inj he
          rw [queue_eq_nil hfront]
          rfl
        · rfl

/-- What is outstanding is the queue of the kind among all that wait. -/
theorem queue_foldl (kind : ReplyKind) (history : List Exchange) :
    kind.queue (history.foldl Pending.advance []) = kind.outstanding history :=
  (List.foldl_hom kind.queue
    fun pending exchange => (kind.queue_advance pending exchange).symm).symm

end ReplyKind

namespace Pending

/-- Whatever waits after an exchange has a kind. -/
theorem replyKind?_of_mem_advance {pending : Pending} {exchange : Exchange}
    (h : ∀ request ∈ pending, request.replyKind? ≠ none) :
    ∀ request ∈ pending.advance exchange, request.replyKind? ≠ none := by
  intro request hm
  cases exchange with
  | wrote written =>
    rw [advance, push_eq] at hm
    split at hm
    · exact h request hm
    · next hk =>
      rcases List.mem_append.mp hm with hm | hm
      · exact h request hm
      · rwa [List.mem_singleton.mp hm]
  | heard response =>
    rw [advance] at hm
    split at hm
    · exact h request hm
    · exact h request (List.mem_of_mem_eraseP hm)

/-- Whatever waits after a history has a kind. -/
theorem replyKind?_of_mem_foldl (history : List Exchange) {pending : Pending}
    (h : ∀ request ∈ pending, request.replyKind? ≠ none) :
    ∀ request ∈ history.foldl advance pending, request.replyKind? ≠ none := by
  induction history generalizing pending with
  | nil => exact h
  | cons exchange history ih => exact ih (replyKind?_of_mem_advance h)

end Pending

namespace Core

/-- A response takes at most one request out, unless the program ends. -/
theorem pending_respond (core : Core) {response : Response} (h : response.word ≠ .exit) :
    (core.respond response).2.pending = core.pending.advance (.heard response) := by
  have hreceive : ∀ core : Core,
      (core.receiveResponse response).2.pending = core.pending.advance (.heard response) := by
    intro core
    cases response with
    | exit code => exact absurd rfl h
    | exception report =>
      rw [receiveResponse, receiveException]
      cases core.exceptions.receive report with
      | mk delivery exceptions => cases delivery <;> rfl
    | breakConditionError | watchConditionError =>
      rw [receiveResponse, receiveConditionError]
      dsimp only
      split <;> rfl
    | _ => rfl
  rw [respond]
  exact (hreceive _).trans (by rw [pending_moveTo])

/-- A written request joins the queue. -/
theorem pending_afterSent (core : Core) (request : Request) :
    (core.afterSent request).pending = core.pending.advance (.wrote request) := by
  unfold afterSent
  dsimp only
  split <;> rw [pending_moveTo] <;> rfl

end Core

/-- The event names the expression, the statement or the thread of the given request of its kind,
if it is an event that names one. -/
def Event.Names (oldest : ReplyKind → Option Request) : Event → Prop
  | .evalResult expression _ _ => expression = Core.expression? (oldest .eval)
  | .execResult statement _ => statement = Core.statement? (oldest .exec)
  | .threadSet thread => thread = Core.thread? (oldest .threadSet)
  | _ => True

/-- What a response tells names the oldest request of its kind. -/
theorem Core.names_of_tells {core : Core} {response : Response} {event : Event}
    (h : core.Tells response event) : event.Names fun kind => (kind.queue core.pending).head? := by
  cases event with
  | evalResult expression result isError =>
    obtain ⟨he, hr⟩ := h
    have hkind : response.replyKind? = some .eval := by rw [hr]; cases isError <;> rfl
    rw [he, ← ReplyKind.head?_queue core.pending hkind]
    rfl
  | execResult statement error =>
    obtain ⟨hs, hr⟩ := h
    have hkind : response.replyKind? = some .exec := by rw [hr]; cases error <;> rfl
    rw [hs, ← ReplyKind.head?_queue core.pending hkind]
    rfl
  | threadSet thread =>
    obtain ⟨ht, hr⟩ := h
    have hkind : response.replyKind? = some .threadSet := by rw [hr]; rfl
    rw [ht, ← ReplyKind.head?_queue core.pending hkind]
    rfl
  | _ => trivial

namespace SessionState

/-- When the program ends, the session is over. -/
theorem isTerminal_afterExit (state : SessionState) :
    ((state.afterReceived .exit).getD state).isTerminal = true := by
  cases state <;> rfl

/-- When the connection is lost, the session is over. -/
theorem isTerminal_afterLoss (state : SessionState) :
    (state.afterLoss.getD state).isTerminal = true := by
  cases state <;> rfl

end SessionState

/-! ## Runs -/

namespace Session

namespace Step

/-- The request that a step writes, or the response that it takes in. -/
def exchanges (step : Step) : List Exchange :=
  step.wrote.map .wrote ++ step.heard.toList.map .heard

/-- The events that a step publishes. -/
def published (step : Step) : List Event :=
  step.after.core.events.since step.before.core.events.size

/-- A mute step exchanges nothing. -/
theorem Mute.exchanges {step : Step} (h : step.Mute) : step.exchanges = [] := by
  rw [Step.exchanges, h.wrote, h.heard]
  rfl

/-- What is published is what the knowledge says. -/
theorem published_eq {step : Step} {events : List Event}
    (h : step.before.core.Publishes step.after.core events) : step.published = events := by
  rw [published, History.since_eq_drop, h, History.size_eq_length_toList, List.drop_left]

/-- A request that a step writes joins the queue. -/
theorem pending_of_mem_wrote {step : Step} {request : Request} (hm : request ∈ step.wrote) :
    step.after.core.pending = step.before.core.pending.advance (.wrote request) := by
  rw [core_of_mem_wrote hm]
  exact step.before.core.pending_afterSent request

/-- A response that a step takes in takes its request out of the queue, unless the program ends. -/
theorem pending_of_mem_heard {step : Step} {response : Response} (hm : response ∈ step.heard)
    (h : response.word ≠ .exit) :
    step.after.core.pending = step.before.core.pending.advance (.heard response) := by
  rw [(core_of_heard hm).2]
  exact step.before.core.pending_respond h

/-- A step of a session that goes on changes what waits by its exchange. -/
theorem pending_step {step : Step} (h : step.after.state.isTerminal = false) :
    step.after.core.pending = step.exchanges.foldl Pending.advance step.before.core.pending := by
  cases step.effect with
  | keeps hm registry ignored hc =>
    rw [hm.exchanges, hc]
    rfl
  | writes request hw hh hr hc =>
    have hwrote := wrote_of_writes hw
    rw [exchanges, hwrote, hh]
    exact pending_of_mem_wrote (by rw [hwrote]; exact List.mem_singleton_self request)
  | hears response hw hh hr hc =>
    have hexit : response.word ≠ .exit := by
      intro he
      rw [state, hc, Core.state_respond, he, SessionState.isTerminal_afterExit] at h
      cases h
    rw [exchanges, hw, hh]
    exact pending_of_mem_heard hh hexit
  | outputs hm text hc =>
    rw [hm.exchanges, hc]
    rfl
  | loses hm loss hc =>
    rw [state, hc, Core.state_disconnect, SessionState.isTerminal_afterLoss] at h
    cases h

/-- Every event that a step publishes names the oldest request of its kind, if it names one. -/
theorem names_of_mem_published {step : Step} {event : Event} (hm : event ∈ step.published) :
    event.Names fun kind => (kind.queue step.before.core.pending).head? := by
  have hmoved : ∀ next, event ∈ Core.moved step.before.core.state next →
      event.Names fun kind => (kind.queue step.before.core.pending).head? := by
    intro next hm
    obtain ⟨target, -, rfl⟩ := List.mem_map.mp hm
    trivial
  cases step.effect with
  | keeps _ registry ignored hc =>
    have hp : step.before.core.Publishes step.after.core [] := by
      rw [hc]
      exact .refl step.before.core
    rw [published_eq hp] at hm
    cases hm
  | writes request hw hh hr hc =>
    rw [published_eq (hc ▸ step.before.core.publishes_afterSent request)] at hm
    exact hmoved _ hm
  | hears response hw hh hr hc =>
    obtain ⟨events, hp, htells⟩ := step.before.core.publishes_respond response
    rw [published_eq (hc ▸ hp)] at hm
    rcases List.mem_append.mp hm with hm | hm
    · exact hmoved _ hm
    · exact Core.names_of_tells (htells event hm)
  | outputs _ text hc =>
    rw [published_eq (hc ▸ step.before.core.publishes_emit _)] at hm
    rw [List.mem_singleton.mp hm]
    trivial
  | loses _ loss hc =>
    rw [published_eq (hc ▸ step.before.core.publishes_disconnect loss)] at hm
    rcases List.mem_append.mp hm with hm | hm
    · exact hmoved _ hm
    · obtain ⟨next, -, rfl⟩ := List.mem_map.mp hm
      trivial

end Step

/-- The requests that a run writes and the responses that it takes in, in order. -/
def exchanges (session : Session) (actions : List Action) : List Exchange :=
  (steps session actions).flatMap Step.exchanges

/-- A run that goes on changes what waits by its exchanges. -/
theorem pending_run (session : Session) (actions : List Action)
    (h : (session.run actions).state.isTerminal = false) :
    (session.run actions).core.pending =
      (exchanges session actions).foldl Pending.advance session.core.pending := by
  induction actions generalizing session with
  | nil => rfl
  | cons action actions ih =>
    -- A session that is over behind the first step would be over behind the run.
    have hgoes : (Step.mk session action).after.state.isTerminal = false := by
      by_contra ht
      have hend := (forall_steps (P := fun next => next.state.isTerminal = true)
        (fun step hs => by rw [state_of_terminal hs]; exact hs) (by simpa using ht) actions).2
      have hrun : session.run (action :: actions) =
          (Step.mk session action).after.run actions := rfl
      rw [hrun, hend] at h
      cases h
    have hstep := Step.pending_step hgoes
    have hrest := ih (Step.mk session action).after h
    rw [hstep, ← List.foldl_append] at hrest
    exact hrest

/-- What was exchanged before a step tells which requests wait for a reply, which of them the step
takes out, and what its events name. -/
structure IsMatched (history : List Exchange) (step : Step) : Prop where
  /-- Seen by kind, those wait that were written and are not answered, in order. -/
  queues : ∀ kind : ReplyKind,
    kind.queue step.before.core.pending = kind.outstanding history
  /-- No other request waits. -/
  kinds : ∀ request ∈ step.before.core.pending, request.replyKind? ≠ none
  /-- A written request joins behind all others if it waits for a reply, else nothing changes. -/
  joins : ∀ request ∈ step.wrote, step.after.core.pending =
    if request.replyKind? = none then step.before.core.pending
    else step.before.core.pending ++ [request]
  /-- A reply takes out the oldest request of its kind, and the others keep their order. -/
  answers : ∀ response ∈ step.heard, ∀ kind, response.replyKind? = some kind →
    ∀ oldest ∈ (kind.outstanding history).head?, ∃ front back,
      step.before.core.pending = front ++ oldest :: back ∧
        (∀ other ∈ front, other.replyKind? ≠ some kind) ∧ step.after.core.pending = front ++ back
  /-- A reply that nobody waits for changes nothing. -/
  unasked : ∀ response ∈ step.heard, ∀ kind, response.replyKind? = some kind →
    kind.outstanding history = [] → step.after.core.pending = step.before.core.pending
  /-- Nothing else takes a request out, as long as the session goes on. -/
  keeps : step.wrote = [] → (∀ response ∈ step.heard, response.replyKind? = none) →
    step.after.state.isTerminal = false → step.after.core.pending = step.before.core.pending
  /-- A result names the oldest request of its kind, and none if nobody waits for it. -/
  names : ∀ event ∈ step.published, event.Names fun kind => (kind.outstanding history).head?

/-- The exchanges that led to what waits before a step tell what the step makes of it. -/
theorem isMatched_step {history : List Exchange} {step : Step}
    (h : step.before.core.pending = history.foldl Pending.advance []) :
    IsMatched history step := by
  have hqueues : ∀ kind : ReplyKind,
      kind.queue step.before.core.pending = kind.outstanding history := fun kind => by
    rw [h, kind.queue_foldl]
  have htaken : ∀ response ∈ step.heard, ∀ kind, response.replyKind? = some kind →
      step.after.core.pending = (step.before.core.pending.take response.word).2 := by
    intro response hm kind hk
    have hexit : response.word ≠ .exit := by
      cases response <;> cases hk <;> exact nofun
    rw [Step.pending_of_mem_heard hm hexit, Pending.advance, hk, if_neg nofun]
  refine ⟨hqueues, ?_, ?_, ?_, ?_, ?_, ?_⟩
  case refine_1 =>
    rw [h]
    exact Pending.replyKind?_of_mem_foldl history fun _ hm => absurd hm List.not_mem_nil
  case refine_2 =>
    intro request hm
    rw [Step.pending_of_mem_wrote hm]
    exact Pending.push_eq step.before.core.pending request
  case refine_3 =>
    intro response hm kind hk oldest ho
    rw [htaken response hm kind hk]
    rw [← hqueues kind, ReplyKind.head?_queue _ hk] at ho
    rcases step.before.core.pending.take_cases hk with
      ⟨-, ht⟩ | ⟨front, first, back, hsplit, hfront, -, ht⟩ <;> rw [ht] at ho ⊢
    · cases ho
    · obtain rfl := Option.some.inj ho
      exact ⟨front, back, hsplit, hfront, rfl⟩
  case refine_4 =>
    intro response hm kind hk hnil
    rw [htaken response hm kind hk]
    rw [← hqueues kind] at hnil
    have hhead := ReplyKind.head?_queue step.before.core.pending hk
    rcases step.before.core.pending.take_cases hk with
      ⟨-, ht⟩ | ⟨front, first, back, hsplit, hfront, -, ht⟩ <;> rw [ht] at hhead ⊢
    rw [hnil] at hhead
    cases hhead
  case refine_5 =>
    intro hw hheard hgoes
    rw [Step.pending_step hgoes, Step.exchanges, hw]
    cases hh : step.heard with
    | none => rfl
    | some response =>
      change step.before.core.pending.advance (.heard response) = _
      rw [Pending.advance, hheard response hh, if_pos rfl]
  case refine_6 =>
    intro event hm
    simp only [← hqueues]
    exact Step.names_of_mem_published hm

/-- In every run of a session that goes on, replies are matched with the requests of their kind,
first in, first out. -/
theorem isMatched_run (config : SessionConfig) (script : List Wire.WriteOutcome)
    (broken : Option Wire.IoFault) (actions : List Action) (action : Action)
    (h : ((start config script broken).run actions).state.isTerminal = false) :
    IsMatched (exchanges (start config script broken) actions)
      ⟨(start config script broken).run actions, action⟩ :=
  isMatched_step (pending_run (start config script broken) actions h)

/-- Two expressions and a statement between them are asked for, and the first expression and the
statement are answered. -/
def interleaved : List Action :=
  [.arrive [.data (Text.Utf8.encode ">PassiveStartup<a.py|1\n>Line<[]\n")],
    .receive 0, .receive 0, .submit (.eval 0 "a"), .submit (.exec 0 "b"), .submit (.eval 0 "c"),
    .command 0, .command 0, .command 0,
    .arrive [.data (Text.Utf8.encode ">Exec<\n>EvalError<no\n>EvalOK<1\n")],
    .receive 0, .receive 0]

/-- The reply that comes then names the second expression. -/
theorem isMatched_run_interleaved :
    ((start {} [] none).run interleaved).state.isTerminal = false ∧
      IsMatched (exchanges (start {} [] none) interleaved)
          ⟨(start {} [] none).run interleaved, .receive 0⟩ ∧
        (Step.mk ((start {} [] none).run interleaved) (.receive 0)).published =
          [.evalResult (some "c") "1" false] := by
  have hgoes : ((start {} [] none).run interleaved).state.isTerminal = false := by decide +kernel
  exact ⟨hgoes, isMatched_run {} [] none interleaved (.receive 0) hgoes, by decide +kernel⟩

end Session

end DebugLink
