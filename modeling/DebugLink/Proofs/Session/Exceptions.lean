import DebugLink.Proofs.Session.LastStop
import DebugLink.Proofs.Session.Matching

/-!
# What becomes of exceptions

A report of an exception is told once, when it is taken in: as it is shown, or as one that is
ignored, with the number of those of its type that have been ignored. Which of the two it is depends
on the ignore list at that time, and the list is what the session was made with and what its user
has changed since. The numbers are never set back, also when a type is taken off the list and put on
it again. All other frames, the requests that are written and the loss of the connection tell of no
exception, so that the reports are told in the order in which they come.
-/

namespace DebugLink

/-- The exception that a response reports. -/
def Response.exception? : Response → Option ExceptionReport
  | exception report => some report
  | _ => none

/-- Whether an event tells of an exception, shown or ignored. -/
def Event.isDelivery : Event → Bool
  | exception _ | exceptionIgnored _ _ => true
  | _ => false

/-- A report as it is shown differs from what was reported only in that it has no stack if the first
frame is in an evaluated expression. -/
theorem ExceptionReport.shown_eq (report : ExceptionReport) :
    report.shown = { report with
      stack := if report.stack.head?.any (·.file == "<string>") then [] else report.stack } := by
  obtain ⟨type, message, stack⟩ := report
  cases stack with
  | nil => rfl
  | cons frame rest =>
    have hraised : raisedInEval ⟨type, message, frame :: rest⟩ =
        (frame.file == "<string>") := rfl
    rw [shown, hraised, List.head?_cons, Option.any_some]
    split <;> rfl

/-! ## The ignore list -/

/-- Whether a type is on the ignore list behind an action, if it was there or was not. -/
def Action.lists (type : String) (listed : Bool) : Action → Bool
  | setIgnored other => type == other || listed
  | unsetIgnored other => type != other && listed
  | _ => listed

namespace ExceptionFilter

/-- A type that is put into its place is in the list, besides those that were there. -/
theorem contains_insertType (type other : String) (types : List String) :
    (insertType type types).contains other = (other == type || types.contains other) := by
  induction types with
  | nil => rw [insertType, List.contains_cons]
  | cons first rest ih =>
    rw [insertType]
    split
    · rw [List.contains_cons]
    · split
      · next h => rw [h, List.contains_cons, ← Bool.or_assoc, Bool.or_self]
      · rw [List.contains_cons, List.contains_cons, ih, Bool.or_left_comm]

/-- The types of a new list are those that it is made of. -/
theorem isIgnored_ofTypes (types : List String) (type : String) :
    (ofTypes types).isIgnored type = types.contains type := by
  suffices hfold : ∀ listed : List String,
      (types.foldl (fun ignored type => insertType type ignored) listed).contains type =
        (listed.contains type || types.contains type) from hfold []
  induction types with
  | nil => exact fun listed => (Bool.or_false _).symm
  | cons first types ih =>
    intro listed
    rw [List.foldl_cons, ih, contains_insertType, List.contains_cons, Bool.or_left_comm,
      Bool.or_assoc]

/-- A type is on the list behind one that is put on it if it is that one or was there. -/
theorem isIgnored_setIgnored (filter : ExceptionFilter) (type other : String) :
    (filter.setIgnored type).2.isIgnored other = (other == type || filter.isIgnored other) :=
  contains_insertType type other filter.ignored

/-- A type is on the list behind one that is taken off it if it is another one and was there. -/
theorem isIgnored_unsetIgnored (filter : ExceptionFilter) (type other : String) :
    (filter.unsetIgnored type).2.isIgnored other = (other != type && filter.isIgnored other) := by
  rw [isIgnored, isIgnored, unsetIgnored, Bool.eq_iff_iff]
  simp [and_comm]

/-- The first count is that of its type. -/
theorem lookup_cons (type other : String) (count : Nat) (counts : List (String × Nat)) :
    ((type, count) :: counts).lookup other =
      if other = type then some count else counts.lookup other := by
  by_cases h : other = type
  · rw [if_pos h, h, List.lookup_cons_self]
  · rw [if_neg h, List.lookup_cons, beq_false_of_ne h]

/-- The count of a type is replaced, and no other one is. -/
theorem lookup_setCount (type other : String) (count : Nat) (counts : List (String × Nat)) :
    (setCount type count counts).lookup other =
      if other = type then some count else counts.lookup other := by
  induction counts with
  | nil => rw [setCount, lookup_cons]
  | cons first rest ih =>
    obtain ⟨name, n⟩ := first
    rw [setCount]
    split
    · next h =>
      rw [h, lookup_cons, lookup_cons]
      split <;> rfl
    · next h =>
      rw [lookup_cons, lookup_cons, ih]
      by_cases hname : other = name
      · rw [if_pos hname, if_pos hname, if_neg fun htype => h (hname.symm.trans htype)]
      · rw [if_neg hname, if_neg hname]

/-- A report leaves the list as it is. -/
theorem ignored_receive (filter : ExceptionFilter) (report : ExceptionReport) :
    (filter.receive report).2.ignored = filter.ignored := by
  rw [receive]
  split <;> rfl

/-- A report that is ignored is counted with its type. -/
theorem ignoredCount_receive (filter : ExceptionFilter) (report : ExceptionReport)
    (type : String) :
    (filter.receive report).2.ignoredCount type = filter.ignoredCount type +
      if report.type == type && filter.isIgnored type then 1 else 0 := by
  rw [receive]
  split
  · next h =>
    rw [ignoredCount, lookup_setCount]
    by_cases ht : type = report.type
    · subst ht
      simp [h]
    · simp [ht, Ne.symm ht, ignoredCount]
  · next h =>
    by_cases ht : report.type = type
    · subst ht
      simp [h, ignoredCount]
    · simp [ht, ignoredCount]

end ExceptionFilter

/-! ## What is told of exceptions -/

namespace Core

/-- The later knowledge has published events more, none of which tells of an exception. -/
def Withholds (core next : Core) : Prop :=
  ∃ events, core.Publishes next events ∧ ∀ event ∈ events, event.isDelivery = false

/-- Nothing is told where nothing happens. -/
theorem Withholds.refl (core : Core) : core.Withholds core :=
  ⟨[], .refl core, fun _ hm => absurd hm List.not_mem_nil⟩

/-- What is told in two parts is told. -/
theorem Withholds.trans {first second third : Core} (h : first.Withholds second)
    (h' : second.Withholds third) : first.Withholds third := by
  obtain ⟨front, hp, hfront⟩ := h
  obtain ⟨back, hp', hback⟩ := h'
  exact ⟨front ++ back, hp.trans hp', List.forall_mem_append.mpr ⟨hfront, hback⟩⟩

/-- Another event is published. -/
theorem withholds_emit (core : Core) {event : Event} (h : event.isDelivery = false) :
    core.Withholds (core.emit event) :=
  ⟨[event], core.publishes_emit event, List.forall_mem_singleton.mpr h⟩

/-- A move tells of no exception. -/
theorem withholds_moveTo (core : Core) (next : Option SessionState) :
    core.Withholds (core.moveTo next) := by
  refine ⟨_, core.publishes_moveTo next, fun event hm => ?_⟩
  obtain ⟨target, -, rfl⟩ := List.mem_map.mp hm
  rfl

/-- A written request tells of no exception. -/
theorem withholds_afterSent (core : Core) (request : Request) :
    core.Withholds (core.afterSent request) := by
  unfold afterSent
  dsimp only
  split
  · exact withholds_moveTo
      { core with lastStack := none, exceptions := core.exceptions.clearLast } _
  · exact core.withholds_moveTo _

/-- The loss of the connection tells of no exception. -/
theorem withholds_disconnect (core : Core) (loss : Loss) :
    core.Withholds (core.disconnect loss) := by
  unfold disconnect
  dsimp only
  split
  · exact .refl core
  · exact (withholds_moveTo { core with pending := [] } _).trans (withholds_emit _ rfl)

/-- A response that reports no exception tells of none. -/
theorem withholds_receiveResponse (core : Core) {response : Response}
    (h : response.exception? = none) : core.Withholds (core.receiveResponse response).2 := by
  have herror : ∀ key event, event.isDelivery = false →
      core.Withholds (core.receiveConditionError key event) := by
    intro key event he
    obtain ⟨registry, h | h⟩ := core.receiveConditionError_cases key event <;> rw [h]
    · exact .refl core
    · exact withholds_emit { core with registry } he
  cases response with
  | exception report => cases h
  | ok | eval | endOfTransmission => exact .refl core
  | breakConditionError file line => exact herror _ _ rfl
  | watchConditionError condition => exact herror _ _ rfl
  | _ => exact withholds_emit _ rfl

/-- A response behind its move tells of no exception if it reports none. -/
theorem withholds_respond (core : Core) {response : Response}
    (h : response.exception? = none) : core.Withholds (core.respond response).2 :=
  (core.withholds_moveTo _).trans (withholds_receiveResponse _ h)

/-- The event that tells of a report. -/
def delivery (core : Core) (report : ExceptionReport) : Event :=
  if core.exceptions.isIgnored report.type then
    .exceptionIgnored report.type (core.exceptions.ignoredCount report.type + 1)
  else .exception report.shown

/-- A report is told once, behind the move that it makes. -/
theorem publishes_respond_exception (core : Core) (report : ExceptionReport) :
    core.Publishes (core.respond (.exception report)).2
      (moved core.state (core.state.afterReceived .exception) ++ [core.delivery report]) := by
  have hreceived : ∀ core : Core, core.Publishes
      (core.receiveResponse (.exception report)).2 [core.delivery report] := by
    intro core
    rw [receiveResponse, receiveException, ExceptionFilter.receive, delivery]
    cases core.exceptions.isIgnored report.type with
    | true => exact publishes_emit { core with exceptions := _ } _
    | false => exact publishes_emit { core with exceptions := _ } _
  have hdelivery : (core.moveTo (core.state.afterReceived .exception)).delivery report =
      core.delivery report := by
    rw [delivery, delivery, (core.lastStop_moveTo (core.state.afterReceived .exception)).2]
  rw [← hdelivery]
  exact (core.publishes_moveTo _).trans (hreceived _)

/-! ## What is done to the ignore list -/

/-- The ignore list with what it has done behind a response. -/
def filtered (core : Core) (response : Response) : ExceptionFilter :=
  response.exception?.elim core.exceptions fun report => (core.exceptions.receive report).2

/-- Only a report of an exception concerns the ignore list. -/
theorem exceptions_respond (core : Core) (response : Response) :
    (core.respond response).2.exceptions = core.filtered response := by
  have hmove := (core.lastStop_moveTo (core.state.afterReceived response.word)).2
  have hreceived : ∀ core : Core,
      (core.receiveResponse response).2.exceptions = core.filtered response := by
    intro core
    have herror : ∀ key event,
        (core.receiveConditionError key event).exceptions = core.exceptions := by
      intro key event
      obtain ⟨registry, h | h⟩ := core.receiveConditionError_cases key event <;> rw [h]
      rfl
    cases response with
    | exception report =>
      rw [receiveResponse, receiveException, filtered, Response.exception?, Option.elim]
      cases core.exceptions.receive report with
      | mk delivery exceptions => cases delivery <;> rfl
    | breakConditionError file line => exact herror _ _
    | watchConditionError condition => exact herror _ _
    | _ => rfl
  unfold respond
  dsimp only
  rw [hreceived, filtered, filtered, hmove]

/-- A written request leaves the list and the counts alone. -/
theorem exceptions_afterSent (core : Core) (request : Request) :
    (core.afterSent request).exceptions.ignored = core.exceptions.ignored ∧
      (core.afterSent request).exceptions.counts = core.exceptions.counts := by
  unfold afterSent
  dsimp only
  split
  · have hmove := (lastStop_moveTo
      { core with lastStack := none, exceptions := core.exceptions.clearLast }
      (core.state.afterSent request.word)).2
    rw [hmove]
    exact ⟨rfl, rfl⟩
  · rw [(core.lastStop_moveTo _).2]
    exact ⟨rfl, rfl⟩

/-- A response leaves the list as it is. -/
theorem ignored_respond (core : Core) (response : Response) :
    (core.respond response).2.exceptions.ignored = core.exceptions.ignored := by
  rw [exceptions_respond, filtered]
  cases response.exception? with
  | none => rfl
  | some report => exact core.exceptions.ignored_receive report

end Core

namespace Session

namespace Step

/-- The exception that a step is told of. -/
def exception? (step : Step) : Option ExceptionReport := step.heard.bind Response.exception?

/-- The step is told of an exception of a type, which is ignored. -/
def ignores (type : String) (step : Step) : Bool :=
  step.exception?.any fun report =>
    report.type == type && step.before.core.exceptions.isIgnored type

variable {step : Step}

/-- A step that takes in no response is told of no exception. -/
theorem exception?_of_not_heard (h : step.heard = none) : step.exception? = none := by
  rw [exception?, h]
  rfl

/-- A step that is told of an exception tells of it, behind the move that this makes, and any other
step tells of none. -/
theorem published_cases (step : Step) :
    (∃ report, step.exception? = some report ∧
      step.before.core.Publishes step.after.core
        (Core.moved step.before.state (step.before.state.afterReceived .exception) ++
          [step.before.core.delivery report])) ∨
    step.exception? = none ∧ step.before.core.Withholds step.after.core := by
  cases step.effect with
  | keeps hm registry ignored hc =>
    refine .inr ⟨exception?_of_not_heard hm.heard, ?_⟩
    rw [hc]
    exact .refl step.before.core
  | writes request _ hh _ hc =>
    exact .inr ⟨exception?_of_not_heard hh, hc ▸ step.before.core.withholds_afterSent request⟩
  | hears response _ hh _ hc =>
    cases he : response.exception? with
    | none =>
      exact .inr ⟨by rw [exception?, hh]; exact he, hc ▸ step.before.core.withholds_respond he⟩
    | some report =>
      cases response with
      | exception heard =>
        exact .inl ⟨heard, by rw [exception?, hh]; rfl,
          hc ▸ step.before.core.publishes_respond_exception heard⟩
      | _ => cases he
  | outputs hm text hc =>
    exact .inr ⟨exception?_of_not_heard hm.heard, hc ▸ step.before.core.withholds_emit rfl⟩
  | loses hm loss hc =>
    exact .inr ⟨exception?_of_not_heard hm.heard, hc ▸ step.before.core.withholds_disconnect loss⟩

/-- What a step publishes comes behind what was published before it. -/
theorem publishes_published (step : Step) :
    step.before.core.Publishes step.after.core step.published := by
  rcases step.published_cases with ⟨report, -, hp⟩ | ⟨-, events, hp, -⟩ <;>
    rwa [published_eq hp]

/-- A step counts a report that is ignored, and no other step changes a count. -/
theorem ignoredCount_step (step : Step) (type : String) :
    step.after.core.exceptions.ignoredCount type =
      step.before.core.exceptions.ignoredCount type + if step.ignores type then 1 else 0 := by
  have hsame : step.heard = none →
      step.after.core.exceptions.counts = step.before.core.exceptions.counts →
        step.after.core.exceptions.ignoredCount type =
          step.before.core.exceptions.ignoredCount type + if step.ignores type then 1 else 0 := by
    intro hh hc
    rw [ignores, exception?_of_not_heard hh, ExceptionFilter.ignoredCount, hc]
    rfl
  cases step.effect with
  | keeps hm registry ignored hc => exact hsame hm.heard (by rw [hc])
  | writes request _ hh _ hc =>
    exact hsame hh (by rw [hc, (step.before.core.exceptions_afterSent request).2])
  | hears response _ hh _ hc =>
    rw [hc, Core.exceptions_respond, Core.filtered, ignores, exception?, hh, Option.bind_some]
    cases response.exception? with
    | none => rfl
    | some report => exact step.before.core.exceptions.ignoredCount_receive report type
  | outputs hm text hc => exact hsame hm.heard (by rw [hc]; rfl)
  | loses hm loss hc =>
    exact hsame hm.heard (by rw [hc, (step.before.core.lastStop_disconnect loss).2])

end Step

/-! ## Who changes the ignore list -/

/-- The ignore list of a session that loses its connection stays. -/
theorem ignored_lose (session : Session) (loss : Loss) :
    (session.lose loss).core.exceptions.ignored = session.core.exceptions.ignored := by
  rw [lose, (session.core.lastStop_disconnect loss).2]

/-- The ignore list of a session that has written a request stays. -/
theorem ignored_noteSent (now : Nat) (session : Session) (sink : Wire.Sink) (request : Request) :
    (session.noteSent now sink request).core.exceptions.ignored =
      session.core.exceptions.ignored :=
  (session.core.exceptions_afterSent request).1

/-- To take in a frame leaves the ignore list as it is. -/
theorem ignored_receive (now : Nat) (session : Session) :
    (session.receive now).core.exceptions.ignored = session.core.exceptions.ignored := by
  rcases receive_cases now session with ⟨_, h⟩ | ⟨_, loss, h⟩ | ⟨_, frame, _, core, -, hc, h⟩ |
    ⟨_, loss, h⟩ <;> rw [h]
  · exact ignored_lose _ loss
  · rcases session.core.receive_cases frame with ⟨_, response, -, -, hr⟩ | ⟨text, hr⟩ |
      ⟨fault, hr⟩ <;> rw [hc, Prod.mk.injEq] at hr <;> rw [hr.2]
    · exact session.core.ignored_respond response
    · rfl
  · exact ignored_lose _ loss

/-- To carry out a command leaves the ignore list as it is. -/
theorem ignored_runCommand (now : Nat) (session : Session) (command : Command) :
    (session.runCommand now command).core.exceptions.ignored =
      session.core.exceptions.ignored := by
  cases command with
  | shutdown =>
    rw [runCommand]
    rcases beginShutdown_cases now session with ⟨_, h⟩ | ⟨-, _, sink, _, -, -, h⟩ |
      ⟨-, _, _, _, -, h⟩ <;> rw [h]
    · exact ignored_noteSent now session sink .shutdown
    · rfl
  | send ticket request =>
    rcases runCommand_send_cases now session ticket request with ⟨-, _, -, h⟩ |
      ⟨-, _, sink, -, -, h⟩ | ⟨-, _, _, _, -, h⟩ <;> rw [h]
    · exact ignored_noteSent now session sink request
    · exact ignored_lose _ _

/-- To write a request that follows from what came in leaves the ignore list as it is. -/
theorem ignored_sendNextFollowUp (now : Nat) (session : Session) :
    (session.sendNextFollowUp now).core.exceptions.ignored =
      session.core.exceptions.ignored := by
  cases hf : session.followUps with
  | nil => rw [sendNextFollowUp, hf]
  | cons request rest =>
    rcases sendNextFollowUp_cases now hf with ⟨-, h⟩ | ⟨-, _, sink, -, -, h⟩ |
      ⟨-, _, _, _, -, h⟩ <;> rw [h]
    · exact ignored_noteSent now _ sink request
    · exact ignored_lose _ _

/-- To look at the timers leaves the ignore list as it is. -/
theorem ignored_checkTimers (now : Nat) (session : Session) :
    (session.checkTimers now).core.exceptions.ignored = session.core.exceptions.ignored := by
  obtain ⟨deadline, h | ⟨loss, h⟩ | ⟨-, _, sink, -, -, h⟩ | ⟨-, _, _, _, -, h⟩⟩ :=
    checkTimers_cases now session <;> rw [h]
  · exact ignored_lose _ loss
  · exact ignored_noteSent now _ sink .ping
  · exact ignored_lose _ _

/-- A phase that leaves the ignore list alone does so in any session. -/
theorem isIgnored_andThen {session : Session} {phase : Session → Session}
    (h : (phase session).core.exceptions.ignored = session.core.exceptions.ignored)
    (type : String) : (session.andThen phase).core.exceptions.isIgnored type =
      session.core.exceptions.isIgnored type := by
  rw [andThen]
  split
  · rfl
  · rw [ExceptionFilter.isIgnored, h, ExceptionFilter.isIgnored]

/-- Only the user changes the ignore list. -/
theorem isIgnored_perform (session : Session) (action : Action) (type : String) :
    (session.perform action).core.exceptions.isIgnored type =
      action.lists type (session.core.exceptions.isIgnored type) := by
  cases action with
  | setIgnored other => exact session.core.exceptions.isIgnored_setIgnored other type
  | unsetIgnored other => exact session.core.exceptions.isIgnored_unsetIgnored other type
  | receive now => exact isIgnored_andThen (ignored_receive now session) type
  | command now =>
    refine isIgnored_andThen ?_ type
    rw [runNextCommand]
    split
    · rfl
    · exact ignored_runCommand now _ _
  | followUp now => exact isIgnored_andThen (ignored_sendNextFollowUp now session) type
  | timers now => exact isIgnored_andThen (ignored_checkTimers now session) type
  | arrive | submit | askShutdown | setRegistry => rfl

/-! ## Runs -/

/-- The steps of a run perform its actions. -/
theorem map_action_steps (session : Session) (actions : List Action) :
    (steps session actions).map Step.action = actions := by
  induction actions generalizing session with
  | nil => rfl
  | cons action actions ih => rw [steps, List.map_cons, ih]

/-- A run publishes what its steps publish, one behind the other. -/
theorem publishes_run (session : Session) (actions : List Action) :
    session.core.Publishes (session.run actions).core
      ((steps session actions).flatMap Step.published) := by
  induction actions generalizing session with
  | nil => exact .refl session.core
  | cons action actions ih =>
    rw [run_cons, steps, List.flatMap_cons]
    exact (Step.publishes_published ⟨session, action⟩).trans (ih _)

/-- A run counts the reports of a type that are ignored. -/
theorem ignoredCount_run (session : Session) (actions : List Action) (type : String) :
    (session.run actions).core.exceptions.ignoredCount type =
      session.core.exceptions.ignoredCount type +
        (steps session actions).countP (Step.ignores type) := by
  induction actions generalizing session with
  | nil => rfl
  | cons action actions ih =>
    have hstep := Step.ignoredCount_step ⟨session, action⟩ type
    rw [run_cons, ih, steps, List.countP_cons, Nat.add_comm (List.countP _ _), ← Nat.add_assoc]
    exact congrArg (· + _) hstep

/-- The ignore list behind a run is what the user has made of it. -/
theorem isIgnored_run (session : Session) (actions : List Action) (type : String) :
    (session.run actions).core.exceptions.isIgnored type =
      actions.foldl (Action.lists type) (session.core.exceptions.isIgnored type) := by
  induction actions generalizing session with
  | nil => rfl
  | cons action actions ih => rw [run_cons, ih, isIgnored_perform, List.foldl_cons]

/-- What is kept behind steps was reported by one of them, since which nothing was reported and the
program was not resumed, or it was kept in front of such steps. -/
theorem keptBehind_eq_some_iff {α : Type} {report : Step → Option α}
    (hr : ∀ step, (report step).isSome = true → ¬ step.Resumes) {kept : Option α}
    {steps : List Step} {a : α} :
    keptBehind report kept steps = some a ↔
      (kept = some a ∧ ∀ later ∈ steps, ¬ later.Resumes ∧ report later = none) ∨
        ∃ front step back, steps = front ++ step :: back ∧ report step = some a ∧
          ∀ later ∈ back, ¬ later.Resumes ∧ report later = none := by
  induction steps generalizing kept with
  | nil => simp [keptBehind]
  | cons first steps ih =>
    have hfirst : first.keep (report first) kept = some a ↔
        report first = some a ∨
          kept = some a ∧ ¬ first.Resumes ∧ report first = none := by
      rw [Step.keep]
      by_cases hresumes : first.Resumes
      · have hnot : report first ≠ some a := fun h => hr first (by rw [h]; rfl) hresumes
        simp [hresumes, hnot]
      · simp [hresumes, Option.or_eq_some_iff, and_comm]
    rw [keptBehind, List.foldl_cons, ← keptBehind, ih, hfirst]
    constructor
    · rintro (⟨hreport | ⟨hkept, hquiet⟩, hrest⟩ | ⟨front, step, back, rfl, hstep⟩)
      · exact .inr ⟨[], first, steps, rfl, hreport, hrest⟩
      · exact .inl ⟨hkept, List.forall_mem_cons.mpr ⟨hquiet, hrest⟩⟩
      · exact .inr ⟨first :: front, step, back, rfl, hstep⟩
    · rintro (⟨hkept, hall⟩ | ⟨front, step, back, heq, hstep⟩)
      · obtain ⟨hquiet, hrest⟩ := List.forall_mem_cons.mp hall
        exact .inl ⟨.inr ⟨hkept, hquiet⟩, hrest⟩
      · rcases List.cons_eq_append_iff.mp heq with ⟨rfl, hcons⟩ | ⟨front, rfl, hsplit⟩
        · obtain ⟨rfl, rfl⟩ := List.cons.inj hcons
          exact .inl ⟨.inl hstep.1, hstep.2⟩
        · exact .inr ⟨front, step, back, hsplit, hstep⟩

namespace Step

variable {step : Step}

/-- A request that is written resumes the program if it moves the session from its stopped state to
its running one. -/
theorem resumes_iff_moves (step : Step) :
    step.Resumes ↔ step.before.state = .stopped ∧ step.after.state = .running := by
  constructor
  · intro h
    have hstopped : step.before.core.state = .stopped := h.state
    obtain ⟨request, hm, hword⟩ := h
    refine ⟨hstopped, ?_⟩
    rw [state, core_of_mem_wrote hm, Core.state_afterSent, hstopped, SessionState.afterSent,
      if_pos hword]
    rfl
  · rintro ⟨hstopped, hrunning⟩
    rcases state_of_stopped hstopped with h | h | h
    · rw [hrunning] at h
      cases h
    · exact h
    · rw [hrunning] at h
      cases h

/-- A step that is told of an exception takes in its report. -/
theorem heard_of_exception {report : ExceptionReport} (h : step.exception? = some report) :
    step.heard = some (.exception report) := by
  obtain ⟨response, hh, he⟩ := Option.bind_eq_some_iff.mp h
  cases response with
  | exception heard =>
    obtain rfl := Option.some.inj he
    exact hh
  | _ => cases he

/-- A step that is told of no exception shows none. -/
theorem report?_of_exception (h : step.exception? = none) : step.report? = none := by
  rw [report?]
  cases hh : step.heard with
  | none => rfl
  | some response =>
    rw [exception?, hh] at h
    cases response with
    | exception report => cases h
    | _ => rfl

/-- The report that a step shows is the one that it tells of. -/
theorem mem_published_iff (step : Step) (report : ExceptionReport) :
    .exception report ∈ step.published ↔ step.report? = some report := by
  rcases step.published_cases with ⟨heard, he, hp⟩ | ⟨he, events, hp, hnone⟩
  · have hmoved : .exception report ∉
        Core.moved step.before.state (step.before.state.afterReceived .exception) := by
      simp [Core.moved]
    rw [published_eq hp, List.mem_append, or_iff_right hmoved, List.mem_singleton, report?,
      heard_of_exception he, Option.bind_some, Core.shown?, Core.delivery]
    split <;> simp [eq_comm]
  · rw [published_eq hp, report?_of_exception he]
    refine ⟨fun hm => ?_, fun hnot => absurd hnot (Option.some_ne_none report).symm⟩
    cases hnone _ hm

/-- A step shows no report if it tells of none. -/
theorem forall_notMem_published_iff (step : Step) :
    (∀ report, .exception report ∉ step.published) ↔ step.report? = none := by
  simp only [mem_published_iff, Option.eq_none_iff_forall_ne_some, ne_eq]

/-- A message with the word of exceptions that reports none ends the session. -/
theorem ended_of_unread {message : Message} (hf : step.frame? = some (.message message))
    (hw : message.word = .exception) (he : step.exception? = none) : step.after.ended = true := by
  have hheard : step.heard = (Response.ofMessage message).toOption := by
    rw [heard, hf]
    rfl
  cases hr : Response.ofMessage message with
  | ok response =>
    have hword := Response.word_of_ofMessage hr
    rw [exception?, hheard, hr] at he
    rw [hw] at hword
    cases response with
    | exception report => cases he
    | _ => cases hword
  | error fault =>
    unfold frame? at hf
    split at hf
    · cases hf
    · next hworks =>
      split at hf
      · next now frame ha hp =>
        obtain rfl := Option.some.inj hf
        rw [after, ha, perform, andThen_of_not_ended (by simpa using hworks), receive]
        cases hpoll : step.before.reader.poll with
        | mk poll reader =>
          rw [hpoll] at hp
          dsimp only at hp ⊢
          rw [hp]
          dsimp only
          rw [step.before.core.receive_of_fault hr]
          rfl
      · cases hf

end Step

/-- A run delivers the exceptions that it is told of. -/
structure Delivers (session : Session) (actions : List Action) : Prop where
  /-- What the steps publish is told in their order, and nothing else is. -/
  events : (session.run actions).core.events.toList =
    (steps session actions).flatMap Step.published
  /-- A step that is told of an exception publishes one event that tells of it, behind the move that
  it makes. If the type is on the ignore list, the event says how many reports of the type have been
  ignored, and else it holds the report, whose stack is emptied if and only if the first frame is in
  an evaluated expression. -/
  told : ∀ front step back, steps session actions = front ++ step :: back →
    ∀ report, step.exception? = some report →
      step.published =
        Core.moved step.before.state (step.before.state.afterReceived .exception) ++
          [if step.before.core.exceptions.isIgnored report.type then
            .exceptionIgnored report.type (front.countP (Step.ignores report.type) + 1)
          else .exception { report with
            stack := if report.stack.head?.any (·.file == "<string>") then []
              else report.stack }]
  /-- No other step publishes an event that tells of an exception. -/
  untold : ∀ step ∈ steps session actions, step.exception? = none →
    ∀ event ∈ step.published, event.isDelivery = false
  /-- A message with the word of exceptions that reports none ends the session. -/
  unread : ∀ step ∈ steps session actions, ∀ message, step.frame? = some (.message message) →
    message.word = .exception → step.exception? = none → step.after.ended = true
  /-- The ignore list is what the session was made with and what the user has changed since. -/
  listed : ∀ front step back, steps session actions = front ++ step :: back → ∀ type,
    step.before.core.exceptions.isIgnored type =
      (front.map Step.action).foldl (Action.lists type)
        (session.config.ignoredExceptions.contains type)
  /-- The count of a type is the number of its reports that have been ignored. -/
  counted : ∀ type, (session.run actions).core.exceptions.ignoredCount type =
    (steps session actions).countP (Step.ignores type)
  /-- A step moves the session from its stopped state to its running one if and only if it writes a
  request that resumes the program. -/
  resumed : ∀ step ∈ steps session actions,
    (∃ request ∈ step.wrote, request.word.resumes = true) ↔
      step.before.state = .stopped ∧ step.after.state = .running
  /-- The report that is kept is the one that was shown last, if the program was not resumed
  since. -/
  kept : ∀ report, (session.run actions).core.exceptions.last = some report ↔
    ∃ front step back, steps session actions = front ++ step :: back ∧
      .exception report ∈ step.published ∧
        ∀ later ∈ back, ¬ (later.before.state = .stopped ∧ later.after.state = .running) ∧
          ∀ other, .exception other ∉ later.published

/-- Every run delivers the exceptions that it is told of. -/
theorem delivers_start (config : SessionConfig) (script : List Wire.WriteOutcome)
    (broken : Option Wire.IoFault) (actions : List Action) :
    Delivers (start config script broken) actions where
  events := publishes_run (start config script broken) actions
  told front step back heq report he := by
    obtain ⟨earlier, later, -, rfl, hbefore, -⟩ := steps_eq_append_cons heq
    have hcount := ignoredCount_run (start config script broken) earlier report.type
    have hnew : (start config script broken).core.exceptions.ignoredCount report.type = 0 := rfl
    rw [hnew, Nat.zero_add, ← hbefore] at hcount
    rcases step.published_cases with ⟨other, hother, hp⟩ | ⟨hnone, -⟩
    · obtain rfl := Option.some.inj (hother.symm.trans he)
      rw [Step.published_eq hp, Core.delivery, hcount, ExceptionReport.shown_eq]
    · rw [hnone] at he
      cases he
  untold step _ he := by
    rcases step.published_cases with ⟨report, hsome, -⟩ | ⟨-, events, hp, hnone⟩
    · rw [hsome] at he
      cases he
    · rwa [Step.published_eq hp]
  unread _ _ _ := Step.ended_of_unread
  listed front step back heq type := by
    obtain ⟨earlier, later, -, rfl, hbefore, -⟩ := steps_eq_append_cons heq
    have hnew : (start config script broken).core.exceptions.isIgnored type =
        config.ignoredExceptions.contains type :=
      ExceptionFilter.isIgnored_ofTypes config.ignoredExceptions type
    rw [hbefore, isIgnored_run, hnew, map_action_steps]
    rfl
  counted type := by
    rw [ignoredCount_run]
    exact Nat.zero_add _
  resumed step _ := step.resumes_iff_moves
  kept report := by
    have hkept := (lastStop_run (start config script broken) actions).2
    have hnew : (start config script broken).core.exceptions.last = none := rfl
    rw [hkept, hnew, keptBehind_eq_some_iff fun step h => Step.Reports.not_resumes (.inr h),
      or_iff_right (by simp)]
    simp only [Step.forall_notMem_published_iff, Step.resumes_iff_moves]
    simp only [Step.mem_published_iff]

end Session

end DebugLink
