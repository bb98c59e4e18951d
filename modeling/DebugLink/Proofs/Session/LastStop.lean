import DebugLink.Proofs.Session.Guarded
import DebugLink.Proofs.Session.Resync

/-!
# What is known of the last stop

A session keeps the stack that was reported last, and the exception that was shown last. A request
that resumes the program makes it forget both, and nothing else does. So what is kept is what has
been reported since the program was last resumed. A report that stops the program, or finds it
stopped, is about that stop, and is forgotten when the program runs on. But reports are kept in every
state: a stack that was asked for may come when the program runs again, and a report may come before
the program starts. These are the ways in which something is known of a stop while the program runs.
-/

namespace DebugLink

/-- The stack that a response reports. -/
def Response.stack? : Response → Option Stack
  | .stopped stack | .currentStack stack => some stack
  | _ => none

/-- A report as it is shown: without its stack if an evaluated expression raised it. -/
def ExceptionReport.shown (report : ExceptionReport) : ExceptionReport :=
  if report.raisedInEval then { report with stack := [] } else report

/-- The exception that a response shows. -/
def Core.shown? (core : Core) : Response → Option ExceptionReport
  | .exception report => if core.exceptions.isIgnored report.type then none else some report.shown
  | _ => none

namespace Core

/-- A move forgets no stop. -/
theorem lastStop_moveTo (core : Core) (next : Option SessionState) :
    (core.moveTo next).lastStack = core.lastStack ∧
      (core.moveTo next).exceptions = core.exceptions := by
  cases next <;> exact ⟨rfl, rfl⟩

/-- A response replaces what is kept of a stop by the stack that it reports, or by the exception that
it shows, if it does so. -/
theorem lastStop_receiveResponse (core : Core) (response : Response) :
    (core.receiveResponse response).2.lastStack = response.stack?.or core.lastStack ∧
      (core.receiveResponse response).2.exceptions.last =
        (core.shown? response).or core.exceptions.last := by
  have herror : ∀ key event,
      (core.receiveConditionError key event).lastStack = core.lastStack ∧
        (core.receiveConditionError key event).exceptions.last = core.exceptions.last := by
    intro key event
    obtain ⟨registry, h | h⟩ := core.receiveConditionError_cases key event <;> rw [h] <;>
      exact ⟨rfl, rfl⟩
  cases response with
  | exception report =>
    rw [receiveResponse, receiveException, ExceptionFilter.receive, shown?]
    cases core.exceptions.isIgnored report.type <;> exact ⟨rfl, rfl⟩
  | breakConditionError file line => exact herror _ _
  | watchConditionError condition => exact herror _ _
  | _ => exact ⟨rfl, rfl⟩

/-- What is kept of a stop behind a response. -/
theorem lastStop_respond (core : Core) (response : Response) :
    (core.respond response).2.lastStack = response.stack?.or core.lastStack ∧
      (core.respond response).2.exceptions.last =
        (core.shown? response).or core.exceptions.last := by
  obtain ⟨hstack, hexceptions⟩ :=
    core.lastStop_moveTo (core.state.afterReceived response.word)
  have hshown : (core.moveTo (core.state.afterReceived response.word)).shown? response =
      core.shown? response := by
    cases response with
    | exception report => rw [shown?, shown?, hexceptions]
    | _ => rfl
  have hreceived := lastStop_receiveResponse
    (core.moveTo (core.state.afterReceived response.word)) response
  rw [hstack, hshown, hexceptions] at hreceived
  unfold respond
  exact hreceived

/-- A written request forgets the stop if it moves the state to a running program. -/
theorem lastStop_afterSent (core : Core) (request : Request) :
    (core.afterSent request).lastStack =
        (if core.state.afterSent request.word = some .running then none else core.lastStack) ∧
      (core.afterSent request).exceptions.last =
        (if core.state.afterSent request.word = some .running then none
          else core.exceptions.last) := by
  unfold afterSent
  dsimp only
  split
  · obtain ⟨hstack, hexceptions⟩ := lastStop_moveTo
      { core with lastStack := none, exceptions := core.exceptions.clearLast }
      (core.state.afterSent request.word)
    exact ⟨hstack, congrArg ExceptionFilter.last hexceptions⟩
  · obtain ⟨hstack, hexceptions⟩ := core.lastStop_moveTo (core.state.afterSent request.word)
    exact ⟨hstack, congrArg ExceptionFilter.last hexceptions⟩

/-- The loss of the connection forgets no stop. -/
theorem lastStop_disconnect (core : Core) (loss : Loss) :
    (core.disconnect loss).lastStack = core.lastStack ∧
      (core.disconnect loss).exceptions = core.exceptions := by
  unfold disconnect
  dsimp only
  split
  · exact ⟨rfl, rfl⟩
  · exact lastStop_moveTo { core with pending := [] } _

end Core

namespace Session

/-! ## One step -/

namespace Step

/-- The stack that a step takes in. -/
def stack? (step : Step) : Option Stack := step.heard.bind Response.stack?

/-- The exception that a step takes in and shows. -/
def report? (step : Step) : Option ExceptionReport := step.heard.bind step.before.core.shown?

/-- The step takes in what is kept of a stop: a stack, or an exception that is shown. -/
def Reports (step : Step) : Prop := step.stack?.isSome = true ∨ step.report?.isSome = true

/-- What is kept behind a step that reports something, or nothing. -/
def keep {α : Type} (step : Step) (reported kept : Option α) : Option α :=
  if step.Resumes then none else reported.or kept

variable {step : Step}

/-- A step that writes nothing does not resume the program. -/
theorem not_resumes_of_wrote (h : step.wrote = []) : ¬ step.Resumes := by
  rintro ⟨request, hm, -⟩
  rw [h] at hm
  cases hm

/-- A step that takes in no response keeps what was kept, unless it resumes the program. -/
theorem keep_of_not_heard {α : Type} (hh : step.heard = none) (hr : ¬ step.Resumes)
    (report : Response → Option α) (kept : Option α) :
    step.keep (step.heard.bind report) kept = kept := by
  rw [keep, if_neg hr, hh]
  rfl

/-- A request that is written resumes the program if it moves the state to a running one. -/
theorem resumes_iff {request : Request} (h : step.Writes request) :
    step.Resumes ↔ step.before.core.state.afterSent request.word = some .running := by
  have hwrote := wrote_of_writes h
  constructor
  · intro hr
    have hstate : step.before.core.state = .stopped := hr.state
    obtain ⟨resuming, hm, hword⟩ := hr
    rw [hwrote, List.mem_singleton] at hm
    rw [hstate, SessionState.afterSent, ← hm, if_pos hword]
  · intro hn
    obtain ⟨-, -, hn⟩ | ⟨-, hword, -⟩ := SessionState.afterSent_eq_some hn
    · cases hn
    · exact ⟨request, by rw [hwrote]; exact List.mem_cons_self, hword⟩

/-- What is kept of a stop behind a step: what the step reports, or else what was kept, and nothing
if it resumes the program. -/
theorem lastStop_step (step : Step) :
    step.after.core.lastStack = step.keep step.stack? step.before.core.lastStack ∧
      step.after.core.exceptions.last =
        step.keep step.report? step.before.core.exceptions.last := by
  cases step.effect with
  | keeps hm registry ignored hc =>
    have hr := not_resumes_of_wrote hm.wrote
    rw [stack?, report?, keep_of_not_heard hm.heard hr, keep_of_not_heard hm.heard hr, hc]
    exact ⟨rfl, rfl⟩
  | writes request hw hh _ hc =>
    obtain ⟨hstack, hlast⟩ := step.before.core.lastStop_afterSent request
    rw [hc, hstack, hlast, stack?, report?, keep, keep, hh]
    exact ⟨if_congr (resumes_iff hw).symm rfl rfl, if_congr (resumes_iff hw).symm rfl rfl⟩
  | hears response hw hh _ hc =>
    have hr := not_resumes_of_wrote hw
    rw [hc, stack?, report?, keep, keep, if_neg hr, if_neg hr, hh]
    exact step.before.core.lastStop_respond response
  | outputs hm text hc =>
    have hr := not_resumes_of_wrote hm.wrote
    rw [stack?, report?, keep_of_not_heard hm.heard hr, keep_of_not_heard hm.heard hr, hc]
    exact ⟨rfl, rfl⟩
  | loses hm loss hc =>
    have hr := not_resumes_of_wrote hm.wrote
    obtain ⟨hstack, hexceptions⟩ := step.before.core.lastStop_disconnect loss
    rw [stack?, report?, keep_of_not_heard hm.heard hr, keep_of_not_heard hm.heard hr, hc, hstack,
      hexceptions]
    exact ⟨rfl, rfl⟩

/-- A step that reports something does not resume the program. -/
theorem Reports.not_resumes (h : step.Reports) : ¬ step.Resumes := by
  cases step.effect with
  | hears response hw => exact not_resumes_of_wrote hw
  | keeps hm | outputs hm | loses hm => exact not_resumes_of_wrote hm.wrote
  | writes request hw hh =>
    rw [Reports, stack?, report?, hh] at h
    rcases h with h | h <;> cases h

/-- A program that is stopped stays so, is resumed, or is over. -/
theorem state_of_stopped (h : step.before.state = .stopped) :
    step.after.state = .stopped ∨ step.Resumes ∨ step.after.state.isTerminal = true := by
  cases step.outcome with
  | quiet hq hm =>
    cases hm with
    | stays hs => exact .inl (hs.trans h)
    | received message hr hs =>
      obtain ⟨-, ⟨hn, -⟩ | ⟨hn, -⟩ | ⟨-, -, hb | hb⟩⟩ := SessionState.afterReceived_eq_some hs
      · exact .inr (.inr (by rw [hn]; rfl))
      · exact .inl hn
      · rw [h] at hb
        cases hb
      · rw [h] at hb
        cases hb
    | lost hn hs => exact .inr (.inr (by rw [hs]; rfl))
  | writes request hw =>
    cases hn : step.before.state.afterSent request.word with
    | none =>
      have hs := hw.state
      rw [hn] at hs
      exact .inl (hs.trans h)
    | some next =>
      obtain ⟨hidle, -⟩ | ⟨-, hword, -⟩ := SessionState.afterSent_eq_some hn
      · rw [h] at hidle
        cases hidle
      · exact .inr (.inl ⟨request, by rw [wrote_of_writes hw]; exact List.mem_cons_self, hword⟩)
  | tears request part ht =>
    rcases ht.ended with ⟨-, hs⟩ | hs
    · exact .inl (hs.trans h)
    · exact .inr (.inr (by rw [hs]; rfl))

end Step

/-! ## Runs -/

/-- What is kept behind steps that report something or nothing. -/
def keptBehind {α : Type} (report : Step → Option α) (kept : Option α) (steps : List Step) :
    Option α := steps.foldl (fun kept step => step.keep (report step) kept) kept

/-- What is kept of a stop behind a run is what its steps have left. -/
theorem lastStop_run (session : Session) (actions : List Action) :
    (session.run actions).core.lastStack =
        keptBehind Step.stack? session.core.lastStack (steps session actions) ∧
      (session.run actions).core.exceptions.last =
        keptBehind Step.report? session.core.exceptions.last (steps session actions) := by
  induction actions generalizing session with
  | nil => exact ⟨rfl, rfl⟩
  | cons action actions ih =>
    obtain ⟨hstack, hlast⟩ := Step.lastStop_step ⟨session, action⟩
    rw [run_cons, steps, keptBehind, keptBehind, List.foldl_cons, List.foldl_cons]
    dsimp only at hstack hlast
    rw [← hstack, ← hlast]
    exact ih _

/-- Nothing is kept behind steps if the program was resumed since something was kept, and since each
report. -/
theorem keptBehind_eq_none_iff {α : Type} {report : Step → Option α}
    (hr : ∀ step, (report step).isSome = true → ¬ step.Resumes) {kept : Option α}
    {steps : List Step} :
    keptBehind report kept steps = none ↔
      (kept.isSome = true → ∃ later ∈ steps, later.Resumes) ∧
        ∀ front step back, steps = front ++ step :: back → (report step).isSome = true →
          ∃ later ∈ back, later.Resumes := by
  induction steps generalizing kept with
  | nil => simp [keptBehind]
  | cons first steps ih =>
    have hfirst : (first.keep (report first) kept).isSome = true ↔
        ¬ first.Resumes ∧ ((report first).isSome = true ∨ kept.isSome = true) := by
      by_cases hresumes : first.Resumes
      · simp [Step.keep, hresumes]
      · simp [Step.keep, hresumes, Option.isSome_or]
    rw [keptBehind, List.foldl_cons, ← keptBehind, ih, hfirst]
    constructor
    · rintro ⟨hkept, hrest⟩
      refine ⟨fun hk => ?_, fun front step back heq hreport => ?_⟩
      · by_cases hresumes : first.Resumes
        · exact ⟨first, List.mem_cons_self, hresumes⟩
        · obtain ⟨later, hm, hl⟩ := hkept ⟨hresumes, .inr hk⟩
          exact ⟨later, List.mem_cons_of_mem _ hm, hl⟩
      · rcases List.cons_eq_append_iff.mp heq with ⟨rfl, hcons⟩ | ⟨front, rfl, hsplit⟩
        · obtain ⟨rfl, rfl⟩ := List.cons.inj hcons
          exact hkept ⟨hr _ hreport, .inl hreport⟩
        · exact hrest front step back hsplit hreport
    · rintro ⟨hkept, hall⟩
      refine ⟨fun ⟨hresumes, hk⟩ => ?_, fun front step back heq => ?_⟩
      · rcases hk with hreport | hk
        · exact hall [] first steps rfl hreport
        · obtain ⟨later, hm, hl⟩ := hkept hk
          rcases List.mem_cons.mp hm with rfl | hm
          · exact absurd hl hresumes
          · exact ⟨later, hm, hl⟩
      · exact hall (first :: front) step back (congrArg (first :: ·) heq)

/-- A run from a stopped program to a running one has a step that resumes it. -/
theorem exists_resumes {session : Session} {actions : List Action} (h : session.state = .stopped)
    (hs : (session.run actions).state = .running) :
    ∃ step ∈ steps session actions, step.Resumes := by
  induction actions generalizing session with
  | nil =>
    rw [run_nil, h] at hs
    cases hs
  | cons action actions ih =>
    have hbefore : (Step.mk session action).before.state = .stopped := h
    rcases Step.state_of_stopped hbefore with hnext | hresumes | hover
    · obtain ⟨step, hm, hstep⟩ := ih hnext hs
      exact ⟨step, List.mem_cons_of_mem _ hm, hstep⟩
    · exact ⟨_, List.mem_cons_self, hresumes⟩
    · obtain ⟨-, hend⟩ := forall_steps (P := fun session => session.state.isTerminal = true)
        (fun step ht => by rw [state_of_terminal ht]; exact ht) hover actions
      rw [run_cons] at hs
      rw [show ((Step.mk session action).after.run actions).state = _ from hs] at hend
      cases hend

/-- The session knows nothing of a stop. -/
def KnowsNoStop (session : Session) : Prop :=
  session.core.lastStack = none ∧ session.core.exceptions.last = none

instance : DecidablePred KnowsNoStop := fun session => inferInstanceAs (Decidable
  (session.core.lastStack = none ∧ session.core.exceptions.last = none))

/-- A session knows nothing of a stop behind a run if the program was resumed since each report. -/
theorem knowsNoStop_run_iff (config : SessionConfig) (script : List Wire.WriteOutcome)
    (broken : Option Wire.IoFault) (actions : List Action) :
    ((start config script broken).run actions).KnowsNoStop ↔
      ∀ front step back, steps (start config script broken) actions = front ++ step :: back →
        step.Reports → ∃ later ∈ back, later.Resumes := by
  obtain ⟨hstack, hlast⟩ := lastStop_run (start config script broken) actions
  have hnone : ∀ {α : Type}, (none : Option α).isSome = true →
      ∃ later ∈ steps (start config script broken) actions, later.Resumes := nofun
  rw [KnowsNoStop, hstack, hlast,
    keptBehind_eq_none_iff fun step h => Step.Reports.not_resumes (.inl h),
    keptBehind_eq_none_iff fun step h => Step.Reports.not_resumes (.inr h)]
  constructor
  · rintro ⟨⟨-, hs⟩, -, hr⟩ front step back heq hreport
    exact hreport.elim (hs front step back heq) (hr front step back heq)
  · intro h
    exact ⟨⟨hnone, fun front step back heq hreport => h front step back heq (.inl hreport)⟩,
      hnone, fun front step back heq hreport => h front step back heq (.inr hreport)⟩

/-- While the program runs, nothing is known of a stop, as long as the program was resumed since each
report that came while it was not stopped and has not stopped it. A report that is about a stop needs
no condition. -/
theorem knowsNoStop_iff_of_running {config : SessionConfig} {script : List Wire.WriteOutcome}
    {broken : Option Wire.IoFault} {actions : List Action}
    (h : ((start config script broken).run actions).state = .running) :
    ((start config script broken).run actions).KnowsNoStop ↔
      ∀ front step back, steps (start config script broken) actions = front ++ step :: back →
        step.Reports → step.after.state ≠ .stopped → ∃ later ∈ back, later.Resumes := by
  rw [knowsNoStop_run_iff]
  refine ⟨fun hall front step back heq hreport _ => hall front step back heq hreport,
    fun hall front step back heq hreport => ?_⟩
  by_cases hstopped : step.after.state = .stopped
  · obtain ⟨earlier, later, rfl, -, hbefore, rfl⟩ := steps_eq_append_cons heq
    rw [run_append, run_cons, ← hbefore] at h
    exact exists_resumes hstopped h
  · exact hall front step back heq hreport hstopped

/-- A program starts and stops. While it is stopped its stack is asked for and it is resumed, and the
stack comes only then. -/
def askedThenResumed : List Action :=
  [.arrive [.data (Text.Utf8.encode ">PassiveStartup<a.py|1\n>Line<[]\n")], .receive 0, .receive 0,
    .submit .currentStack, .submit (.resume false), .command 0, .command 0,
    .arrive [.data (Text.Utf8.encode ">CurrentStack<[]\n")], .receive 0]

/-- The program stops once more and is resumed. -/
def stoppedOnceMore : List Action :=
  askedThenResumed ++ [.arrive [.data (Text.Utf8.encode ">Line<[]\n")], .receive 0,
    .submit (.resume false), .command 0]

/-- The stack that has come while the program ran is forgotten when the program is resumed again. -/
theorem knowsNoStop_iff_stoppedOnceMore :
    ((start {} [] none).run stoppedOnceMore).state = .running ∧
      ((start {} [] none).run stoppedOnceMore).KnowsNoStop ∧
        ∀ front step back, steps (start {} [] none) stoppedOnceMore = front ++ step :: back →
          step.Reports → step.after.state ≠ .stopped → ∃ later ∈ back, later.Resumes := by
  have hs : ((start {} [] none).run stoppedOnceMore).state = .running := by decide +kernel
  have hn : ((start {} [] none).run stoppedOnceMore).KnowsNoStop := by decide +kernel
  exact ⟨hs, hn, (knowsNoStop_iff_of_running hs).mp hn⟩

/-- A stack that was asked for while the program was stopped is known while the program runs, if it
comes after the request that resumes the program. -/
theorem not_knowsNoStop_askedThenResumed :
    ((start {} [] none).run askedThenResumed).state = .running ∧
      ¬ ((start {} [] none).run askedThenResumed).KnowsNoStop :=
  ⟨by decide +kernel, by decide +kernel⟩

end Session

end DebugLink
