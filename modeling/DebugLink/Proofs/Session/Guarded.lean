import DebugLink.Proofs.Session.Answers

/-!
# Writes are guarded

Requests come from the user, from what came in, and from the timers, and the state may have
moved since each of them was decided on. What counts is the state in which a request is
written. So a session that is over writes nothing, a program is asked for once, and what
needs a stopped program finds one. Two requests that make the program run have a stop
between them. A request of the user that is answered well was written once and whole; one that
was refused left no trace.
-/

namespace DebugLink.Session

/-- The step puts bytes of a request with a word on the wire. -/
def Step.Puts (step : Step) (word : Word) : Prop :=
  step.after.sink.accepted ≠ step.before.sink.accepted ∧
    ∃ request, step.offer? = some request ∧ request.word = word

/-- The step stops the program because of a line or an exception that was received. -/
structure Step.Stops (step : Step) : Prop where
  /-- The program was running. -/
  running : step.before.state = .running
  /-- The program is stopped. -/
  stopped : step.after.state = .stopped
  /-- A line or an exception has come. -/
  received : ∃ message, step.Receives message ∧
    (message.word = .line ∨ message.word = .exception)

/-- The writes of a run are guarded by the state in which they are done. -/
structure IsGuarded (session : Session) (actions : List Action) : Prop where
  /-- What reaches the wire in a step is the request to be written, whole or in part. -/
  outcome : ∀ step ∈ steps session actions,
    step.after.sink.accepted = step.before.sink.accepted ∨
      (∃ request, step.Writes request) ∨ ∃ request part, step.Tears request part
  /-- What reaches the wire is allowed by the state at that moment: the session is not over, a
  program is asked for in the idle state, and what needs a stopped program finds one. -/
  allowed : ∀ step ∈ steps session actions, ∀ word, step.Puts word →
    step.before.state ≠ .exited ∧ step.before.state ≠ .disconnected ∧
      (word = .load → step.before.state = .idle) ∧
        (word.requiresStopped = true → step.before.state = .stopped)
  /-- A program is asked for once. -/
  load_once : (steps session actions).Pairwise fun first second =>
    ¬ (first.Puts .load ∧ second.Puts .load)
  /-- What makes the program run is written while it is stopped, and makes it run. -/
  resumes : ∀ step ∈ steps session actions, ∀ request, step.Writes request →
    request.word.resumes = true → step.before.state = .stopped ∧ step.after.state = .running
  /-- Between two requests that make the program run, it was stopped by the debuggee. -/
  stopped_between : ∀ front first middle second back one other,
    steps session actions = front ++ first :: (middle ++ second :: back) →
      first.Writes one → one.word.resumes = true →
        second.Writes other → other.word.resumes = true → ∃ step ∈ middle, step.Stops
  /-- A request of the user that is answered well was carried out by one step, which put its
  bytes on the wire, and by no other. -/
  answered : ∀ front submitting back request,
    steps session actions = front ++ submitting :: back → submitting.action = .submit request →
      (session.run actions).reply submitting.before.tickets = .ok () →
        ∃ earlier handling later, steps session actions = earlier ++ handling :: later ∧
          handling.Handles submitting.before.tickets request ∧ handling.Writes request ∧
            ∀ step ∈ earlier ++ later, ∀ request,
              ¬ step.Handles submitting.before.tickets request
  /-- A request of the user that is refused put no byte on the wire when it was carried out, and
  changed neither the state nor the requests that wait for a reply. -/
  refused : ∀ ticket error, (session.run actions).reply ticket = .error error →
    error.isRefusal = true → ∀ step ∈ steps session actions, ∀ request,
      step.Handles ticket request →
        step.after.sink.accepted = step.before.sink.accepted ∧
          step.after.state = step.before.state ∧
            step.after.core.pending = step.before.core.pending

/-! ## The states of a run -/

/-- Where a step puts bytes on the wire, the state admits the request. -/
theorem admits_of_puts {step : Step} {word : Word} (h : step.Puts word) :
    step.before.Admits word := by
  obtain ⟨hne, request, ho, rfl⟩ := h
  cases step.outcome with
  | quiet hq hm => exact absurd hq.accepted hne
  | writes other hw =>
    have heq := ho.symm.trans hw.offered
    rw [Option.some.inj heq]
    exact hw.admits
  | tears other part ht =>
    have heq := ho.symm.trans ht.offered
    rw [Option.some.inj heq]
    exact ht.admits

/-- No step leads back to the idle state. -/
theorem state_ne_idle {step : Step} (h : step.before.state ≠ .idle) :
    step.after.state ≠ .idle := by
  cases step.outcome with
  | quiet hq hm =>
    cases hm with
    | stays hs => rwa [hs]
    | received message hr hs =>
      obtain ⟨-, ⟨hn, -⟩ | ⟨hn, -⟩ | ⟨hn, -⟩⟩ := SessionState.afterReceived_eq_some hs <;>
        rw [hn] <;> decide
    | lost hn hs =>
      rw [hs]
      decide
  | writes request hw =>
    rw [hw.state]
    cases hn : step.before.state.afterSent request.word with
    | none => exact h
    | some next =>
      obtain ⟨-, -, rfl⟩ | ⟨-, -, rfl⟩ := SessionState.afterSent_eq_some hn <;> simp
  | tears request part ht =>
    rcases ht.ended with ⟨-, hs⟩ | hs
    · rwa [hs]
    · rw [hs]
      decide

/-- A step that asks for a program leaves the idle state. -/
theorem state_ne_idle_of_puts_load {step : Step} (h : step.Puts .load) :
    step.after.state ≠ .idle := by
  have hidle := SessionState.eq_idle_of_allows (admits_of_puts h).allows
  obtain ⟨hne, request, ho, hword⟩ := h
  cases step.outcome with
  | quiet hq hm => exact absurd hq.accepted hne
  | writes other hw =>
    obtain rfl := Option.some.inj (ho.symm.trans hw.offered)
    rw [hw.state, hidle, hword]
    decide
  | tears other part ht =>
    obtain rfl := Option.some.inj (ho.symm.trans ht.offered)
    rcases ht.ended with ⟨rfl, -⟩ | hs
    · cases hword
    · rw [hs]
      decide

/-- A program is asked for once in every run. -/
theorem pairwise_load (session : Session) (actions : List Action) :
    (steps session actions).Pairwise fun first second =>
      ¬ (first.Puts .load ∧ second.Puts .load) := by
  induction actions generalizing session with
  | nil => exact .nil
  | cons action actions ih =>
    refine List.pairwise_cons.mpr ⟨fun second hs ⟨hfirst, hsecond⟩ => ?_, ih _⟩
    have hleft := state_ne_idle_of_puts_load hfirst
    obtain ⟨hsteps, -⟩ := forall_steps (P := fun session => session.state ≠ .idle)
      (fun step h => state_ne_idle h) hleft actions
    exact hsteps second hs (SessionState.eq_idle_of_allows (admits_of_puts hsecond).allows)

/-- What makes the program run is written while it is stopped, and makes it run. -/
theorem state_of_resumes {step : Step} {request : Request} (h : step.Writes request)
    (hr : request.word.resumes = true) :
    step.before.state = .stopped ∧ step.after.state = .running := by
  have hs := SessionState.eq_stopped_of_allows h.admits.allows
    (SessionState.requiresStopped_of_resumes hr)
  refine ⟨hs, ?_⟩
  rw [h.state, hs, SessionState.afterSent, if_pos hr]
  rfl

/-- A running program goes on running, is stopped by the debuggee, or is over. -/
theorem step_of_running (step : Step) (h : step.before.state = .running) :
    step.after.state = .running ∨ step.Stops ∨ step.after.state.isTerminal = true := by
  cases step.outcome with
  | quiet hq hm =>
    cases hm with
    | stays hs => exact .inl (hs.trans h)
    | received message hr hs =>
      obtain ⟨-, ⟨hn, -⟩ | ⟨hn, hword, -⟩ | ⟨hn, -, hb⟩⟩ := SessionState.afterReceived_eq_some hs
      · exact .inr (.inr (by rw [hn]; rfl))
      · exact .inr (.inl ⟨h, hn, message, hr, hword⟩)
      · exact .inl hn
    | lost hn hs => exact .inr (.inr (by rw [hs]; rfl))
  | writes request hw =>
    refine .inl ?_
    rw [hw.state, h]
    rfl
  | tears request part ht =>
    rcases ht.ended with ⟨-, hs⟩ | hs
    · exact .inl (hs.trans h)
    · exact .inr (.inr (by rw [hs]; rfl))

/-- A run from a running program to a stopped one has a step that stops it. -/
theorem exists_stops {session : Session} {actions : List Action} (h : session.state = .running)
    (hs : (session.run actions).state = .stopped) :
    ∃ step ∈ steps session actions, step.Stops := by
  induction actions generalizing session with
  | nil =>
    rw [run_nil, h] at hs
    cases hs
  | cons action actions ih =>
    rcases step_of_running ⟨session, action⟩ h with hnext | hstops | hover
    · obtain ⟨step, hm, hstep⟩ := ih hnext hs
      exact ⟨step, List.mem_cons_of_mem _ hm, hstep⟩
    · exact ⟨_, List.mem_cons_self, hstops⟩
    · obtain ⟨-, hend⟩ := forall_steps (P := fun session => session.state.isTerminal = true)
        (fun step ht => by rw [state_of_terminal ht]; exact ht) hover actions
      rw [run_cons] at hs
      rw [show ((Step.mk session action).after.run actions).state = _ from hs] at hend
      cases hend

/-! ## The requests of the user -/

/-- In front of every step of a run, no more tickets have been given out than behind the run. -/
theorem tickets_le_run (session : Session) (actions : List Action) :
    session.tickets ≤ (session.run actions).tickets ∧
      ∀ step ∈ steps session actions, step.before.tickets ≤ (session.run actions).tickets := by
  induction actions generalizing session with
  | nil => exact ⟨Nat.le_refl _, fun _ hm => absurd hm List.not_mem_nil⟩
  | cons action actions ih =>
    obtain ⟨hle, hsteps⟩ := ih (session.perform action)
    have hfirst := Nat.le_trans (tickets_le_step ⟨session, action⟩) hle
    exact ⟨hfirst, List.forall_mem_cons.mpr ⟨hfirst, hsteps⟩⟩

/-- All sessions of a run from a new one are numbered. -/
theorem isNumbered_run {session : Session} (h : session.IsNumbered) (actions : List Action) :
    (∀ step ∈ steps session actions, step.before.IsNumbered) ∧
      (session.run actions).IsNumbered :=
  forall_steps (fun step => isNumbered_step step) h actions

/-- No step carries out a request whose ticket is only given out later. -/
theorem not_handles_before {session : Session} (h : session.IsNumbered) (actions : List Action) :
    ∀ step ∈ steps session actions, ∀ request,
      ¬ step.Handles (session.run actions).tickets request := fun step hm request hh => by
  have hlt := lt_of_mem_waiting ((isNumbered_run h actions).1 step hm) hh.mem_waiting
  have hle := (tickets_le_run session actions).2 step hm
  omega

/-- A ticket stands for the request that it was given out for. -/
theorem request_eq_of_handles {session : Session} (h : session.IsNumbered) {request : Request}
    {actions : List Action} {step : Step}
    (hm : step ∈ steps (session.perform (.submit request)) actions) {asked : Request}
    (hh : step.Handles session.tickets asked) : asked = request := by
  obtain ⟨hsteps, -⟩ := forall_steps (P := fun next => session.tickets < next.tickets ∧
    ∀ other, (session.tickets, other) ∈ next.waiting → other = request)
    (fun step => waiting_step)
    ⟨Nat.lt_succ_self _, fun _ => eq_of_mem_waiting_submit h⟩ actions
  exact (hsteps step hm).2 asked hh.mem_waiting

/-- A good answer has been filed. -/
theorem lookup_of_reply {session : Session} {ticket : Nat}
    (h : session.reply ticket = .ok ()) : session.replies.lookup ticket = some (.ok ()) := by
  rw [reply] at h
  cases hl : session.replies.lookup ticket with
  | none =>
    rw [hl] at h
    cases h
  | some result =>
    rw [hl] at h
    exact congrArg some h

/-- A request that is answered well was carried out by one step, which wrote it. -/
theorem exists_handles {session : Session} (h : session.IsNumbered) {actions : List Action}
    {front back : List Step} {submitting : Step} {request : Request}
    (hsteps : steps session actions = front ++ submitting :: back)
    (ha : submitting.action = .submit request)
    (hr : (session.run actions).reply submitting.before.tickets = .ok ()) :
    ∃ earlier handling later, steps session actions = earlier ++ handling :: later ∧
      handling.Handles submitting.before.tickets request ∧ handling.Writes request ∧
        ∀ step ∈ earlier ++ later, ∀ request,
          ¬ step.Handles submitting.before.tickets request := by
  obtain ⟨before, later, rfl, rfl, hbefore, rfl⟩ := steps_eq_append_cons hsteps
  obtain ⟨session', action⟩ := submitting
  obtain rfl : action = .submit request := ha
  obtain rfl : session' = session.run before := hbefore
  have hnumbered := (isNumbered_run h before).2
  have hafter := isNumbered_step ⟨session.run before, .submit request⟩ hnumbered
  rw [run_append] at hr
  obtain ⟨earlier, handling, rest, asked, hs, hh, hanswers, hothers⟩ :=
    lookup_run hafter later (lookup_of_reply hr) (lookup_eq_none hnumbered)
  have hmem : handling ∈ steps ((session.run before).perform (.submit request)) later :=
    hs ▸ List.mem_append_right _ List.mem_cons_self
  obtain rfl := request_eq_of_handles hnumbered hmem hh
  refine ⟨steps session before ++ ⟨session.run before, .submit asked⟩ :: earlier, handling, rest,
    ?_, hh, hanswers.writes rfl, ?_⟩
  · rw [hsteps, hs, List.append_assoc, List.cons_append]
  · intro step hm other
    rw [List.append_assoc, List.cons_append, List.mem_append, List.mem_cons] at hm
    rcases hm with hm | rfl | hm
    · exact not_handles_before h before step hm other
    · exact Step.not_handles_of_action (fun now => by simp) _ other
    · exact hothers step hm other

/-- The step that carried out a refused request left no trace. -/
theorem unchanged_of_refused {session : Session} (h : session.IsNumbered)
    {actions : List Action} {ticket : Nat} {error : SessionError}
    (hr : (session.run actions).reply ticket = .error error) (he : error.isRefusal = true)
    {step : Step} (hm : step ∈ steps session actions) {request : Request}
    (hh : step.Handles ticket request) :
    step.after.sink.accepted = step.before.sink.accepted ∧
      step.after.state = step.before.state ∧
        step.after.core.pending = step.before.core.pending := by
  obtain ⟨front, back, hs⟩ := List.append_of_mem hm
  obtain ⟨before, later, rfl, -, hbefore, -⟩ := steps_eq_append_cons hs
  have hnumbered := (isNumbered_run h before).2
  rw [← hbefore] at hnumbered
  obtain ⟨result, hfound, ha⟩ := lookup_run_of_handles hnumbered hh later
  rw [run_append, run_cons, ← hbefore, reply,
    show (step.before.perform step.action).run later = step.after.run later from rfl,
    hfound] at hr
  exact ha.refused error hr he

/-! ## All runs -/

/-- In every run of a session, whatever the user asks for, whatever comes from the debuggee and
however writes go, the writes are guarded. -/
theorem isGuarded_start (config : SessionConfig) (script : List Wire.WriteOutcome)
    (broken : Option Wire.IoFault) (actions : List Action) :
    IsGuarded (start config script broken) actions where
  outcome step _ := by
    cases step.outcome with
    | quiet hq hm => exact .inl hq.accepted
    | writes request hw => exact .inr (.inl ⟨request, hw⟩)
    | tears request part ht => exact .inr (.inr ⟨request, part, ht⟩)
  allowed step _ word hp := by
    obtain ⟨hn, ha⟩ := admits_of_puts hp
    refine ⟨fun hs => ?_, fun hs => ?_, fun hl => ?_, SessionState.eq_stopped_of_allows ha⟩
    · rw [hs] at hn
      cases hn
    · rw [hs] at hn
      cases hn
    · subst hl
      exact SessionState.eq_idle_of_allows ha
  load_once := pairwise_load _ actions
  resumes step _ request := state_of_resumes
  stopped_between front first middle second back one other hs hone hresumes hother hresumes' := by
    obtain ⟨-, later, -, -, -, hlater⟩ := steps_eq_append_cons hs
    obtain ⟨between, _, rfl, rfl, hbefore, -⟩ := steps_eq_append_cons hlater.symm
    refine exists_stops (state_of_resumes hone hresumes).2 ?_
    rw [← hbefore]
    exact (state_of_resumes hother hresumes').1
  answered front submitting back request hs ha hr :=
    exists_handles (isNumbered_start config script broken) hs ha hr
  refused ticket error hr he step hm request hh :=
    unchanged_of_refused (isNumbered_start config script broken) hr he hm hh

end DebugLink.Session
