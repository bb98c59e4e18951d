import DebugLink.Proofs.Session.Rounds

/-!
# The end of the program

A program reports its end with a code. The report moves a session to its exited state if it is not
there, and is told and noted in any case. So a session is in that state as soon as one report was
taken in, the reports are told as they come, and the code that is kept is the one that came last. The
first report is final as long as no other one follows; all other frames leave the code alone.
-/

namespace DebugLink

/-- The code that an event tells that the program ended with. -/
def Event.exitCode? : Event → Option Int32
  | exited code => some code
  | _ => none

/-- The code that a response reports that the program ended with. -/
def Response.exitCode? : Response → Option Int32
  | exit code => some code
  | _ => none

namespace Core

/-- The codes that the program was told to have ended with. -/
def exitsTold (core : Core) : List Int32 := core.events.toList.filterMap Event.exitCode?

/-- An event that is published adds its code, if it tells one. -/
theorem exitsTold_emit (core : Core) (event : Event) :
    (core.emit event).exitsTold = core.exitsTold ++ event.exitCode?.toList := by
  rw [exitsTold, core.publishes_emit event, List.filterMap_append]
  cases hc : event.exitCode? <;> simp [exitsTold, hc]

/-- A move tells no code and keeps the one that is known. -/
theorem exits_moveTo (core : Core) (next : Option SessionState) :
    (core.moveTo next).exitsTold = core.exitsTold ∧
      (core.moveTo next).exitCode = core.exitCode := by
  cases next with
  | none => exact ⟨rfl, rfl⟩
  | some next =>
    have htold := exitsTold_emit { core with state := next } (.stateChanged core.state next)
    exact ⟨htold.trans (List.append_nil _), rfl⟩

/-- A written request tells no code and keeps the one that is known. -/
theorem exits_afterSent (core : Core) (request : Request) :
    (core.afterSent request).exitsTold = core.exitsTold ∧
      (core.afterSent request).exitCode = core.exitCode := by
  unfold afterSent
  dsimp only
  split
  · exact exits_moveTo { core with lastStack := none, exceptions := core.exceptions.clearLast } _
  · exact core.exits_moveTo _

/-- The loss of the connection tells no code and keeps the one that is known. -/
theorem exits_disconnect (core : Core) (loss : Loss) :
    (core.disconnect loss).exitsTold = core.exitsTold ∧
      (core.disconnect loss).exitCode = core.exitCode := by
  unfold disconnect
  dsimp only
  split
  · exact ⟨rfl, rfl⟩
  · next next _ =>
    obtain ⟨htold, hcode⟩ := exits_moveTo { core with pending := [] } (some next)
    rw [exitsTold_emit, htold]
    exact ⟨List.append_nil _, hcode⟩

/-- A response is told and noted if it reports the end of the program. -/
theorem exits_receiveResponse (core : Core) (response : Response) :
    (core.receiveResponse response).2.exitsTold = core.exitsTold ++ response.exitCode?.toList ∧
      (core.receiveResponse response).2.exitCode = response.exitCode?.or core.exitCode := by
  have hnone : core.exitsTold = core.exitsTold ++ [] := (List.append_nil _).symm
  have herror : ∀ key event, event.exitCode? = none →
      (core.receiveConditionError key event).exitsTold = core.exitsTold ++ [] ∧
        (core.receiveConditionError key event).exitCode = core.exitCode := by
    intro key event he
    obtain ⟨registry, h | h⟩ := core.receiveConditionError_cases key event <;> rw [h]
    · exact ⟨hnone, rfl⟩
    · rw [exitsTold_emit, he]
      exact ⟨rfl, rfl⟩
  cases response with
  | ok | eval | endOfTransmission => exact ⟨hnone, rfl⟩
  | exception report =>
    rw [receiveResponse, receiveException]
    cases core.exceptions.receive report with
    | mk delivery exceptions => cases delivery <;> exact ⟨exitsTold_emit _ _, rfl⟩
  | breakConditionError file line => exact herror _ _ rfl
  | watchConditionError condition => exact herror _ _ rfl
  | _ => exact ⟨exitsTold_emit _ _, rfl⟩

/-- A response behind its move is told and noted if it reports the end of the program. -/
theorem exits_respond (core : Core) (response : Response) :
    (core.respond response).2.exitsTold = core.exitsTold ++ response.exitCode?.toList ∧
      (core.respond response).2.exitCode = response.exitCode?.or core.exitCode := by
  obtain ⟨htold, hcode⟩ := core.exits_moveTo (core.state.afterReceived response.word)
  have hreceived := exits_receiveResponse
    (core.moveTo (core.state.afterReceived response.word)) response
  rw [htold, hcode] at hreceived
  unfold respond
  exact hreceived

end Core

namespace Session

/-! ## One step -/

namespace Step

/-- The code that a step is told that the program ended with. -/
def exit? (step : Step) : Option Int32 := step.heard.bind Response.exitCode?

variable {step : Step}

/-- A step that hears of the end tells and notes it, and no other step tells or changes a code. -/
theorem exits_step (step : Step) :
    step.after.core.exitsTold = step.before.core.exitsTold ++ step.exit?.toList ∧
      step.after.core.exitCode = step.exit?.or step.before.core.exitCode := by
  have hsame : step.heard = none → step.after.core.exitsTold = step.before.core.exitsTold →
      step.after.core.exitCode = step.before.core.exitCode →
        step.after.core.exitsTold = step.before.core.exitsTold ++ step.exit?.toList ∧
          step.after.core.exitCode = step.exit?.or step.before.core.exitCode := by
    intro hh htold hcode
    rw [exit?, hh, htold, hcode]
    exact ⟨(List.append_nil _).symm, rfl⟩
  cases step.effect with
  | keeps hm registry ignored hc => exact hsame hm.heard (by rw [hc]; rfl) (by rw [hc])
  | writes request _ hh _ hc =>
    obtain ⟨htold, hcode⟩ := step.before.core.exits_afterSent request
    exact hsame hh (by rw [hc, htold]) (by rw [hc, hcode])
  | hears response _ hh _ hc =>
    rw [hc, exit?, hh]
    exact step.before.core.exits_respond response
  | outputs hm text hc =>
    have htold := step.before.core.exitsTold_emit (.output text)
    exact hsame hm.heard (by rw [hc, htold]; exact List.append_nil _) (by rw [hc]; rfl)
  | loses hm loss hc =>
    obtain ⟨htold, hcode⟩ := step.before.core.exits_disconnect loss
    exact hsame hm.heard (by rw [hc, htold]) (by rw [hc, hcode])

/-- A session that has ended its work hears nothing. -/
theorem heard_of_ended (h : step.before.ended = true) : step.heard = none := by
  rw [heard, frame?, if_pos h]
  rfl

/-- A step that loses the connection of a session ends its work. -/
theorem ended_of_disconnected (hbefore : step.before.state ≠ .disconnected)
    (hs : step.after.state = .disconnected) : step.after.ended = true := by
  have hmove : ∀ next : Option SessionState, next ≠ some .disconnected →
      step.after.state = next.getD step.before.state → step.after.ended = true := by
    intro next hn heq
    cases next with
    | none => exact absurd (heq.symm.trans hs) hbefore
    | some next => exact absurd (congrArg some (heq.symm.trans hs)) hn
  cases step.effect with
  | keeps hm registry ignored hc => exact hmove none nofun (by rw [state, hc]; rfl)
  | writes request hw => exact hmove _ (SessionState.afterSent_ne_disconnected _ _) hw.state
  | hears response _ _ _ hc =>
    refine hmove _ (step.before.core.state.afterReceived_ne_disconnected response.word) ?_
    rw [state, hc]
    exact step.before.core.state_respond response
  | outputs hm text hc => exact hmove none nofun (by rw [state, hc]; rfl)
  | loses _ _ _ he => exact he

/-- A session that has lost its connection has ended its work, before and behind a step. -/
theorem ended_of_lost (step : Step)
    (h : step.before.state = .disconnected → step.before.ended = true)
    (hs : step.after.state = .disconnected) : step.after.ended = true := by
  by_cases hbefore : step.before.state = .disconnected
  · exact ended_step (h hbefore)
  · exact ended_of_disconnected hbefore hs

/-- A step that moves a session to its exited state hears of the end. -/
theorem exists_exit (hbefore : step.before.state ≠ .exited) (hs : step.after.state = .exited) :
    ∃ code, step.exit? = some code := by
  have hstays : step.after.state ≠ step.before.state := fun heq => hbefore (heq.symm.trans hs)
  cases step.effect with
  | hears response _ hh _ hc =>
    have hstate : step.after.state =
        (step.before.core.state.afterReceived response.word).getD step.before.core.state := by
      rw [state, hc]
      exact step.before.core.state_respond response
    cases hn : step.before.core.state.afterReceived response.word with
    | none =>
      rw [hn] at hstate
      exact absurd hstate hstays
    | some next =>
      rw [hn] at hstate
      have hexit : response.word = .exit := by
        obtain ⟨-, ⟨-, hword⟩ | ⟨hnext, -⟩ | ⟨hnext, -⟩⟩ := SessionState.afterReceived_eq_some hn
        · exact hword
        all_goals
          rw [hs, hnext] at hstate
          cases hstate
      cases response with
      | exit code => exact ⟨code, by rw [exit?, hh]; rfl⟩
      | _ => cases hexit
  | writes request hw =>
    cases hn : step.before.state.afterSent request.word with
    | none => exact absurd (by rw [hw.state, hn]; rfl) hstays
    | some next =>
      have hstate := hw.state
      rw [hn, hs] at hstate
      obtain ⟨-, -, hnext⟩ | ⟨-, -, hnext⟩ := SessionState.afterSent_eq_some hn <;>
        rw [hnext] at hstate <;> cases hstate
  | loses _ loss hc =>
    have hstate : step.after.state = step.before.state.afterLoss.getD step.before.state := by
      rw [state, hc]
      exact step.before.core.state_disconnect loss
    cases hn : step.before.state.afterLoss with
    | none => exact absurd (by rw [hstate, hn]; rfl) hstays
    | some next =>
      rw [hn, hs, (SessionState.afterLoss_eq_some hn).2] at hstate
      cases hstate
  | keeps hm registry ignored hc => exact absurd (by rw [state, hc]; rfl) hstays
  | outputs hm text hc => exact absurd (by rw [state, hc]; rfl) hstays

/-- A step that hears of the end leaves a session in its exited state. -/
theorem state_of_exit (h : step.before.state = .disconnected → step.before.ended = true)
    {code : Int32} (hexit : step.exit? = some code) : step.after.state = .exited := by
  obtain ⟨response, hh, hcode⟩ := Option.bind_eq_some_iff.mp hexit
  have hword : response.word = .exit := by
    cases response with
    | exit code => rfl
    | _ => cases hcode
  have hstate : step.after.state =
      (step.before.state.afterReceived .exit).getD step.before.state := by
    rw [state, (core_of_heard hh).2, ← hword]
    exact step.before.core.state_respond response
  cases ht : step.before.state.isTerminal with
  | false =>
    rw [SessionState.afterReceived_exit ht] at hstate
    exact hstate
  | true =>
    have hdisconnected : step.before.state ≠ .disconnected := fun hd => by
      rw [heard_of_ended (h hd)] at hh
      cases hh
    rw [state_of_terminal ht]
    cases hs : step.before.state with
    | exited => rfl
    | disconnected => exact absurd hs hdisconnected
    | _ =>
      rw [hs] at ht
      cases ht

/-- A session is in its exited state behind a step if it was so before, or if the step hears of the
end. -/
theorem exited_step (step : Step)
    (h : step.before.state = .disconnected → step.before.ended = true) :
    step.after.state = .exited ↔ step.before.state = .exited ∨ step.exit?.isSome = true := by
  constructor
  · intro hs
    by_cases hbefore : step.before.state = .exited
    · exact .inl hbefore
    · obtain ⟨code, hcode⟩ := exists_exit hbefore hs
      exact .inr (by rw [hcode]; rfl)
  · rintro (hs | hexit)
    · rw [state_of_terminal (by rw [hs]; rfl), hs]
    · obtain ⟨code, hcode⟩ := Option.isSome_iff_exists.mp hexit
      exact state_of_exit h hcode

end Step

/-! ## Runs -/

/-- The codes that steps are told that the program ended with. -/
def exitsHeard (steps : List Step) : List Int32 := steps.filterMap Step.exit?

/-- The first step is told its code first. -/
theorem exitsHeard_cons (step : Step) (steps : List Step) :
    exitsHeard (step :: steps) = step.exit?.toList ++ exitsHeard steps := by
  rw [exitsHeard, List.filterMap_cons]
  cases step.exit? <;> rfl

/-- The codes that a run tells and keeps are those that its steps are told. -/
theorem exits_run (session : Session) (actions : List Action) :
    (session.run actions).core.exitsTold =
        session.core.exitsTold ++ exitsHeard (steps session actions) ∧
      (session.run actions).core.exitCode =
        (exitsHeard (steps session actions)).getLast?.or session.core.exitCode := by
  induction actions generalizing session with
  | nil => exact ⟨(List.append_nil _).symm, rfl⟩
  | cons action actions ih =>
    obtain ⟨htold, hcode⟩ := Step.exits_step ⟨session, action⟩
    obtain ⟨ihtold, ihcode⟩ := ih (session.perform action)
    rw [Step.after] at htold hcode
    rw [run_cons, ihtold, ihcode, htold, hcode, steps, exitsHeard_cons, List.getLast?_append,
      List.append_assoc]
    refine ⟨rfl, ?_⟩
    rw [Option.or_assoc]
    cases (Step.mk session action).exit? <;> rfl

/-- A session is in its exited state behind a run if it was so before, or if a step hears of the
end. -/
theorem exited_run (session : Session)
    (h : session.state = .disconnected → session.ended = true) (actions : List Action) :
    (session.run actions).state = .exited ↔
      session.state = .exited ∨ exitsHeard (steps session actions) ≠ [] := by
  induction actions generalizing session with
  | nil => simp [steps, exitsHeard]
  | cons action actions ih =>
    have hstep : (session.perform action).state = .exited ↔
        session.state = .exited ∨ (Step.mk session action).exit?.isSome = true :=
      Step.exited_step ⟨session, action⟩ h
    have hrest := ih (session.perform action) (Step.ended_of_lost ⟨session, action⟩ h)
    rw [run_cons, hrest, hstep, steps, exitsHeard_cons]
    cases (Step.mk session action).exit? <;> simp

/-- A run tells of the end of its program, and keeps the code. -/
structure TellsExits (session : Session) (actions : List Action) : Prop where
  /-- Every report of the end that is taken in is told, in order, and nothing else is. -/
  told : (session.run actions).core.exitsTold = exitsHeard (steps session actions)
  /-- The code that is kept is the one that was reported last. -/
  kept : (session.run actions).core.exitCode = (exitsHeard (steps session actions)).getLast?
  /-- A session is in its exited state as soon as a report was taken in. -/
  exited : (session.run actions).state = .exited ↔ exitsHeard (steps session actions) ≠ []
  /-- The report that moves a session to its exited state is the first one, and it is final, in that it
  alone is told and its code is kept, if and only if no other report is taken in. -/
  final : ∀ front step back, steps session actions = front ++ step :: back →
    step.before.state ≠ .exited → step.after.state = .exited →
      ∃ code, step.exit? = some code ∧ exitsHeard front = [] ∧
        ((session.run actions).core.exitsTold = [code] ∧
            (session.run actions).core.exitCode = some code ↔ exitsHeard back = [])

/-- Every run tells of the end of its program, and keeps the code. -/
theorem tellsExits_start (config : SessionConfig) (script : List Wire.WriteOutcome)
    (broken : Option Wire.IoFault) (actions : List Action) :
    TellsExits (start config script broken) actions := by
  obtain ⟨htold, hkept⟩ := exits_run (start config script broken) actions
  have hidle : (start config script broken).state = .idle := rfl
  have hnone : (start config script broken).core.exitCode = none := rfl
  have hexited : ∀ actions, ((start config script broken).run actions).state = .exited ↔
      exitsHeard (steps (start config script broken) actions) ≠ [] := fun actions =>
    (exited_run _ (by rw [hidle]; exact nofun) actions).trans
      (or_iff_right (by rw [hidle]; exact nofun))
  rw [hnone, Option.or_none] at hkept
  refine ⟨htold, hkept, hexited actions, fun front step back heq hbefore hafter => ?_⟩
  obtain ⟨code, hcode⟩ := Step.exists_exit hbefore hafter
  obtain ⟨earlier, later, -, hfront, hstart, -⟩ := steps_eq_append_cons heq
  have hquiet : exitsHeard front = [] := by
    rw [hstart, ne_eq, hexited, not_not] at hbefore
    rw [hfront, hbefore]
  have hheard : exitsHeard (steps (start config script broken) actions) =
      code :: exitsHeard back := by
    rw [heq, exitsHeard, List.filterMap_append, ← exitsHeard, ← exitsHeard, hquiet,
      exitsHeard_cons, hcode]
    rfl
  refine ⟨code, hcode, hquiet, ?_⟩
  rw [htold, hkept, hheard]
  constructor
  · rintro ⟨hall, -⟩
    exact (List.cons.inj hall).2
  · intro hnil
    rw [hnil]
    exact ⟨rfl, rfl⟩

/-- A program starts and reports its end twice, with two codes. -/
def exitedTwice : List Action :=
  [.arrive [.data (Text.Utf8.encode ">PassiveStartup<a.py|1\n>Exit<3\n>Exit<4\n")], .receive 0,
    .receive 0, .receive 0]

/-- The second report is told as well, and its code is kept. -/
theorem not_final_exitedTwice :
    ((start {} [] none).run (exitedTwice.take 3)).state = .exited ∧
      ((start {} [] none).run (exitedTwice.take 3)).core.exitCode = some 3 ∧
        ((start {} [] none).run exitedTwice).core.exitsTold = [3, 4] ∧
          ((start {} [] none).run exitedTwice).core.exitCode = some 4 :=
  ⟨by decide +kernel, by decide +kernel, by decide +kernel, by decide +kernel⟩

end Session

end DebugLink
