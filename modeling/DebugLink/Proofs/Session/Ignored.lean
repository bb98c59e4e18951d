import DebugLink.Proofs.Session.Rounds

/-!
# Exceptions on the ignore list

An exception on the ignore list stops the program, and the session resumes it by itself. It decides
so by the state that it is in once the exception has been taken in, not by what the exception has
changed. So an ignored exception that comes while the program is stopped already, as from an
expression that is evaluated, resumes a stop that it has not caused. Any other exception keeps the
stop. As long as no ignored exception comes to a stopped program, each request by which the session
resumes the program by itself ends the stop of the exception that it follows from.
-/

namespace DebugLink

namespace Core

/-- Whether a response is an exception on the ignore list. -/
def ignores (core : Core) : Response → Bool
  | .exception report => core.exceptions.isIgnored report.type
  | _ => false

/-- A response resumes the program by itself if it is an exception on the ignore list, once the
program is stopped. -/
theorem resumesOn_eq (core : Core) (response : Response) :
    core.resumesOn response = (core.ignores response && core.state == .stopped) := by
  cases response <;> rfl

/-- A move leaves the ignore list as it is. -/
theorem ignores_moveTo (core : Core) (next : Option SessionState) (response : Response) :
    (core.moveTo next).ignores response = core.ignores response := by
  cases next <;> rfl

/-- What follows from a response resumes the program if the response is an exception on the ignore
list that finds the program stopped, or stops it. -/
theorem exists_resumes_respond_iff (core : Core) (response : Response) :
    (∃ request ∈ (core.respond response).1, request.word.resumes = true) ↔
      core.ignores response = true ∧ (core.respond response).2.state = .stopped := by
  have hsync : ∀ request ∈ (if core.state.isStart (core.state.afterReceived response.word) then
      (core.respond response).2.registry.syncRequests else []), request.word.resumes = false := by
    intro request hm
    split at hm
    · exact (Request.word_of_point? (Registry.point?_of_mem_syncRequests hm)).2.2
    · cases hm
  rw [fst_respond, resumesOn_eq, ignores_moveTo, state_moveTo, state_respond]
  cases hr : core.ignores response && (core.state.afterReceived response.word).getD core.state ==
      .stopped with
  | true =>
    rw [Bool.and_eq_true, beq_iff_eq] at hr
    exact ⟨fun _ => hr, fun _ => ⟨.resume false, List.mem_cons_self, rfl⟩⟩
  | false =>
    rw [if_neg Bool.false_ne_true, List.nil_append]
    refine ⟨fun ⟨request, hm, hresumes⟩ => ?_, fun h => ?_⟩
    · rw [hsync request hm] at hresumes
      cases hresumes
    · rw [h.1, h.2] at hr
      cases hr

/-- Taking in a message leaves the program stopped, and nothing follows that resumes it. -/
def KeepsStop (core : Core) (message : Message) : Prop :=
  ∃ requests, (core.receive (.message message)).1 = .ok requests ∧
    (core.receive (.message message)).2.state = .stopped ∧
      ∀ request ∈ requests, request.word.resumes = false

end Core

namespace Session

/-- While the program is stopped, an expression is evaluated, and exceptions of one type are
ignored. -/
def evaluating : Session :=
  (start { ignoredExceptions := ["StopIteration"] } [] none).run
    [.arrive [.data (Text.Utf8.encode ">PassiveStartup<a.py|1\n>Line<[]\n")], .receive 0,
      .receive 0, .submit (.eval 0 "next(it)"), .command 0]

/-- An exception that the evaluated expression raises. -/
def raised (type : String) : ExceptionReport :=
  { type, stack := [{ file := "<string>", line := 1, function := "<module>" }] }

/-- The message that reports the exception. -/
def raisedMessage (type : String) : Message where
  word := .exception
  payload := "\x7b\"type\":\"" ++ type ++ "\",\"stack\":[\x7b\"file\":\"<string>\"," ++
    "\"line\":1,\"function\":\"<module>\"\x7d]\x7d"

end Session

open Session (evaluating raised raisedMessage)

namespace Core

/-- An exception that comes while the program is stopped keeps the stop, wherever it was raised,
unless it is on the ignore list. -/
theorem keepsStop_iff {core : Core} {message : Message} {report : ExceptionReport}
    (hs : core.state = .stopped) (hm : Response.ofMessage message = .ok (.exception report)) :
    core.KeepsStop message ↔ core.exceptions.isIgnored report.type = false := by
  have hstate : (core.respond (.exception report)).2.state = .stopped := by
    rw [state_respond, hs]
    rfl
  have hresumes := core.exists_resumes_respond_iff (.exception report)
  rw [KeepsStop, receive_of_response core hm]
  refine ⟨fun ⟨requests, hok, _, hnone⟩ => ?_, fun hi => ⟨_, rfl, hstate, fun request hm => ?_⟩⟩
  · obtain rfl := Except.ok.inj hok
    by_contra hi
    obtain ⟨request, hm, hr⟩ := hresumes.mpr ⟨Bool.of_not_eq_false hi, hstate⟩
    rw [hnone request hm] at hr
    cases hr
  · by_contra hr
    have hignored := (hresumes.mp ⟨request, hm, Bool.of_not_eq_false hr⟩).1
    rw [ignores, hi] at hignored
    cases hignored

/-- An exception of another type that an evaluated expression raises keeps the stop. -/
theorem keepsStop_raised :
    evaluating.core.state = .stopped ∧
      Response.ofMessage (raisedMessage "ValueError") = .ok (.exception (raised "ValueError")) ∧
        evaluating.core.exceptions.isIgnored "ValueError" = false ∧
          evaluating.core.KeepsStop (raisedMessage "ValueError") := by
  have hs : evaluating.core.state = .stopped := by decide +kernel
  have hm : Response.ofMessage (raisedMessage "ValueError") =
      .ok (.exception (raised "ValueError")) := by decide +kernel
  have hi : evaluating.core.exceptions.isIgnored "ValueError" = false := by decide +kernel
  exact ⟨hs, hm, hi, (keepsStop_iff hs hm).mpr hi⟩

/-- An ignored exception that an evaluated expression raises resumes the stop of the user, which it
has not caused. -/
theorem not_keepsStop_raised :
    evaluating.core.state = .stopped ∧
      Response.ofMessage (raisedMessage "StopIteration") =
          .ok (.exception (raised "StopIteration")) ∧
        ¬ evaluating.core.KeepsStop (raisedMessage "StopIteration") := by
  have hm : Response.ofMessage (raisedMessage "StopIteration") =
      .ok (.exception (raised "StopIteration")) := by decide +kernel
  have hresumes : (evaluating.core.respond (.exception (raised "StopIteration"))).1 =
      [.resume false] := by decide +kernel
  refine ⟨by decide +kernel, hm, fun ⟨requests, hok, _, hnone⟩ => ?_⟩
  rw [receive_of_response _ hm, hresumes] at hok
  obtain rfl := Except.ok.inj hok
  exact absurd (hnone _ List.mem_cons_self) (by decide)

end Core

namespace Session

/-! ## Whole runs -/

namespace Step

/-- The step takes in an exception on the ignore list. -/
def HearsIgnored (step : Step) : Prop :=
  ∃ response ∈ step.heard, step.before.core.ignores response = true

/-- The step writes a request that resumes the program. -/
def Resumes (step : Step) : Prop := ∃ request ∈ step.wrote, request.word.resumes = true

variable {step : Step}

/-- A program stops only by a frame that is taken in. -/
theorem stopped_before (ha : ∀ now, step.action ≠ .receive now)
    (h : step.after.state = .stopped) : step.before.state = .stopped := by
  cases step.outcome with
  | quiet hq hm =>
    cases hm with
    | stays hs => rwa [← hs]
    | received message hr hs =>
      obtain ⟨now, hn⟩ := hr.action
      exact absurd hn (ha now)
    | lost hn hs =>
      rw [h] at hs
      cases hs
  | writes request hw =>
    have hs := hw.state
    cases hn : step.before.state.afterSent request.word with
    | none =>
      rw [hn] at hs
      exact hs.symm.trans h
    | some next =>
      rw [hn, h] at hs
      obtain ⟨-, -, rfl⟩ | ⟨-, -, rfl⟩ := SessionState.afterSent_eq_some hn <;> cases hs
  | tears request part ht =>
    rcases ht.ended with ⟨-, hs⟩ | hs
    · exact hs.symm.trans h
    · rw [h] at hs
      cases hs

end Step

/-- The steps end in a stop that an ignored exception has caused: it was taken in while the program
was not stopped, it stopped the program, and the program is stopped since. -/
def EndInOwnStop (steps : List Step) : Prop :=
  ∃ front hearing middle, steps = front ++ hearing :: middle ∧ hearing.HearsIgnored ∧
    hearing.before.state ≠ .stopped ∧ hearing.after.state = .stopped ∧
      ∀ step ∈ middle, step.after.state = .stopped

/-- A stop that stands stays the stop of its exception. -/
theorem EndInOwnStop.append {steps : List Step} {step : Step} (h : EndInOwnStop steps)
    (hs : step.after.state = .stopped) : EndInOwnStop (steps ++ [step]) := by
  obtain ⟨front, hearing, middle, rfl, hignored, hbefore, hafter, hmiddle⟩ := h
  refine ⟨front, hearing, middle ++ [step], by rw [List.append_assoc]; rfl, hignored, hbefore,
    hafter, fun other hm => ?_⟩
  rcases List.mem_append.mp hm with hm | hm
  · exact hmiddle other hm
  · rwa [List.mem_singleton.mp hm]

/-- A request that waits to resume a program that is stopped ends the stop of the ignored exception
that it follows from. -/
def OwesOwnStop (past : List Step) (session : Session) : Prop :=
  ∀ request ∈ session.followUps, request.word.resumes = true →
    session.state = .stopped → EndInOwnStop past

/-- Only a frame that is taken in makes a request wait to resume the program. -/
theorem owesOwnStop_of_action {past : List Step} {step : Step}
    (ha : ∀ now, step.action ≠ .receive now) (h : OwesOwnStop past step.before) :
    OwesOwnStop (past ++ [step]) step.after :=
  fun request hm hr hs =>
    (h request (Step.mem_followUps_of_action ha request hm) hr (Step.stopped_before ha hs)).append
      hs

/-- A frame that makes a request wait to resume the program is an ignored exception that stops
it. -/
theorem owesOwnStop_of_receive {past : List Step} {step : Step} {now : Nat}
    (ha : step.action = .receive now) (hnil : step.before.followUps = [])
    (hown : step.HearsIgnored → step.before.state ≠ .stopped) :
    OwesOwnStop (past ++ [step]) step.after := by
  intro request hm hr hs
  rw [Step.followUps_receive ha, hnil, List.nil_append] at hm
  obtain ⟨response, hh⟩ := Step.heard_of_mem_returned hm
  rw [(Step.core_of_heard hh).1] at hm
  have hignores := ((step.before.core.exists_resumes_respond_iff response).mp
    ⟨request, hm, hr⟩).1
  have hears : step.HearsIgnored := ⟨response, hh, hignores⟩
  exact ⟨past, step, [], rfl, hears, hown hears, hs, fun _ hm => absurd hm List.not_mem_nil⟩

end Session

namespace Worker

open Session

/-- Every turn keeps what waits to resume the program to the stops of its own exceptions, as long
as no ignored exception comes to a stopped program. -/
theorem owesOwnStop_turn {worker : Worker} {past : List Step} (hsettled : worker.IsSettled)
    (h : worker.session.IsOver ∨ OwesOwnStop past worker.session) (turn : Turn)
    (hown : ∀ step ∈ worker.step? turn, step.HearsIgnored → step.before.state ≠ .stopped) :
    (worker.turn turn).session.IsOver ∨
      OwesOwnStop (past ++ (worker.step? turn).toList) (worker.turn turn).session := by
  have hstep : ∀ step : Step, worker.step? turn = some step →
      (worker.session.IsOver ∨ OwesOwnStop (past ++ [step]) step.after) →
        (worker.turn turn).session.IsOver ∨
          OwesOwnStop (past ++ (worker.step? turn).toList) (worker.turn turn).session := by
    intro step hs howes
    rw [session_turn hs, hs]
    exact howes.imp_left fun ho => Step.isOver_step (by rwa [before_of_step? hs])
  have hother : ∀ step : Step, worker.step? turn = some step →
      (∀ now, step.action ≠ .receive now) →
        (worker.turn turn).session.IsOver ∨
          OwesOwnStop (past ++ (worker.step? turn).toList) (worker.turn turn).session := by
    intro step hs ha
    rw [← before_of_step? hs] at h
    refine hstep step hs ?_
    rw [← before_of_step? hs]
    exact h.imp_right (owesOwnStop_of_action ha)
  cases worker.takes turn with
  | looks hs hw _ =>
    rw [hw, hs]
    simpa using h
  | inbound step hs now ha hp _ =>
    -- Nothing waits from an earlier frame, so what waits then follows from this one.
    refine hstep step hs ((hsettled (.inl hp)).imp_right fun hnil => ?_)
    rw [← before_of_step? hs] at hnil
    exact owesOwnStop_of_receive ha hnil (hown step hs)
  | outside step hs ha _ => exact hother step hs fun now hn => by rw [hn] at ha; cases ha
  | command step hs _ ha _ _ | followUp step hs _ ha _ _ | timers step hs _ ha _ _ =>
    exact hother step hs fun now hn => by rw [hn] at ha; cases ha

/-- A request by which a session resumes the program by itself ends the stop of the ignored
exception that it follows from, as long as no ignored exception comes to a stopped program. -/
theorem endInOwnStop_of_resumes (config : SessionConfig) (script : List Wire.WriteOutcome)
    (broken : Option Wire.IoFault) (turns : List Turn)
    (hown : ∀ step ∈ (Worker.start config script broken).steps turns,
      step.HearsIgnored → step.before.state ≠ .stopped)
    {front back : List Step} {resuming : Step}
    (hsteps : (Worker.start config script broken).steps turns = front ++ resuming :: back)
    {now : Nat} (ha : resuming.action = .followUp now) (hr : resuming.Resumes) :
    EndInOwnStop front := by
  obtain ⟨earlier, turn, later, rfl, hs, -⟩ := exists_turn hsteps
  have hrun := forall_turns
    (P := fun past worker => worker.IsSettled ∧
      (worker.session.IsOver ∨ OwesOwnStop past worker.session))
    (fun past worker turn h hq => ⟨isSettled_turn h.1 turn, owesOwnStop_turn h.1 h.2 turn hq⟩)
    [] ⟨isSettled_start config script broken,
      .inr fun _ hm => absurd hm List.not_mem_nil⟩ earlier
    fun step hm => hown step (by rw [hsteps]; exact List.mem_append_left _ hm)
  rw [List.nil_append, ← before_of_step? hs] at hrun
  obtain ⟨request, hm, hresumes⟩ := hr
  have hwrites := Step.writes_of_mem_wrote hm
  have hstopped : resuming.before.state = .stopped :=
    SessionState.eq_stopped_of_allows hwrites.admits.allows
      (SessionState.requiresStopped_of_resumes hresumes)
  rcases hrun.2 with hover | howes
  · rw [Step.wrote_of_isOver hover] at hm
    cases hm
  · exact howes request (Step.mem_followUps_of_offer? ha hwrites.offered) hresumes hstopped

end Worker

end DebugLink
