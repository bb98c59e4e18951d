import DebugLink.Proofs.Session.Ignored

/-!
# The points are told before the program runs on

When a program starts, the requests that make all its points follow from the frame, and no other
frame is taken in until they are written. A program that runs cannot be resumed meanwhile. One that
has stopped at once can: the requests of the user are carried out first, and if it was an exception
on the ignore list that stopped it, the request to resume it follows in front of the points. Where
neither happens, all points are told before any request resumes the program.
-/

namespace DebugLink

/-- Whether a step carries out a command. -/
def Action.isCommand : Action → Bool
  | .command _ => true
  | _ => false

/-- A request about a point moves no state. -/
theorem SessionState.afterSent_of_point (state : SessionState) {request : Request}
    (h : request.point? ≠ none) : state.afterSent request.word = none := by
  obtain ⟨hload, -, hresumes⟩ := Request.word_of_point? h
  refine Option.eq_none_iff_forall_ne_some.mpr fun next hn => ?_
  obtain ⟨-, hw, -⟩ | ⟨-, hw, -⟩ := afterSent_eq_some hn
  · exact hload hw
  · rw [hresumes] at hw
    cases hw

namespace Session

namespace Step

/-- The requests that a step has written because they follow from what came in. -/
def followed (step : Step) : List Request :=
  match step.action with
  | .followUp _ => step.wrote
  | _ => []

/-- A command resumes the program while a request about a point waits to follow. -/
def Overtakes (step : Step) : Prop :=
  step.action.isCommand = true ∧ step.Resumes ∧
    ∃ request ∈ step.before.followUps, request.point? ≠ none

instance : DecidablePred Starts := fun step => inferInstanceAs (Decidable
  (∃ response ∈ step.heard,
    step.before.state.isStart (step.before.state.afterReceived response.word) = true))

instance : DecidablePred HearsIgnored := fun step => inferInstanceAs (Decidable
  (∃ response ∈ step.heard, step.before.core.ignores response = true))

instance : DecidablePred Resumes := fun step => inferInstanceAs (Decidable
  (∃ request ∈ step.wrote, request.word.resumes = true))

instance : DecidablePred Overtakes := fun step => inferInstanceAs (Decidable
  (step.action.isCommand = true ∧ step.Resumes ∧
    ∃ request ∈ step.before.followUps, request.point? ≠ none))

variable {step : Step}

/-- A step that is no writing of what follows has written none of it. -/
theorem followed_of_action (h : ∀ now, step.action ≠ .followUp now) : step.followed = [] := by
  unfold followed
  split
  · next now ha => exact absurd ha (h now)
  · rfl

/-- A program is resumed only while it is stopped. -/
theorem Resumes.state (h : step.Resumes) : step.before.state = .stopped := by
  obtain ⟨request, hm, hr⟩ := h
  exact SessionState.eq_stopped_of_allows (writes_of_mem_wrote hm).admits.allows
    (SessionState.requiresStopped_of_resumes hr)

/-- A program is resumed by a command, or by a request that follows from what came in. -/
theorem Resumes.action (h : step.Resumes) : (∃ now, step.action = .command now) ∨
    ∃ request ∈ step.before.followUps, request.word.resumes = true := by
  obtain ⟨request, hm, hr⟩ := h
  have ho := (writes_of_mem_wrote hm).offered
  cases ha : step.action with
  | command now => exact .inl ⟨now, rfl⟩
  | followUp now => exact .inr ⟨request, mem_followUps_of_offer? ha ho, hr⟩
  | timers now =>
    rw [offer?, ha] at ho
    split at ho
    · cases ho
    · obtain rfl := Option.some.inj ho
      cases hr
  | _ =>
    rw [offer?, ha] at ho
    split at ho <;> cases ho

/-- What follows from the start of a program is what makes all its points, unless it starts by an
exception on the ignore list. -/
theorem Starts.returned (h : step.Starts) (hi : ¬ step.HearsIgnored) :
    step.returned = step.after.core.registry.syncRequests := by
  obtain ⟨response, hm, hs⟩ := h
  have hignores : step.before.core.ignores response = false :=
    Bool.of_not_eq_true fun hignores => hi ⟨response, hm, hignores⟩
  rw [returned_of_heard hm, Core.resumesOn_eq, Core.ignores_moveTo, hignores]
  exact if_pos hs

/-- A step of the user or of the debuggee moves no state. -/
theorem state_of_isOutside (h : step.action.isOutside = true) :
    step.after.state = step.before.state := by
  cases ha : step.action with
  | receive | command | followUp | timers =>
    rw [ha] at h
    cases h
  | _ =>
    rw [after, ha]
    rfl

/-- Carrying out a command leaves a live state as it is, unless it resumes the program or ends the
session. -/
theorem state_of_command {now : Nat} (ha : step.action = .command now)
    (hl : step.before.state.isLive = true) (hr : ¬ step.Resumes) :
    step.after.IsOver ∨ step.after.state = step.before.state := by
  cases step.outcome with
  | quiet hq hm =>
    cases hm with
    | stays hs => exact .inr hs
    | received message hreceives hs =>
      obtain ⟨now, hn⟩ := hreceives.action
      rw [ha] at hn
      cases hn
    | lost hn hs => exact .inl (.inr (by rw [hs]; rfl))
  | writes request hw =>
    refine .inr (hw.state.trans ?_)
    cases hn : step.before.state.afterSent request.word with
    | none => rfl
    | some next =>
      obtain ⟨hidle, -, -⟩ | ⟨-, hresumes, -⟩ := SessionState.afterSent_eq_some hn
      · rw [hidle] at hl
        cases hl
      · exact absurd ⟨request, by rw [wrote_of_writes hw]; exact List.mem_cons_self, hresumes⟩ hr
  | tears request part ht =>
    rcases ht.ended with ⟨-, hs⟩ | hs
    · exact .inr hs
    · exact .inl (.inr (by rw [hs]; rfl))

end Step

/-- Whenever a program starts, the requests that make all its points are written before any request
resumes it. -/
def ResyncsFirst (steps : List Step) : Prop :=
  ∀ front starting middle resuming back,
    steps = front ++ starting :: (middle ++ resuming :: back) → starting.Starts →
      resuming.Resumes →
        starting.after.core.registry.syncRequests <+: middle.flatMap Step.followed

/-- The requests that make all points are written between the start of a program and a request that
resumes it. -/
theorem ResyncsFirst.prefix_of_lt {steps : List Step} (h : ResyncsFirst steps)
    {i j : Fin steps.length} (hij : i < j) (hs : (steps.get i).Starts)
    (hr : (steps.get j).Resumes) : (steps.get i).after.core.registry.syncRequests <+:
      ((steps.take j).drop (i + 1)).flatMap Step.followed := by
  refine h (steps.take i) (steps.get i) _ (steps.get j) (steps.drop (j + 1)) ?_ hs hr
  calc steps
      = steps.take j ++ steps.get j :: steps.drop (j + 1) := by
        rw [List.get_eq_getElem, List.getElem_cons_drop, List.take_append_drop]
    _ = (steps.take j).take i ++ ((steps.take j).drop i ++ steps.get j :: steps.drop (j + 1)) := by
        rw [← List.append_assoc, List.take_append_drop]
    _ = _ := by
        have hlt : i.val < (steps.take j).length := by
          rw [List.length_take]
          exact Nat.lt_min.mpr ⟨hij, i.isLt⟩
        rw [List.take_take, Nat.min_eq_left (Nat.le_of_lt hij), List.drop_eq_getElem_cons hlt,
          List.getElem_take, List.get_eq_getElem]
        rfl

end Session

namespace Worker

open Session

variable {worker : Worker} {owed : List Request} {state : SessionState} {past : List Step}

/-- Since a program has started in a state, some of the requests that make its points are written,
and the others are all that waits. -/
structure IsTelling (worker : Worker) (owed : List Request) (state : SessionState)
    (past : List Step) : Prop where
  /-- The program has started. -/
  live : state.isLive = true
  /-- The requests are about points. -/
  points : ∀ request ∈ owed, request.point? ≠ none
  /-- Each of them is written or waits, in order. -/
  split : past.flatMap Step.followed ++ worker.session.followUps = owed
  /-- Some wait. -/
  waits : worker.session.followUps ≠ []
  /-- No other frame is taken in before they are written. -/
  phase : worker.phase = .commands ∨ worker.phase = .followUps
  /-- The state is the one in which the program has started. -/
  state : worker.session.state = state

/-- How far the requests that make the points have come, since a program has started in a state. -/
inductive Tells (worker : Worker) (owed : List Request) (state : SessionState)
    (past : List Step) : Prop
  /-- Nothing is written any more. -/
  | ended (h : worker.session.IsOver)
  /-- All are written. -/
  | told (h : owed <+: past.flatMap Step.followed)
  /-- Some wait. -/
  | telling (h : worker.IsTelling owed state past)

namespace IsTelling

/-- One of the requests waits first. -/
theorem exists_oldest (h : worker.IsTelling owed state past) : ∃ request rest,
    worker.session.followUps = request :: rest ∧ request ∈ owed := by
  obtain ⟨request, rest, hcons⟩ := List.exists_cons_of_ne_nil h.waits
  refine ⟨request, rest, hcons, ?_⟩
  rw [← h.split, hcons]
  exact List.mem_append_right _ List.mem_cons_self

/-- A command that resumes the program overtakes the requests that make the points. -/
theorem overtakes (h : worker.IsTelling owed state past) {step : Step} {now : Nat}
    (hbefore : step.before = worker.session) (ha : step.action = .command now)
    (hr : step.Resumes) : step.Overtakes := by
  obtain ⟨request, rest, hcons, hm⟩ := h.exists_oldest
  refine ⟨by rw [ha]; rfl, hr, request, ?_, h.points request hm⟩
  rw [hbefore, hcons]
  exact List.mem_cons_self

/-- A turn whose step writes none of what follows leaves what is told as it is. -/
theorem tells_of_other (h : worker.IsTelling owed state past) {step : Step} {turn : Turn}
    (hs : worker.step? turn = some step)
    (ha : step.action.isOutside = true ∨ ∃ now, step.action = .command now)
    (hphase : (worker.turn turn).phase = worker.phase)
    (hstate : step.after.IsOver ∨ step.after.state = step.before.state) :
    (worker.turn turn).Tells owed state (past ++ [step]) := by
  have hfollowUps : (worker.turn turn).session.followUps = worker.session.followUps := by
    rw [session_turn hs, followUps_of_other (ha.imp_right fun ⟨now, ha⟩ => ⟨now, .inl ha⟩),
      before_of_step? hs]
  have hfollowed : step.followed = [] := Step.followed_of_action fun now hn => by
    rcases ha with ha | ⟨_, ha⟩ <;> rw [hn] at ha <;> cases ha
  rcases hstate with hover | hstate
  · exact .ended (by rwa [session_turn hs])
  · refine .telling { h with split := ?_, waits := ?_, phase := ?_, state := ?_ }
    · rw [hfollowUps, List.flatMap_append, List.flatMap_singleton, hfollowed, List.append_nil]
      exact h.split
    · rw [hfollowUps]
      exact h.waits
    · rw [hphase]
      exact h.phase
    · rw [session_turn hs, hstate, before_of_step? hs]
      exact h.state

/-- A turn that writes the oldest of the requests that make the points. -/
theorem tells_of_followUp (h : worker.IsTelling owed state past) {step : Step} {turn : Turn}
    {now : Nat} (hs : worker.step? turn = some step) (ha : step.action = .followUp now)
    (he : worker.session.ended = false) (hphase : (worker.turn turn).phase = .followUps) :
    (worker.turn turn).Tells owed state (past ++ [step]) := by
  obtain ⟨request, rest, hcons, hm⟩ := h.exists_oldest
  have hpoint : request.point? ≠ none := h.points request hm
  have hgoes : worker.session.state.isTerminal = false := Bool.of_not_eq_true fun ht => by
    have hlive := SessionState.isLive_of_isTerminal ht
    rw [h.state, h.live] at hlive
    cases hlive
  have hadmits := admits_of_point hpoint hgoes
  have hsplit := h.split
  have hstart := h.state
  rw [← before_of_step? hs] at he hcons hadmits hsplit hstart
  rcases Step.followUps_cases ha he hcons with hover | ⟨hrest, hw | ⟨hn, -⟩⟩
  · exact .ended (by rwa [session_turn hs])
  · have hfollowed : step.followed = [request] := by
      rw [Step.followed, ha]
      exact Step.wrote_of_writes hw
    have htold : (past ++ [step]).flatMap Step.followed ++ rest = owed := by
      rw [List.flatMap_append, List.flatMap_singleton, hfollowed, ← hsplit, hcons,
        List.append_assoc]
      rfl
    cases rest with
    | nil =>
      rw [List.append_nil] at htold
      exact .told (htold ▸ List.prefix_rfl)
    | cons next rest =>
      refine .telling { h with split := ?_, waits := ?_, phase := .inr hphase, state := ?_ } <;>
        rw [session_turn hs]
      · rw [hrest]
        exact htold
      · rw [hrest]
        exact List.cons_ne_nil _ _
      · rw [hw.state, SessionState.afterSent_of_point _ hpoint]
        exact hstart
  · exact absurd hadmits hn

/-- Every turn brings the requests that wait on, unless a command overtakes them. -/
theorem tells_turn (h : worker.IsTelling owed state past) (turn : Turn)
    (hq : ∀ step ∈ worker.step? turn, state = .stopped → ¬ step.Overtakes) :
    (worker.turn turn).Tells owed state (past ++ (worker.step? turn).toList) := by
  cases worker.takes turn with
  | looks hs hw hn =>
    have hpast : past ++ (none : Option Step).toList = past := List.append_nil past
    rw [hs, hpast]
    rcases hn with ⟨-, hn⟩ | ⟨-, -, he | hnil⟩
    · exact .telling { h with
        split := by rw [hw]; exact h.split
        waits := by rw [hw]; exact h.waits
        phase := .inr hn
        state := by rw [hw]; exact h.state }
    · exact .ended (by rw [hw]; exact .inl he)
    · exact absurd hnil h.waits
  | outside step hs ha hphase =>
    rw [hs]
    exact h.tells_of_other hs (.inl ha) hphase (.inr (Step.state_of_isOutside ha))
  | command step hs now ha hphase hn =>
    have hbefore := before_of_step? hs
    have hr : ¬ step.Resumes := fun hr =>
      hq step hs (by rw [← h.state, ← hbefore, hr.state]) (h.overtakes hbefore ha hr)
    have hlive : step.before.state.isLive = true := by rw [hbefore, h.state, h.live]
    rw [hs]
    exact h.tells_of_other hs (.inr ⟨now, ha⟩) (hn.trans hphase.symm)
      (Step.state_of_command ha hlive hr)
  | followUp step hs now ha hphase hn he =>
    rw [hs]
    exact h.tells_of_followUp hs ha he hn
  | inbound step hs now ha hphase | timers step hs now ha hphase =>
    rcases h.phase with hp | hp <;> rw [hphase] at hp <;> cases hp

end IsTelling

/-- Every turn brings the requests that make the points on, unless a command overtakes them. -/
theorem tells_turn (h : worker.Tells owed state past) (turn : Turn)
    (hq : ∀ step ∈ worker.step? turn, state = .stopped → ¬ step.Overtakes) :
    (worker.turn turn).Tells owed state (past ++ (worker.step? turn).toList) := by
  cases h with
  | ended h =>
    refine .ended ?_
    cases hs : worker.step? turn with
    | none => rwa [Worker.turn, hs]
    | some step =>
      rw [session_turn hs]
      exact Step.isOver_step (by rwa [before_of_step? hs])
  | told h =>
    refine .told (h.trans ?_)
    rw [List.flatMap_append]
    exact List.prefix_append _ _
  | telling h => exact h.tells_turn turn hq

/-- When a request resumes the program, all requests that make the points are written, unless it
overtakes them. -/
theorem told_of_resumes (h : worker.Tells owed state past) {step : Step}
    (hbefore : step.before = worker.session) (hr : step.Resumes)
    (hq : state = .stopped → ¬ step.Overtakes) : owed <+: past.flatMap Step.followed := by
  cases h with
  | ended h =>
    obtain ⟨request, hm, -⟩ := hr
    rw [Step.wrote_of_isOver (by rwa [hbefore])] at hm
    cases hm
  | told h => exact h
  | telling h =>
    have hstopped : state = .stopped := by rw [← h.state, ← hbefore, hr.state]
    rcases hr.action with ⟨now, ha⟩ | ⟨request, hm, hresumes⟩
    · exact absurd (h.overtakes hbefore ha hr) (hq hstopped)
    · -- What waits is about points, and no such request resumes the program.
      rw [hbefore] at hm
      have hpoint := h.points request (by rw [← h.split]; exact List.mem_append_right _ hm)
      rw [(Request.word_of_point? hpoint).2.2] at hresumes
      cases hresumes

/-- When a program has started, the requests that make all its points are all that follows. -/
theorem tells_of_starts {turn : Turn} {step : Step} (hsettled : worker.IsSettled)
    (hs : worker.step? turn = some step) (hstarts : step.Starts) (hi : ¬ step.HearsIgnored) :
    (worker.turn turn).Tells step.after.core.registry.syncRequests step.after.state [] := by
  obtain ⟨now, ha⟩ := hstarts.action
  cases worker.takes turn with
  | inbound other hother _ _ hp hn =>
    have hnil : step.before.followUps = [] := by
      rcases hsettled (.inl hp) with hover | hnil
      · rw [← before_of_step? hs] at hover
        exact absurd hstarts (Step.not_starts_of_isOver hover)
      · rwa [before_of_step? hs]
    have hfollowUps : step.after.followUps = step.after.core.registry.syncRequests := by
      rw [Step.followUps_receive ha, hnil, hstarts.returned hi]
      rfl
    by_cases hempty : step.after.core.registry.syncRequests = []
    · exact .told (by rw [hempty]; exact List.nil_prefix)
    · exact .telling {
        live := hstarts.state.2
        points := fun _ => Registry.point?_of_mem_syncRequests
        split := by rw [session_turn hs, hfollowUps]; rfl
        waits := by rw [session_turn hs, hfollowUps]; exact hempty
        phase := .inl hn
        state := by rw [session_turn hs] }
  | looks hother =>
    rw [hs] at hother
    cases hother
  | outside other hother haction =>
    obtain rfl := Option.some.inj (hs.symm.trans hother)
    rw [ha] at haction
    cases haction
  | command other hother _ haction | followUp other hother _ haction
  | timers other hother _ haction =>
    obtain rfl := Option.some.inj (hs.symm.trans hother)
    rw [ha] at haction
    cases haction

/-- In every run of a session that keeps the order of its work, all points are told before any
request resumes the program, as long as no program starts by an exception on the ignore list and no
command overtakes the points of a program that stops at once. -/
theorem resyncsFirst_run (config : SessionConfig) (script : List Wire.WriteOutcome)
    (broken : Option Wire.IoFault) (turns : List Turn)
    (hi : ∀ step ∈ (Worker.start config script broken).steps turns,
      step.Starts → ¬ step.HearsIgnored)
    (ho : ((Worker.start config script broken).steps turns).Pairwise
      fun first second =>
        first.Starts → first.after.state = .stopped → ¬ second.Overtakes) :
    ResyncsFirst ((Worker.start config script broken).steps turns) := by
  intro front starting middle resuming back hsteps hstarts hresumes
  obtain ⟨earlier, turn, later, -, hstart, hlater⟩ := exists_turn hsteps
  obtain ⟨between, next, -, rfl, hresume, -⟩ := exists_turn hlater.symm
  -- The turns between the two steps bring on what follows from the start, as no command overtakes.
  rw [hsteps] at hi ho
  have hlate := (List.pairwise_cons.mp (List.pairwise_append.mp ho).2.1).1
  have hsettled := isSettled_run (isSettled_start config script broken) earlier
  have hignored := hi starting (List.mem_append_right _ List.mem_cons_self) hstarts
  have hrun := forall_turns
    (P := fun past worker =>
      worker.Tells starting.after.core.registry.syncRequests starting.after.state past)
    (Q := fun step => starting.after.state = .stopped → ¬ step.Overtakes)
    (fun _ _ turn h hq => tells_turn h turn hq) []
    (tells_of_starts hsettled hstart hstarts hignored) between
    fun step hm => hlate step (List.mem_append_left _ hm) hstarts
  exact told_of_resumes hrun (before_of_step? hresume) hresumes
    (hlate resuming (List.mem_append_right _ List.mem_cons_self) hstarts)

/-- A program with a breakpoint is asked for, and the request to load it is written in the first
round. -/
def loaded : List Turn :=
  [.outside (.setRegistry { breakpoints := [{ file := "a.py", line := 3 }] }) rfl,
    .outside (.submit (.load "/" "a.py" [] false)) rfl, .work 0, .work 0, .work 0, .work 0, .work 0]

/-- The program stops at once, and is resumed in the next round. -/
def resumedLater : List Turn :=
  loaded ++ [.outside (.arrive [.data (Text.Utf8.encode ">Line<[]\n")]) rfl, .work 0, .work 0,
    .work 0, .work 0, .work 0, .outside (.submit (.resume false)) rfl, .work 0, .work 0]

/-- The breakpoint is told before the program that stopped at once runs on. -/
theorem resyncsFirst_run_resumedLater :
    (∀ step ∈ (Worker.start {} [] none).steps resumedLater,
      step.Starts → ¬ step.HearsIgnored) ∧
      ((Worker.start {} [] none).steps resumedLater).Pairwise (fun first second =>
        first.Starts → first.after.state = .stopped → ¬ second.Overtakes) ∧
      ResyncsFirst ((Worker.start {} [] none).steps resumedLater) ∧
      ((Worker.start {} [] none).run resumedLater).session.written.toList.map
        Message.word = [.load, .setBreak, .resume] := by
  have hi : ∀ step ∈ (Worker.start {} [] none).steps resumedLater,
      step.Starts → ¬ step.HearsIgnored := by decide +kernel
  have ho : ((Worker.start {} [] none).steps resumedLater).Pairwise
      fun first second =>
        first.Starts → first.after.state = .stopped → ¬ second.Overtakes := by decide +kernel
  exact ⟨hi, ho, resyncsFirst_run {} [] none resumedLater hi ho, by decide +kernel⟩

/-- The program stops at once by an exception on the ignore list. -/
def ignoredAtOnce : List Turn :=
  loaded ++ [.outside (.arrive [.data (Text.Utf8.encode
    ">Exception<\x7b\"type\":\"StopIteration\"\x7d\n")]) rfl, .work 0, .work 0, .work 0, .work 0]

/-- The request to resume a program that an ignored exception has stopped at once is written before
the breakpoint is told. -/
theorem not_resyncsFirst_ignoredAtOnce :
    ¬ ResyncsFirst ((Worker.start { ignoredExceptions := ["StopIteration"] } [] none).steps
      ignoredAtOnce) := by
  intro h
  have hprefix := h.prefix_of_lt (i := ⟨6, by decide +kernel⟩) (j := ⟨7, by decide +kernel⟩)
    (by decide) (by decide +kernel) (by decide +kernel)
  exact absurd hprefix (by decide +kernel)

/-- The program stops at once, and the user has it resumed in the same round. -/
def resumedAtOnce : List Turn :=
  loaded ++ [.outside (.arrive [.data (Text.Utf8.encode ">Line<[]\n")]) rfl, .work 0,
    .outside (.submit (.resume false)) rfl, .work 0, .work 0, .work 0]

/-- The request of the user to resume a program that has stopped at once is written before the
breakpoint is told. -/
theorem not_resyncsFirst_resumedAtOnce :
    ¬ ResyncsFirst ((Worker.start {} [] none).steps resumedAtOnce) := by
  intro h
  have hprefix := h.prefix_of_lt (i := ⟨6, by decide +kernel⟩) (j := ⟨8, by decide +kernel⟩)
    (by decide) (by decide +kernel) (by decide +kernel)
  exact absurd hprefix (by decide +kernel)

end Worker

end DebugLink
