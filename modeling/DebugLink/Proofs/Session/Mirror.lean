import DebugLink.Proofs.Session.Debugger

/-!
# The debuggee mirrors the registry

While a program is there, the requests that were written, followed by those that wait and those
that are yet to be queued, make the points of the registry: a change adds its requests at the
end, the start of a program finds none about points and adds those of all points, and a step
takes requests from the front. So once nothing waits, the debuggee has the points of the
registry.

Three things can break this. A request of the user can overtake follow-ups about the same point,
which then undo it. Two points can be written in the same way, of which a debuggee can have only
one. And a breakpoint can take the place of one that is written differently, so that a debuggee,
which finds breakpoints by how their files are spelled, has both. The theorem is about the runs in
which none of this happens, and each of the three is shown to break it.
-/

namespace DebugLink.Debugger

/-- The requests on their way to the debuggee, in the order in which they are to be written. -/
def onTheWay (debugger : Debugger) : List Request :=
  debugger.session.followUps ++ debugger.session.asked ++ debugger.unsent

/-- What the program outside promises: requests about points are only asked for by changes, and
the debuggee clears no point of its own accord. -/
def IsPlain (debugger : Debugger) : Move → Prop
  | .act action => Session.Step.IsPlain ⟨debugger.session, action⟩
  | _ => True

/-- No point is added that is written as another one is, no breakpoint is spelled in a new way, and
no request of the user is carried out while a follow-up about the same point waits. -/
def IsOrderly (debugger : Debugger) : Move → Prop
  | .change change =>
    debugger.isBusy = false → change.IsFresh debugger.session.core.registry
  | .act (.command now) =>
    ∀ request ∈ Session.Step.offer? ⟨debugger.session, .command now⟩, request.point? ≠ none →
      ∀ other ∈ debugger.session.followUps, request.point? ≠ other.point?
  | _ => True

instance (debugger : Debugger) (move : Move) : Decidable (debugger.IsPlain move) :=
  match move with
  | .act action => inferInstanceAs (Decidable (Session.Step.IsPlain ⟨debugger.session, action⟩))
  | .change _ | .queue | .collect => isTrue trivial

instance (debugger : Debugger) (move : Move) : Decidable (debugger.IsOrderly move) :=
  match move with
  | .change change => inferInstanceAs (Decidable
    (debugger.isBusy = false → change.IsFresh debugger.session.core.registry))
  | .act (.command now) => inferInstanceAs (Decidable
    (∀ request ∈ Session.Step.offer? ⟨debugger.session, .command now⟩, request.point? ≠ none →
      ∀ other ∈ debugger.session.followUps, request.point? ≠ other.point?))
  | .queue | .collect | .act (.arrive _) | .act (.submit _) | .act .askShutdown
  | .act (.setRegistry _) | .act (.setIgnored _) | .act (.unsetIgnored _) | .act (.receive _)
  | .act (.followUp _) | .act (.timers _) => isTrue trivial

/-- Nothing is under way: a program is there, no change of a point is in progress, and no request
waits. -/
structure IsAtRest (debugger : Debugger) : Prop where
  /-- A program is there. -/
  live : debugger.session.state.isLive = true
  /-- No change of a point is in progress. -/
  idle : debugger.isBusy = false
  /-- The user waits for nothing. -/
  commands : debugger.session.commands = []
  /-- Nothing follows from what came in. -/
  followUps : debugger.session.followUps = []

instance (debugger : Debugger) : Decidable debugger.IsAtRest :=
  decidable_of_iff (debugger.session.state.isLive = true ∧ debugger.isBusy = false ∧
    debugger.session.commands = [] ∧ debugger.session.followUps = [])
    ⟨fun h => ⟨h.1, h.2.1, h.2.2.1, h.2.2.2⟩, fun h => ⟨h.1, h.2, h.3, h.4⟩⟩

/-- How the requests written and on their way stand to the registry. -/
inductive Standing (debugger : Debugger) : Prop
  /-- The session is over. -/
  | closed (h : debugger.session.state.isTerminal = true)
  /-- There is no program yet, and no request about a point. -/
  | before (h : debugger.session.state.isLive = false)
      (hn : ∀ request ∈ debugger.told ++ debugger.onTheWay, request.point? = none)
  /-- There is a program, and the requests make the points of the registry. -/
  | mirrors (h : debugger.session.state.isLive = true)
      (hm : Mirrors (PointTable.empty.replay (debugger.told ++ debugger.onTheWay))
        debugger.session.core.registry)

/-- What is known about the request whose answer is awaited. -/
structure Awaits (session : Session) (ticket : Nat) (request : Request) : Prop where
  /-- It is about a point. -/
  point : request.point? ≠ none
  /-- Its ticket was given out, and waits with this request only. -/
  waiting : ticket < session.tickets ∧
    ∀ other, (ticket, other) ∈ session.waiting → other = request
  /-- If the answer is an error, the session is over. -/
  failed : ∀ error, session.replies.lookup ticket = some (.error error) →
    session.state.isTerminal = true

/-- What holds at every moment of a run. -/
structure IsCoherent (debugger : Debugger) : Prop where
  /-- The points can be told apart. -/
  proper : debugger.session.core.registry.IsProper
  /-- The messages written are those of the requests. -/
  noted : debugger.told.map Request.toMessage = debugger.session.written.toList
  /-- The tickets are in order. -/
  numbered : debugger.session.IsNumbered
  /-- A session only ends its work when it is over. -/
  ended : debugger.session.ended = true → debugger.session.state.isTerminal = true
  /-- What is to be queued is about points. -/
  unsent : ∀ request ∈ debugger.unsent, request.point? ≠ none
  /-- What is known about the awaited answer. -/
  awaited : ∀ ticket request, debugger.awaited = some (ticket, request) →
    Awaits debugger.session ticket request
  /-- How the requests stand to the registry. -/
  standing : debugger.Standing

variable {debugger : Debugger}

/-- Nothing is known about an answer that is not awaited. -/
theorem awaits_of_none (ticket : Nat) (request : Request)
    (h : (none : Option (Nat × Request)) = some (ticket, request)) :
    Awaits debugger.session ticket request := by
  cases h

/-- A new debugger is coherent. -/
theorem isCoherent_start (config : SessionConfig) (script : List Wire.WriteOutcome)
    (broken : Option Wire.IoFault) : (start config script broken).IsCoherent where
  proper := ⟨.nil, .nil, .nil⟩
  noted := rfl
  numbered := Session.isNumbered_start config script broken
  ended := nofun
  unsent _ hm := absurd hm List.not_mem_nil
  awaited := awaits_of_none
  standing := .before rfl fun _ hm => absurd hm List.not_mem_nil

/-- The standing depends on the state, the registry and the requests only. -/
theorem Standing.of_eq {next : Debugger} (h : debugger.Standing)
    (hs : next.session.state = debugger.session.state)
    (hr : next.session.core.registry = debugger.session.core.registry)
    (ht : next.told ++ next.onTheWay = debugger.told ++ debugger.onTheWay) : next.Standing := by
  cases h with
  | closed h => exact .closed (by rw [hs]; exact h)
  | before h hn => exact .before (by rw [hs]; exact h) (by rw [ht]; exact hn)
  | mirrors h hm => exact .mirrors (by rw [hs]; exact h) (by rw [ht, hr]; exact hm)

/-! ## The moves of the user -/

/-- A change adds its requests at the end. -/
theorem isCoherent_change (h : debugger.IsCoherent) {change : PointChange}
    (hf : debugger.isBusy = false → change.IsFresh debugger.session.core.registry) :
    (debugger.change change).IsCoherent := by
  cases hb : debugger.isBusy with
  | true =>
    rw [Debugger.change, if_pos hb]
    exact h
  | false =>
    have htells := change.tells_apply h.proper (hf hb)
    obtain ⟨hunsent, hawaited⟩ := isBusy_eq_false.mp hb
    rw [Debugger.change, hb, if_neg Bool.false_ne_true]
    dsimp only
    have hlive : ∀ requests, Session.requestsIfLive
        (debugger.session.withRegistry (change.apply debugger.session.core.registry).2) requests =
          if debugger.session.state.isLive then requests else [] := fun _ => rfl
    rw [hlive]
    refine { proper := htells.proper, noted := h.noted, numbered := h.numbered, ended := h.ended,
             unsent := ?_, awaited := ?_, standing := ?_ }
    · intro request hm
      dsimp only at hm
      split at hm
      · exact htells.points request hm
      · exact absurd hm List.not_mem_nil
    · intro ticket request ha
      exact awaits_of_none ticket request (hawaited.symm.trans ha)
    · cases h.standing with
      | closed ht => exact .closed ht
      | before hs hn =>
        refine .before hs ?_
        rw [onTheWay, hunsent] at hn
        rw [onTheWay, hs]
        exact hn
      | mirrors hs hm =>
        refine .mirrors hs ?_
        rw [onTheWay, hunsent, List.append_nil] at hm
        rw [onTheWay, hs, if_pos rfl, ← List.append_assoc, PointTable.replay_append]
        exact htells.mirrors _ hm

/-- The answer to a request that is asked for is not there yet. -/
theorem awaits_submit {session : Session} (h : session.IsNumbered) {request : Request}
    (hp : request.point? ≠ none) :
    Awaits (session.perform (.submit request)) session.tickets request where
  point := hp
  waiting := ⟨Nat.lt_succ_self _, fun _ => Session.eq_of_mem_waiting_submit h⟩
  failed error hl := by
    have hnone := (Session.lookup_eq_none h).symm.trans hl
    cases hnone

/-- To queue a request leaves the requests as they are. -/
theorem isCoherent_queue (h : debugger.IsCoherent) : debugger.queue.IsCoherent := by
  rw [queue]
  split
  · next request rest ha hu =>
    have hunsent := h.unsent
    rw [hu] at hunsent
    obtain ⟨hpoint, hrest⟩ := List.forall_mem_cons.mp hunsent
    cases he : debugger.session.ended with
    | true =>
      rw [if_pos rfl]
      exact { h with
        unsent := fun _ hm => absurd hm List.not_mem_nil
        standing := .closed (h.ended he) }
    | false =>
      rw [if_neg Bool.false_ne_true]
      refine { h with
        numbered := Session.isNumbered_step ⟨debugger.session, .submit request⟩ h.numbered
        unsent := hrest
        awaited := ?_
        standing := h.standing.of_eq rfl rfl ?_ }
      · intro ticket asked heq
        obtain ⟨rfl, rfl⟩ := Prod.mk.inj (Option.some.inj heq)
        exact awaits_submit h.numbered hpoint
      · have hf : (debugger.session.submit request).2.followUps =
            debugger.session.followUps := rfl
        have hasked : (debugger.session.submit request).2.asked =
            debugger.session.asked ++ [request] :=
          Session.asked_submit debugger.session request
        rw [onTheWay, onTheWay, hu, hasked, hf, List.append_assoc, List.append_assoc,
          List.append_assoc]
        rfl
  · exact h

/-- An answer that is an error comes from a session that is over. -/
theorem isCoherent_collect (h : debugger.IsCoherent) : debugger.collect.IsCoherent := by
  rw [collect]
  split
  · exact h
  · next ticket request ha =>
    have hawaits := h.awaited ticket request ha
    split
    · exact { h with awaited := awaits_of_none, standing := h.standing.of_eq rfl rfl rfl }
    · next error hl =>
      exact { h with
        unsent := fun _ hm => absurd hm List.not_mem_nil
        awaited := awaits_of_none
        standing := .closed (hawaits.failed error hl) }
    · split
      · next he =>
        exact { h with
          unsent := fun _ hm => absurd hm List.not_mem_nil
          awaited := awaits_of_none
          standing := .closed (h.ended he) }
      · exact h

/-! ## The steps of the session -/

/-- What is known about the awaited answer stays known. -/
theorem Awaits.step {step : Session.Step} {ticket : Nat} {request : Request}
    (h : Awaits step.before ticket request) : Awaits step.after ticket request where
  point := h.point
  waiting := Session.waiting_step h.waiting
  failed error hl := by
    have hover : step.before.state.isTerminal = true → step.after.state.isTerminal = true :=
      fun ht => by rw [Session.state_of_terminal ht]; exact ht
    by_cases hhandles : ∃ asked, step.Handles ticket asked
    · obtain ⟨asked, hh⟩ := hhandles
      obtain rfl := h.waiting.2 asked hh.mem_waiting
      obtain ⟨result, hr, ha⟩ := hh.answers
      rw [hr, List.lookup_append, List.lookup_cons_self] at hl
      cases hbefore : step.before.replies.lookup ticket with
      | some answer =>
        rw [hbefore, Option.some_or] at hl
        exact hover (h.failed error (hbefore.trans hl))
      | none =>
        rw [hbefore, Option.none_or] at hl
        cases hs : step.before.state.isTerminal with
        | true => exact hover hs
        | false =>
          exact ha.failed error (Option.some.inj hl) (Session.admits_of_point h.point hs)
    · rw [Session.Step.lookup_of_not_handles (not_exists.mp hhandles)] at hl
      exact hover (h.failed error hl)

/-- The standing stays when other requests make the same table as before. -/
theorem Standing.step {next : Debugger} (h : debugger.Standing)
    (hover : debugger.session.state.isTerminal = true → next.session.state.isTerminal = true)
    (hl : next.session.state.isLive = debugger.session.state.isLive)
    (hp : debugger.session.core.registry.SamePoints next.session.core.registry)
    (ha : PointTable.Alike (debugger.told ++ debugger.onTheWay) (next.told ++ next.onTheWay)) :
    next.Standing := by
  cases h with
  | closed h => exact .closed (hover h)
  | before h hn =>
    refine .before (by rw [hl]; exact h) fun request hr => ?_
    rcases ha.points request hr with hr | hr
    · exact hn request hr
    · exact hr
  | mirrors h hmirrors =>
    refine .mirrors (by rw [hl]; exact h) ?_
    rw [ha.replay]
    exact hmirrors.of_samePoints hp

/-- When a program starts, no request about a point was there before those that make all points. -/
theorem Standing.starts {next : Debugger} {wrote more : List Request} (h : debugger.Standing)
    (hover : debugger.session.state.isTerminal = true → next.session.state.isTerminal = true)
    (hb : debugger.session.state.isLive = false) (hl : next.session.state.isLive = true)
    (hp : next.session.core.registry.IsProper)
    (hm : ∀ request ∈ more ++ wrote, request.point? = none)
    (ht : next.told ++ next.onTheWay = debugger.told ++ wrote ++
      (debugger.session.followUps ++ (more ++ next.session.core.registry.syncRequests) ++
        debugger.session.asked ++ debugger.unsent)) : next.Standing := by
  obtain ⟨hmore, hwrote⟩ := List.forall_mem_append.mp hm
  cases h with
  | closed h => exact .closed (hover h)
  | mirrors h =>
    have hlive := h.symm.trans hb
    cases hlive
  | before h hn =>
    rw [onTheWay] at hn
    simp only [List.forall_mem_append] at hn
    obtain ⟨htold, ⟨hfollow, hasked⟩, hunsent⟩ := hn
    refine .mirrors hl ?_
    rw [ht]
    simp only [PointTable.replay_append, PointTable.replay_of_no_point hwrote,
      PointTable.replay_of_no_point hmore, PointTable.replay_of_no_point hasked,
      PointTable.replay_of_no_point htold, PointTable.replay_of_no_point hfollow,
      PointTable.replay_of_no_point hunsent]
    exact Mirrors.of_syncRequests hp

/-- A step of the session keeps the standing: it takes requests from the front, in an order that
makes no difference. -/
theorem standing_act (h : debugger.IsCoherent) {action : Action}
    (hp : debugger.IsPlain (.act action)) (ho : debugger.IsOrderly (.act action)) :
    (debugger.act action).Standing := by
  have hover : debugger.session.state.isTerminal = true →
      (debugger.act action).session.state.isTerminal = true := fun ht => by
    rw [act, Session.state_of_terminal ht]
    exact ht
  have htold : (debugger.act action).told ++ (debugger.act action).onTheWay =
      debugger.told ++ Session.Step.wrote ⟨debugger.session, action⟩ ++
        ((debugger.act action).session.followUps ++ (debugger.act action).session.asked ++
          debugger.unsent) := rfl
  cases Session.Step.flow ⟨debugger.session, action⟩ hp with
  | closed ht => exact .closed ht
  | adds more asked hk hl hm hf ha =>
    have hf' : (debugger.act action).session.followUps = debugger.session.followUps ++ more := hf
    have ha' : (debugger.act action).session.asked = debugger.session.asked ++ asked := ha
    rw [List.forall_mem_append, List.forall_mem_append] at hm
    refine h.standing.step hover hl hk.points ?_
    rw [htold, hf', ha', onTheWay]
    exact PointTable.alike_insert hm.2 hm.1.1 hm.1.2
  | starts more hk hb hl hm hf ha =>
    have hf' : (debugger.act action).session.followUps = debugger.session.followUps ++
        (more ++ (debugger.act action).session.core.registry.syncRequests) := hf
    have ha' : (debugger.act action).session.asked = debugger.session.asked := ha
    rw [hf', ha'] at htold
    exact h.standing.starts hover hb hl (h.proper.of_samePoints hk.points) hm htold
  | command request hk hl hw hf ha hh =>
    obtain ⟨hoffer, now, hnow⟩ := hh
    obtain rfl : action = .command now := hnow
    have hf' : (debugger.act (.command now)).session.followUps = debugger.session.followUps := hf
    have ha' : debugger.session.asked = request :: (debugger.act (.command now)).session.asked :=
      ha
    refine h.standing.step hover hl hk.points ?_
    rw [htold, hf', onTheWay, ha', List.append_assoc debugger.session.followUps,
      List.append_assoc debugger.session.followUps, List.cons_append]
    exact PointTable.alike_take hw fun other hother hpoint =>
      ho request hoffer hpoint other hother
  | followUp request hk hl hw hf ha =>
    have hf' : debugger.session.followUps = request :: (debugger.act action).session.followUps :=
      hf
    have ha' : (debugger.act action).session.asked = debugger.session.asked := ha
    refine h.standing.step hover hl hk.points ?_
    rw [htold, ha', onTheWay, hf']
    -- The request waits in front of all others, so it overtakes none.
    have hnone : ∀ other ∈ ([] : List Request), request.point? ≠ none →
        request.point? ≠ other.point? := fun _ hother => absurd hother List.not_mem_nil
    exact PointTable.alike_take hw hnone

/-- A step of the session keeps a debugger coherent. -/
theorem isCoherent_act (h : debugger.IsCoherent) {action : Action}
    (hp : debugger.IsPlain (.act action)) (ho : debugger.IsOrderly (.act action)) :
    (debugger.act action).IsCoherent where
  proper := by
    cases Session.Step.flow ⟨debugger.session, action⟩ hp with
    | closed ht hpoints => exact h.proper.of_samePoints hpoints
    | adds more asked hk => exact h.proper.of_samePoints hk.points
    | starts more hk => exact h.proper.of_samePoints hk.points
    | command request hk => exact h.proper.of_samePoints hk.points
    | followUp request hk => exact h.proper.of_samePoints hk.points
  noted := by
    rw [act, List.map_append, h.noted]
    exact (Session.Step.written_eq ⟨debugger.session, action⟩).symm
  numbered := Session.isNumbered_step ⟨debugger.session, action⟩ h.numbered
  ended he := by
    have hover : debugger.session.ended = true →
        (debugger.act action).session.state.isTerminal = true := fun he => by
      rw [act, Session.state_of_terminal (h.ended he)]
      exact h.ended he
    cases Session.Step.flow ⟨debugger.session, action⟩ hp with
    | closed ht => exact ht
    | adds more asked hk => exact hover (hk.ended.symm.trans he)
    | starts more hk => exact hover (hk.ended.symm.trans he)
    | command request hk => exact hover (hk.ended.symm.trans he)
    | followUp request hk => exact hover (hk.ended.symm.trans he)
  unsent := h.unsent
  awaited ticket request ha := (h.awaited ticket request ha).step
  standing := standing_act h hp ho

/-! ## All runs -/

/-- Every move that is plain and orderly keeps a debugger coherent. -/
theorem isCoherent_perform (h : debugger.IsCoherent) {move : Move} (hp : debugger.IsPlain move)
    (ho : debugger.IsOrderly move) : (debugger.perform move).IsCoherent := by
  cases move with
  | change change => exact isCoherent_change h ho
  | queue => exact isCoherent_queue h
  | collect => exact isCoherent_collect h
  | act action => exact isCoherent_act h hp ho

/-- At rest, no request is on its way. -/
theorem onTheWay_of_isAtRest (h : debugger.IsAtRest) : debugger.onTheWay = [] := by
  rw [onTheWay, h.followUps, Session.asked, Session.waiting, h.commands,
    (isBusy_eq_false.mp h.idle).1]
  rfl

/-- In every run, however the changes of points, the frames, the commands and the follow-ups
interleave: if no point is added that is written as another one is, no breakpoint replaces one that
is spelled differently, and no request of the user overtakes a follow-up about the same point, then
at rest the messages written are those of requests that make exactly the points of the registry. The
table finds breakpoints by the text of their file and by their line. -/
theorem mirrors_run (config : SessionConfig) (script : List Wire.WriteOutcome)
    (broken : Option Wire.IoFault) (moves : List Move)
    (hp : (start config script broken).Obeys IsPlain moves)
    (ho : (start config script broken).Obeys IsOrderly moves)
    (hr : ((start config script broken).run moves).IsAtRest) :
    ((start config script broken).run moves).told.map Request.toMessage =
        ((start config script broken).run moves).session.written.toList ∧
      Mirrors (PointTable.empty.replay ((start config script broken).run moves).told)
        ((start config script broken).run moves).session.core.registry := by
  have hcoherent : ((start config script broken).run moves).IsCoherent :=
    run_of_obeys (P := IsCoherent)
      (fun debugger move hlaw h => isCoherent_perform h hlaw.1 hlaw.2)
      (isCoherent_start config script broken) (obeys_and hp ho)
  refine ⟨hcoherent.noted, ?_⟩
  cases hcoherent.standing with
  | closed ht =>
    have hlive := (SessionState.isLive_of_isTerminal ht).symm.trans hr.live
    cases hlive
  | before hl =>
    have hlive := hl.symm.trans hr.live
    cases hlive
  | mirrors hl hm =>
    rw [onTheWay_of_isAtRest hr, List.append_nil] at hm
    exact hm

/-! ## Runs that mirror the registry, and runs that do not -/

/-- A program starts. -/
def startup : List Move :=
  [.act (.arrive [.data (Text.Utf8.encode ">PassiveStartup<a.py|1\n")]), .act (.receive 0)]

/-- A change with one request, which is queued, carried out and answered. -/
def made (change : PointChange) : List Move :=
  [.change change, .queue, .act (.command 0), .collect]

/-- A breakpoint with a condition, which is disabled and counts. -/
def counted : Breakpoint :=
  { file := "a.py", line := 3, condition := some "i > 7", enabled := false, ignoreCount := 2 }

/-- A watchpoint is added while the requests that make a breakpoint wait, and overtakes them. -/
def mixed : List Move :=
  [.change (.addBreakpoint counted)] ++ startup ++ made (.addWatchpoint { condition := "x" }) ++
    [.act (.followUp 0), .act (.followUp 0), .act (.followUp 0)]

/-- A watchpoint may overtake the requests that make a breakpoint. -/
theorem mirrors_run_mixed :
    (start {} [] none).Obeys IsPlain mixed ∧ (start {} [] none).Obeys IsOrderly mixed ∧
      ((start {} [] none).run mixed).IsAtRest ∧
        ((start {} [] none).run mixed).told.map Request.toMessage =
            ((start {} [] none).run mixed).session.written.toList ∧
          Mirrors (PointTable.empty.replay ((start {} [] none).run mixed).told)
            ((start {} [] none).run mixed).session.core.registry := by
  have hp : (start {} [] none).Obeys IsPlain mixed := by decide +kernel
  have ho : (start {} [] none).Obeys IsOrderly mixed := by decide +kernel
  have hr : ((start {} [] none).run mixed).IsAtRest := by decide +kernel
  exact ⟨hp, ho, hr, mirrors_run {} [] none mixed hp ho hr⟩

/-- Two watchpoints are added with one condition, which carries the mark of a special watchpoint:
the look for a watchpoint with the condition takes the mark off and finds none. -/
def twins : List Move :=
  startup ++ made (.addWatchpoint { condition := "x ??changed??" }) ++
    made (.addWatchpoint { condition := "x ??changed??", temporary := true })

/-- A debuggee does not mirror two watchpoints that are written in the same way. -/
theorem not_mirrors_twins :
    (start {} [] none).Obeys IsPlain twins ∧ ((start {} [] none).run twins).IsAtRest ∧
      ¬ Mirrors (PointTable.empty.replay ((start {} [] none).run twins).told)
        ((start {} [] none).run twins).session.core.registry := by
  have hkeys : ¬ (((start {} [] none).run twins).session.core.registry.points.map
      Prod.fst).Nodup := by decide +kernel
  exact ⟨by decide +kernel, by decide +kernel, fun h => hkeys h.distinct⟩

/-- A breakpoint is added again, with another spelling of its path. -/
def respelled : List Move :=
  startup ++ made (.addBreakpoint { file := "src/a.py", line := 3 }) ++
    made (.addBreakpoint { file := "src//a.py", line := 3 })

/-- A debuggee keeps a breakpoint that was replaced by one in a file that is spelled differently. -/
theorem not_mirrors_respelled :
    (start {} [] none).Obeys IsPlain respelled ∧ ((start {} [] none).run respelled).IsAtRest ∧
      ¬ Mirrors (PointTable.empty.replay ((start {} [] none).run respelled).told)
        ((start {} [] none).run respelled).session.core.registry := by
  have hentry : PointTable.empty.replay ((start {} [] none).run respelled).told
      (.breakpoint "src/a.py" 3) = some { temporary := false } := by decide +kernel
  have hpoints : ((start {} [] none).run respelled).session.core.registry.points =
      [(.breakpoint "src//a.py" 3, { temporary := false })] := by decide +kernel
  refine ⟨by decide +kernel, by decide +kernel, fun h => ?_⟩
  have hmem := (h.entries _ _).mp hentry
  rw [hpoints] at hmem
  simp at hmem

/-- A breakpoint is removed after its program has started and before the requests that follow
from the start are written. -/
def overtaken : List Move :=
  [.change (.addBreakpoint { file := "a.py", line := 3 })] ++ startup ++
    made (.removeBreakpoint "a.py" 3) ++ [.act (.followUp 0)]

/-- The removal of a breakpoint that overtakes the request to make it is undone by that request:
the debuggee keeps the breakpoint, which the registry does not have. -/
theorem not_mirrors_overtaken :
    (start {} [] none).Obeys IsPlain overtaken ∧ ((start {} [] none).run overtaken).IsAtRest ∧
      ¬ Mirrors (PointTable.empty.replay ((start {} [] none).run overtaken).told)
        ((start {} [] none).run overtaken).session.core.registry := by
  have hentry : PointTable.empty.replay ((start {} [] none).run overtaken).told
      (.breakpoint "a.py" 3) = some { temporary := false } := by decide +kernel
  have hpoints : ((start {} [] none).run overtaken).session.core.registry.points = [] := by
    decide +kernel
  refine ⟨by decide +kernel, by decide +kernel, fun h => ?_⟩
  have hmem := (h.entries _ _).mp hentry
  rw [hpoints] at hmem
  exact absurd hmem List.not_mem_nil

end DebugLink.Debugger
