import DebugLink.Proofs.Session.Effect

/-!
# The life of a session

The changes of state that a session publishes form a path through its life: it begins in the idle
state, each change starts where the one before ended, the last one ends in the present state, and
every change is one of few edges. No edge leads back to the idle state, only an asked-for program
leads to the wait for it, and no edge leaves a state in which the session is over. So a program
starts once in a run, and its debuggee is told all points once.
-/

namespace DebugLink

namespace SessionState

/-- The edges along which the state of a session changes. -/
inductive Edge : SessionState → SessionState → Prop
  /-- A program is asked for. -/
  | load : Edge idle connecting
  /-- A debuggee comes with a program. -/
  | passive : Edge idle running
  /-- The program that was asked for runs. -/
  | start : Edge connecting running
  /-- The program that was asked for stops at once. -/
  | startStopped : Edge connecting stopped
  /-- The program stops. -/
  | stop : Edge running stopped
  /-- The program runs on. -/
  | resume : Edge stopped running
  /-- The program ends. -/
  | exit {state : SessionState} (h : state.isTerminal = false) : Edge state exited
  /-- The connection is lost. -/
  | loss {state : SessionState} (h : state.isTerminal = false) : Edge state disconnected

/-- A path from one state to another, with its changes of state in order. -/
inductive Path : SessionState → List (SessionState × SessionState) → SessionState → Prop
  /-- Nothing changes. -/
  | nil (state : SessionState) : Path state [] state
  /-- A change comes first. -/
  | cons {first second last : SessionState} {rest : List (SessionState × SessionState)}
      (h : Edge first second) (hp : Path second rest last) :
      Path first ((first, second) :: rest) last

/-- Paths can be joined. -/
theorem Path.append {first second third : SessionState}
    {front back : List (SessionState × SessionState)} (h : Path first front second)
    (h' : Path second back third) : Path first (front ++ back) third := by
  induction h with
  | nil state => exact h'
  | cons hedge _ ih => exact .cons hedge (ih h')

/-- A written word moves the state along an edge. -/
theorem edge_of_afterSent {state next : SessionState} {word : Word}
    (h : state.afterSent word = some next) : Edge state next := by
  obtain ⟨rfl, -, rfl⟩ | ⟨rfl, -, rfl⟩ := afterSent_eq_some h
  · exact .load
  · exact .resume

/-- A received word moves the state along an edge. -/
theorem edge_of_afterReceived {state next : SessionState} {word : Word}
    (h : state.afterReceived word = some next) : Edge state next := by
  obtain ⟨ht, ⟨rfl, -⟩ | ⟨rfl, -, rfl | rfl⟩ | ⟨rfl, -, rfl | rfl⟩⟩ := afterReceived_eq_some h
  · exact .exit ht
  · exact .startStopped
  · exact .stop
  · exact .passive
  · exact .start

/-- The loss of the connection moves the state along an edge. -/
theorem edge_of_afterLoss {state next : SessionState} (h : state.afterLoss = some next) :
    Edge state next := by
  obtain ⟨ht, rfl⟩ := afterLoss_eq_some h
  exact .loss ht

/-- No edge leads to the idle state, and only from there one leads to the wait for a program. -/
theorem Edge.target {state next : SessionState} (h : Edge state next) :
    next ≠ idle ∧ (next = connecting → state = idle) := by
  cases h with
  | load => exact ⟨nofun, fun _ => rfl⟩
  | _ => exact ⟨nofun, nofun⟩

end SessionState

open SessionState (Edge Path)

/-- The change of state that an event tells of. -/
def Event.change? : Event → Option (SessionState × SessionState)
  | stateChanged previous next => some (previous, next)
  | _ => none

namespace Core

/-- The changes of state that have been published. -/
def changes (core : Core) : List (SessionState × SessionState) :=
  core.events.toList.filterMap Event.change?

/-- Events that are published add their changes of state. -/
theorem Publishes.changes {core next : Core} {events : List Event}
    (h : core.Publishes next events) :
    next.changes = core.changes ++ events.filterMap Event.change? := by
  rw [Core.changes, h, List.filterMap_append]
  rfl

/-- A move tells of its change of state. -/
theorem filterMap_moved (state : SessionState) (next : Option SessionState) :
    (moved state next).filterMap Event.change? = next.toList.map fun target => (state, target) := by
  cases next <;> rfl

/-- What a response tells after its move tells of no change of state. -/
theorem change?_of_tells {core : Core} {response : Response} {event : Event}
    (h : core.Tells response event) : event.change? = none := by
  cases event with
  | stateChanged previous next => cases h
  | _ => rfl

/-- What a response asks for by itself is about no point. -/
theorem point?_of_resumesOn (core : Core) (response : Response) :
    ∀ request ∈ (if core.resumesOn response then [Request.resume false] else []),
      request.point? = none := by
  intro request hm
  split at hm
  · rw [List.mem_singleton.mp hm]
    rfl
  · cases hm

end Core

namespace Session

namespace Step

/-- The step moves the state along one edge at most, and publishes that. -/
def Follows (step : Step) (next : Option SessionState) : Prop :=
  (∀ target ∈ next, Edge step.before.state target) ∧
    step.after.state = next.getD step.before.state ∧
      step.after.core.changes =
        step.before.core.changes ++ next.toList.map fun target => (step.before.state, target)

/-- A step that publishes a move, and nothing else about the state. -/
theorem follows_of_publishes {step : Step} {next : Option SessionState} {events : List Event}
    (he : ∀ target, next = some target → Edge step.before.state target)
    (hs : step.after.state = next.getD step.before.state)
    (hp : step.before.core.Publishes step.after.core (Core.moved step.before.state next ++ events))
    (hn : ∀ event ∈ events, event.change? = none) : step.Follows next := by
  refine ⟨he, hs, ?_⟩
  have hnone : events.filterMap Event.change? = [] := List.filterMap_eq_nil_iff.mpr hn
  rw [hp.changes, List.filterMap_append, Core.filterMap_moved, hnone, List.append_nil]

/-- Every step follows one edge at most, and publishes that. -/
theorem exists_follows (step : Step) : ∃ next, step.Follows next := by
  have hnil : ∀ event ∈ ([] : List Event), event.change? = none :=
    fun _ hm => absurd hm List.not_mem_nil
  cases step.effect with
  | keeps hm registry ignored hc =>
    refine ⟨none, follows_of_publishes nofun ?_ ?_ hnil⟩
    · rw [state, hc]
      rfl
    · rw [hc]
      exact .refl step.before.core
  | writes request hw hh hr hc =>
    refine ⟨step.before.state.afterSent request.word, follows_of_publishes
      (fun _ => SessionState.edge_of_afterSent) hw.state ?_ hnil⟩
    rw [hc, List.append_nil]
    exact step.before.core.publishes_afterSent request
  | hears response hw hh hr hc =>
    obtain ⟨events, hpublishes, htells⟩ := step.before.core.publishes_respond response
    refine ⟨step.before.state.afterReceived response.word, follows_of_publishes
      (fun _ => SessionState.edge_of_afterReceived) ?_ ?_
      fun event hm => Core.change?_of_tells (htells event hm)⟩
    · rw [state, hc]
      exact step.before.core.state_respond response
    · rw [hc]
      exact hpublishes
  | outputs hm text hc =>
    have hp : step.before.core.Publishes step.after.core
        (Core.moved step.before.state none ++ [.output text]) := by
      rw [hc]
      exact step.before.core.publishes_emit _
    refine ⟨none, follows_of_publishes nofun ?_ hp (List.forall_mem_singleton.mpr rfl)⟩
    rw [state, hc]
    rfl
  | loses hm loss hc =>
    refine ⟨step.before.state.afterLoss, follows_of_publishes
      (fun _ => SessionState.edge_of_afterLoss) ?_ (hc ▸ step.before.core.publishes_disconnect loss)
      fun event hm => ?_⟩
    · rw [state, hc]
      exact step.before.core.state_disconnect loss
    · obtain ⟨next, -, rfl⟩ := List.mem_map.mp hm
      rfl

/-- Every step leaves the state as it is, or moves it along an edge. -/
theorem state_or_edge (step : Step) :
    step.after.state = step.before.state ∨ Edge step.before.state step.after.state := by
  obtain ⟨next, hedge, hstate, -⟩ := step.exists_follows
  cases next with
  | none => exact .inl hstate
  | some next =>
    rw [hstate]
    exact .inr (hedge next rfl)

/-- The step takes in a response by which a program starts. -/
def Starts (step : Step) : Prop :=
  ∃ response ∈ step.heard,
    step.before.state.isStart (step.before.state.afterReceived response.word) = true

/-- What follows from the start of a program makes all points, behind at most what is about no
point. -/
theorem Starts.exists_returned {step : Step} (h : step.Starts) : ∃ more : List Request,
    (∀ request ∈ more, request.point? = none) ∧
      step.returned = more ++ step.after.core.registry.syncRequests := by
  obtain ⟨response, hm, hs⟩ := h
  have hr := returned_of_heard hm
  rw [if_pos hs] at hr
  exact ⟨_, Core.point?_of_resumesOn _ response, hr⟩

/-- What follows from any other frame is about no point. -/
theorem point?_of_mem_returned {step : Step} (h : ¬ step.Starts) {request : Request}
    (hm : request ∈ step.returned) : request.point? = none := by
  obtain ⟨response, hh⟩ := heard_of_mem_returned hm
  rw [returned_of_heard hh, if_neg fun hs => h ⟨response, hh, hs⟩, List.append_nil] at hm
  exact Core.point?_of_resumesOn _ response request hm

/-- A step by which a program starts leads from a state without one to a live one. -/
theorem Starts.state {step : Step} (h : step.Starts) :
    (step.before.state = .idle ∨ step.before.state = .connecting) ∧
      step.after.state.isLive = true := by
  obtain ⟨response, hm, hs⟩ := h
  have hafter : step.after.state.isLive = true := by
    rw [Session.state, (core_of_heard hm).2, Core.state_respond]
    exact (SessionState.isLive_of_isStart hs).2
  refine ⟨?_, hafter⟩
  cases hn : step.before.state.afterReceived response.word with
  | none =>
    rw [hn] at hs
    cases hs
  | some next =>
    rw [hn, SessionState.isStart, Bool.and_eq_true, Bool.or_eq_true, beq_iff_eq,
      beq_iff_eq] at hs
    exact hs.1

end Step

/-! ## Runs -/

/-- The state of a session, once it is neither idle nor waits for a program, is never so again. -/
theorem begun_step (step : Step)
    (h : step.before.state ≠ .idle ∧ step.before.state ≠ .connecting) :
    step.after.state ≠ .idle ∧ step.after.state ≠ .connecting := by
  rcases step.state_or_edge with hs | hedge
  · rwa [hs]
  · exact ⟨hedge.target.1, fun hc => h.1 (hedge.target.2 hc)⟩

/-- A session that has left the idle state does not return there. -/
theorem left_step (step : Step) (h : step.before.state ≠ .idle) : step.after.state ≠ .idle := by
  rcases step.state_or_edge with hs | hedge
  · rwa [hs]
  · exact hedge.target.1

/-- The changes of state that a run publishes form a path to its last state. -/
theorem path_run (session : Session) (h : Path .idle session.core.changes session.state)
    (actions : List Action) :
    Path .idle (session.run actions).core.changes (session.run actions).state := by
  refine (forall_steps (P := fun session => Path .idle session.core.changes session.state)
    (fun step hpath => ?_) h actions).2
  obtain ⟨next, hedge, hstate, hchanges⟩ := step.exists_follows
  rw [hchanges, hstate]
  refine hpath.append ?_
  cases next with
  | none => exact .nil _
  | some next => exact .cons (hedge next rfl) (.nil _)

/-- Neither the idle state nor the wait for a program is entered again. -/
theorem not_reentered {session : Session} {state : SessionState}
    (hs : state = .idle ∨ state = .connecting) {middle : List Action} (later : List Action)
    (h : session.state = state) (hleft : (session.run middle).state ≠ state) :
    (session.run (middle ++ later)).state ≠ state := by
  rw [run_append]
  rcases hs with rfl | rfl
  · exact (forall_steps (P := fun session => session.state ≠ .idle) left_step hleft later).2
  · have hidle : (session.run middle).state ≠ .idle :=
      (forall_steps (P := fun session => session.state ≠ .idle) left_step
        (by rw [h]; exact nofun) middle).2
    exact (forall_steps (P := fun session => session.state ≠ .idle ∧ session.state ≠ .connecting)
      begun_step ⟨hidle, hleft⟩ later).2.2

/-- A program starts once in a run. -/
theorem pairwise_starts (session : Session) (actions : List Action) :
    (steps session actions).Pairwise fun first second => ¬ (first.Starts ∧ second.Starts) := by
  induction actions generalizing session with
  | nil => exact .nil
  | cons action actions ih =>
    refine List.pairwise_cons.mpr ⟨fun second hm ⟨hfirst, hsecond⟩ => ?_, ih _⟩
    -- Behind a start the state is live, so it is never again one from which a program starts.
    have hbegun : (Step.mk session action).after.state ≠ .idle ∧
        (Step.mk session action).after.state ≠ .connecting := by
      have hlive := hfirst.state.2
      constructor <;> intro hs <;> rw [hs] at hlive <;> cases hlive
    obtain ⟨hsteps, -⟩ := forall_steps
      (P := fun session => session.state ≠ .idle ∧ session.state ≠ .connecting)
      begun_step hbegun actions
    rcases hsecond.state.1 with hs | hs
    · exact (hsteps second hm).1 hs
    · exact (hsteps second hm).2 hs

/-- A run leads a session through its life. -/
structure IsLifecycle (session : Session) (actions : List Action) : Prop where
  /-- The changes of state that were published form a path from the idle state to the present one,
  along the edges of a life. -/
  path : Path .idle (session.run actions).core.changes (session.run actions).state
  /-- Neither the idle state nor the wait for a program is entered again. -/
  not_reentered : ∀ earlier middle later, actions = earlier ++ (middle ++ later) →
    ∀ state, state = .idle ∨ state = .connecting → (session.run earlier).state = state →
      (session.run (earlier ++ middle)).state ≠ state → (session.run actions).state ≠ state
  /-- A state in which the session is over is not left. -/
  not_left : ∀ earlier later, actions = earlier ++ later →
    (session.run earlier).state.isTerminal = true →
      (session.run actions).state = (session.run earlier).state
  /-- When a program starts, the frame is answered by the requests that make all points, behind at
  most what is about no point. -/
  resync : ∀ step ∈ steps session actions, step.Starts → ∃ more : List Request,
    (∀ request ∈ more, request.point? = none) ∧
      step.returned = more ++ step.after.core.registry.syncRequests
  /-- No other frame is answered by a request about a point. -/
  resync_only : ∀ step ∈ steps session actions, ¬ step.Starts →
    ∀ request ∈ step.returned, request.point? = none
  /-- A program starts once. -/
  resync_once : (steps session actions).Pairwise fun first second =>
    ¬ (first.Starts ∧ second.Starts)

/-- Every run of a session leads it through its life. -/
theorem isLifecycle_start (config : SessionConfig) (script : List Wire.WriteOutcome)
    (broken : Option Wire.IoFault) (actions : List Action) :
    IsLifecycle (start config script broken) actions where
  path := path_run (start config script broken) (.nil .idle) actions
  not_reentered earlier middle later ha state hs hbefore hleft := by
    rw [run_append] at hleft
    rw [ha, run_append]
    exact Session.not_reentered hs later hbefore hleft
  not_left earlier later ha ht := by
    rw [ha, run_append]
    refine (forall_steps
      (P := fun next => next.state = ((start config script broken).run earlier).state)
      (fun step h => ?_) rfl later).2
    rw [state_of_terminal (by rw [h]; exact ht), h]
  resync _ _ hstarts := hstarts.exists_returned
  resync_only _ _ hn _ hm := Step.point?_of_mem_returned hn hm
  resync_once := pairwise_starts _ actions

end Session

end DebugLink
