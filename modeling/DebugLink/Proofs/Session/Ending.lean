import DebugLink.Proofs.Session.Lifecycle
import DebugLink.Proofs.Session.Matching

/-!
# How a session ends

A session ends by the exit of its program or by the loss of the connection, and many things lead
there: the end of the stream, a fault of what comes in, a write that fails, a timer that runs out,
and the wish of the user. Whatever comes first, a session that has ended its work is over, nothing
waits for a reply in it, and the loss of the connection is told once, directly behind the change of
state, unless the program has exited. The debuggee is asked to end once, and the time at which the
connection is given up at the latest is set once.
-/

namespace DebugLink

/-- Whether an event tells that the connection is lost, as a change of state or by itself. -/
def Event.tellsLoss : Event → Bool
  | stateChanged _ next => next == .disconnected
  | disconnected _ => true
  | _ => false

/-! ## The knowledge of a session that is over -/

namespace Core

/-- The loss of the connection leaves nothing that waits for a reply. -/
theorem pending_disconnect (core : Core) (loss : Loss) : (core.disconnect loss).pending = [] := by
  unfold disconnect
  dsimp only
  split
  · rfl
  · exact pending_moveTo { core with pending := [] } _

/-- The end of the program leaves nothing that waits for a reply. -/
theorem pending_respond_exit (core : Core) {response : Response} (h : response.word = .exit) :
    (core.respond response).2.pending = [] := by
  cases response <;> first | rfl | cases h

/-- Where nothing waits for a reply, a response leaves nothing that does. -/
theorem pending_respond_of_nil {core : Core} (h : core.pending = []) (response : Response) :
    (core.respond response).2.pending = [] := by
  by_cases hexit : response.word = .exit
  · exact core.pending_respond_exit hexit
  · rw [core.pending_respond hexit, h, Pending.advance]
    split <;> rfl

end Core

namespace Session

/-- The state of a session tells how it has ended. -/
structure EndsWell (session : Session) : Prop where
  /-- A session that has ended its work is over. -/
  terminal : session.ended = true → session.state.isTerminal = true
  /-- When a session is over, nothing waits for a reply. -/
  settled : session.state.isTerminal = true → session.core.pending = []
  /-- No event tells of a loss before the connection is lost. -/
  untold : session.state ≠ .disconnected →
    ∀ event ∈ session.core.events.toList, event.tellsLoss = false
  /-- When the connection is lost, the loss is told once, directly behind the change of state. -/
  told : session.state = .disconnected → ∃ front previous loss back,
    session.core.events.toList =
        front ++ .stateChanged previous .disconnected :: .disconnected loss :: back ∧
      ∀ event ∈ front ++ back, event.tellsLoss = false

/-! ## The deadline -/

/-- Once a deadline is set, nothing is done to end the debuggee. -/
theorem beginShutdown_of_deadline {session : Session} {deadline : Nat}
    (h : session.deadline = some deadline) (now : Nat) : session.beginShutdown now = session := by
  rw [beginShutdown, h]
  rfl

/-- Beginning to end the debuggee sets a deadline. -/
theorem exists_deadline_beginShutdown (now : Nat) (session : Session) :
    ∃ deadline, (session.beginShutdown now).deadline = some deadline := by
  unfold beginShutdown
  split
  · next h => exact Option.isSome_iff_exists.mp h
  · split
    · exact ⟨_, rfl⟩
    · split <;> exact ⟨_, rfl⟩

/-- A look at the timers gives up behind the deadline, and else leaves a session with a deadline
alone. -/
theorem checkTimers_of_deadline {session : Session} {deadline : Nat}
    (h : session.deadline = some deadline) (now : Nat) :
    session.checkTimers now =
      if now ≥ deadline then session.lose .shutdownTimeout else session := by
  have hset : session.setDeadline now = session := by
    rw [setDeadline, h, Option.isNone_some, Bool.and_false, if_neg Bool.false_ne_true]
  rw [checkTimers, hset, h]

/-- What every piece of work keeps: the limits, a deadline that is set, and the work itself, unless
the connection is lost. -/
structure Proceeds (before after : Session) : Prop where
  /-- The limits stay. -/
  config : after.config = before.config
  /-- A deadline stays. -/
  deadline : ∀ deadline, before.deadline = some deadline → after.deadline = some deadline
  /-- Only the loss of the connection ends the work. -/
  ended : after.ended = before.ended ∨ ∃ session loss, after = lose session loss

/-- Beginning to end the debuggee proceeds. -/
theorem proceeds_beginShutdown (now : Nat) (session : Session) :
    session.Proceeds (session.beginShutdown now) := by
  cases hd : session.deadline with
  | some deadline =>
    rw [beginShutdown_of_deadline hd]
    exact ⟨rfl, fun _ h => h, .inl rfl⟩
  | none =>
    have hunset : ∀ deadline, session.deadline ≠ some deadline := by simp [hd]
    rcases beginShutdown_cases now session with ⟨deadline, hs⟩ |
      ⟨-, bytes, sink, deadline, -, -, hs⟩ | ⟨-, sink, part, deadline, -, hs⟩ <;> rw [hs] <;>
      exact ⟨rfl, fun _ h => absurd h (hunset _), .inl rfl⟩

/-- A look at the timers proceeds. -/
theorem proceeds_checkTimers (now : Nat) (session : Session) :
    session.Proceeds (session.checkTimers now) := by
  cases hd : session.deadline with
  | some deadline =>
    rw [checkTimers_of_deadline hd]
    split
    · exact ⟨rfl, fun _ h => h, .inr ⟨_, _, rfl⟩⟩
    · exact ⟨rfl, fun _ h => h, .inl rfl⟩
  | none =>
    have hunset : ∀ deadline, session.deadline ≠ some deadline := by simp [hd]
    obtain ⟨deadline, hs | ⟨loss, hs⟩ | ⟨-, bytes, sink, -, -, hs⟩ |
      ⟨-, fault, sink, part, -, hs⟩⟩ := checkTimers_cases now session <;> rw [hs]
    · exact ⟨rfl, fun _ h => absurd h (hunset _), .inl rfl⟩
    · exact ⟨rfl, fun _ h => absurd h (hunset _), .inr ⟨_, _, rfl⟩⟩
    · exact ⟨rfl, fun _ h => absurd h (hunset _), .inl rfl⟩
    · exact ⟨rfl, fun _ h => absurd h (hunset _), .inr ⟨_, _, rfl⟩⟩

/-! ## One step -/

namespace Step

variable {step : Step}

/-- A step proceeds. -/
theorem proceeds (step : Step) : step.before.Proceeds step.after := by
  have hphase : ∀ phase, step.before.perform step.action = step.before.andThen phase →
      step.before.Proceeds (phase step.before) → step.before.Proceeds step.after := by
    intro phase hp hproceeds
    rcases phase_cases hp with ⟨-, hafter⟩ | ⟨-, hafter⟩ <;> rw [hafter]
    · exact ⟨rfl, fun _ h => h, .inl rfl⟩
    · exact hproceeds
  cases ha : step.action with
  | receive now =>
    refine hphase (receive now) (by rw [ha, perform]) ?_
    rcases receive_cases now step.before with ⟨reader, hr⟩ | ⟨reader, loss, hr⟩ |
      ⟨reader, frame, requests, core, -, -, hr⟩ | ⟨reader, loss, hr⟩ <;> rw [hr]
    · exact ⟨rfl, fun _ h => h, .inl rfl⟩
    · exact ⟨rfl, fun _ h => h, .inr ⟨_, _, rfl⟩⟩
    · exact ⟨rfl, fun _ h => h, .inl rfl⟩
    · exact ⟨rfl, fun _ h => h, .inr ⟨_, _, rfl⟩⟩
  | command now =>
    rcases command_cases ha with ⟨-, hafter⟩ | ⟨-, command, rest, -, -, hafter⟩ <;> rw [hafter]
    · exact ⟨rfl, fun _ h => h, .inl rfl⟩
    cases command with
    | shutdown =>
      have hproceeds := proceeds_beginShutdown now { step.before with commands := rest }
      exact ⟨hproceeds.config, hproceeds.deadline, hproceeds.ended⟩
    | send ticket request =>
      rcases runCommand_send_cases now { step.before with commands := rest } ticket request with
        ⟨-, error, -, hs⟩ | ⟨-, bytes, sink, -, -, hs⟩ | ⟨-, fault, sink, part, -, hs⟩ <;> rw [hs]
      · exact ⟨rfl, fun _ h => h, .inl rfl⟩
      · exact ⟨rfl, fun _ h => h, .inl rfl⟩
      · exact ⟨rfl, fun _ h => h, .inr ⟨_, _, rfl⟩⟩
  | followUp now =>
    rcases followUp_cases ha with hafter | ⟨request, rest, hf, -, hafter⟩ <;> rw [hafter]
    · exact ⟨rfl, fun _ h => h, .inl rfl⟩
    rcases sendNextFollowUp_cases now hf with ⟨-, hs⟩ | ⟨-, bytes, sink, -, -, hs⟩ |
      ⟨-, fault, sink, part, -, hs⟩ <;> rw [hs]
    · exact ⟨rfl, fun _ h => h, .inl rfl⟩
    · exact ⟨rfl, fun _ h => h, .inl rfl⟩
    · exact ⟨rfl, fun _ h => h, .inr ⟨_, _, rfl⟩⟩
  | timers now =>
    exact hphase (checkTimers now) (by rw [ha, perform]) (proceeds_checkTimers now step.before)
  | _ =>
    rw [after, ha]
    exact ⟨rfl, fun _ h => h, .inl rfl⟩

/-- A step by which a session ends its work leaves it over. -/
theorem isTerminal_of_ended (h : step.before.ended = true → step.before.state.isTerminal = true)
    (he : step.after.ended = true) : step.after.state.isTerminal = true := by
  rcases step.proceeds.ended with hsame | ⟨session, loss, hlose⟩
  · rw [hsame] at he
    rw [state_of_terminal (h he)]
    exact h he
  · rw [hlose]
    exact isTerminal_lose session loss

/-- A step that leaves a session over leaves nothing that waits for a reply. -/
theorem pending_of_terminal
    (h : step.before.state.isTerminal = true → step.before.core.pending = [])
    (ht : step.after.state.isTerminal = true) : step.after.core.pending = [] := by
  cases step.effect with
  | keeps _ registry ignored hc =>
    rw [state, hc] at ht
    rw [hc]
    exact h ht
  | writes request hw hh hr hc =>
    -- A written request moves a session that is not over to a state in which it is not over.
    exfalso
    rw [hw.state] at ht
    cases hn : step.before.state.afterSent request.word with
    | none =>
      rw [hn, Option.getD_none, hw.admits.notTerminal] at ht
      cases ht
    | some next =>
      rw [hn] at ht
      obtain ⟨-, -, rfl⟩ | ⟨-, -, rfl⟩ := SessionState.afterSent_eq_some hn <;> cases ht
  | hears response hw hh hr hc =>
    rw [hc]
    rw [state, hc, Core.state_respond] at ht
    cases hn : step.before.core.state.afterReceived response.word with
    | none =>
      rw [hn] at ht
      exact Core.pending_respond_of_nil (h ht) response
    | some next =>
      rw [hn] at ht
      obtain ⟨-, ⟨-, hexit⟩ | ⟨rfl, -⟩ | ⟨rfl, -⟩⟩ := SessionState.afterReceived_eq_some hn
      · exact step.before.core.pending_respond_exit hexit
      · cases ht
      · cases ht
  | outputs _ text hc =>
    rw [state, hc] at ht
    rw [hc]
    exact h ht
  | loses _ loss hc =>
    rw [hc]
    exact step.before.core.pending_disconnect loss

/-- The step tells of no loss, and does not lose the connection. -/
structure Untold (step : Step) (events : List Event) : Prop where
  /-- The connection is lost only if it was so before. -/
  state : step.after.state = .disconnected → step.before.state = .disconnected
  /-- No event tells of a loss. -/
  events : ∀ event ∈ events, event.tellsLoss = false

/-- A step tells of no loss, or it loses the connection and tells that twice: as a change of state
and by itself. -/
theorem exists_publishes (step : Step) : ∃ events,
    step.before.core.Publishes step.after.core events ∧
      (step.Untold events ∨
        step.before.state ≠ .disconnected ∧ step.after.state = .disconnected ∧
          ∃ previous loss,
            events = [.stateChanged previous .disconnected, .disconnected loss]) := by
  have hmoved : ∀ next : Option SessionState, next ≠ some .disconnected →
      ∀ event ∈ Core.moved step.before.core.state next, event.tellsLoss = false := by
    intro next hn event hm
    obtain ⟨target, ht, rfl⟩ := List.mem_map.mp hm
    exact beq_eq_false_iff_ne.mpr fun he => hn (by rw [Option.mem_toList.mp ht, he])
  have hstate : ∀ next : Option SessionState, next ≠ some .disconnected →
      step.after.state = next.getD step.before.state →
        step.after.state = .disconnected → step.before.state = .disconnected := by
    intro next hn hs hd
    cases next with
    | none => exact hs.symm.trans hd
    | some target => exact absurd (congrArg some (hs.symm.trans hd)) hn
  cases step.effect with
  | keeps _ registry ignored hc =>
    refine ⟨[], by rw [hc]; exact .refl step.before.core, .inl ⟨?_, by simp⟩⟩
    rw [state, hc]
    exact id
  | writes request hw hh hr hc =>
    have hn := step.before.state.afterSent_ne_disconnected request.word
    exact ⟨_, by rw [hc]; exact step.before.core.publishes_afterSent request,
      .inl ⟨hstate _ hn hw.state, hmoved _ hn⟩⟩
  | hears response hw hh hr hc =>
    have hn := step.before.core.state.afterReceived_ne_disconnected response.word
    obtain ⟨events, hpublishes, htells⟩ := step.before.core.publishes_respond response
    refine ⟨_, by rw [hc]; exact hpublishes, .inl ⟨hstate _ hn ?_, fun event hm => ?_⟩⟩
    · rw [state, hc]
      exact step.before.core.state_respond response
    · rcases List.mem_append.mp hm with hm | hm
      · exact hmoved _ hn event hm
      · have ht := htells event hm
        cases event with
        | stateChanged | disconnected => cases ht
        | _ => rfl
  | outputs _ text hc =>
    refine ⟨_, by rw [hc]; exact step.before.core.publishes_emit _, .inl ⟨?_, ?_⟩⟩
    · rw [state, hc]
      exact id
    · exact List.forall_mem_singleton.mpr rfl
  | loses _ loss hc =>
    have hpublishes := step.before.core.publishes_disconnect loss
    have hafter : step.after.state = step.before.state.afterLoss.getD step.before.state := by
      rw [state, hc]
      exact step.before.core.state_disconnect loss
    cases hn : step.before.core.state.afterLoss with
    | none =>
      rw [hn] at hpublishes
      refine ⟨[], by rw [hc]; exact hpublishes, .inl ⟨?_, by simp⟩⟩
      have hkept : step.before.state.afterLoss ≠ some .disconnected := by
        rw [state, hn]
        exact Option.some_ne_none _ |>.symm
      exact hstate _ hkept hafter
    | some next =>
      obtain ⟨ht, rfl⟩ := SessionState.afterLoss_eq_some hn
      rw [hn] at hpublishes
      refine ⟨_, by rw [hc]; exact hpublishes, .inr ⟨?_, ?_, _, loss, rfl⟩⟩
      · intro hd
        rw [show step.before.core.state = .disconnected from hd] at ht
        cases ht
      · rw [hafter, state, hn]
        rfl

/-- A step keeps what the state of a session tells of its end. -/
theorem endsWell (step : Step) (h : step.before.EndsWell) : step.after.EndsWell := by
  obtain ⟨events, hpublishes, hcases⟩ := step.exists_publishes
  refine ⟨isTerminal_of_ended h.terminal, pending_of_terminal h.settled, ?_, ?_⟩
  case refine_1 =>
    intro hs
    rcases hcases with hu | ⟨-, hd, -⟩
    · have hbefore : step.before.state ≠ .disconnected := fun hd => hs (by
        rw [state_of_terminal (by rw [hd]; rfl), hd])
      rw [hpublishes]
      exact List.forall_mem_append.mpr ⟨h.untold hbefore, hu.events⟩
    · exact absurd hd hs
  case refine_2 =>
    intro hs
    rcases hcases with hu | ⟨hbefore, -, previous, loss, rfl⟩
    · obtain ⟨front, previous, loss, back, he, hquiet⟩ := h.told (hu.state hs)
      refine ⟨front, previous, loss, back ++ events, ?_, ?_⟩
      · rw [hpublishes, he, List.append_assoc]
        rfl
      · rw [← List.append_assoc]
        exact List.forall_mem_append.mpr ⟨hquiet, hu.events⟩
    · refine ⟨_, previous, loss, [], hpublishes, ?_⟩
      rw [List.append_nil]
      exact h.untold hbefore

end Step

/-! ## A life to the end -/

/-- The queue of commands is looked at when nobody is left who could put one in. Commands that are
still in it are carried out before that is seen. -/
def noteDeserted (now : Nat) (session : Session) : Session :=
  if session.commands = [] then session.beginShutdown now else session

/-- What can happen to a session. -/
inductive Happening where
  /-- A step of the session, of its user or of its debuggee. -/
  | step (action : Action)
  /-- The session finds that nobody is left who could give it commands. -/
  | deserted (now : Nat)

/-- What happens to a session changes it. -/
def undergo (session : Session) : Happening → Session
  | .step action => session.perform action
  | .deserted now => session.andThen (noteDeserted now)

/-- One thing after the other happens to a session. -/
def live (session : Session) (happenings : List Happening) : Session :=
  happenings.foldl undergo session

/-- Nothing happens. -/
@[simp] theorem live_nil (session : Session) : session.live [] = session := rfl

/-- The first thing that happens. -/
@[simp] theorem live_cons (session : Session) (happening : Happening)
    (happenings : List Happening) :
    session.live (happening :: happenings) = (session.undergo happening).live happenings := rfl

/-- What happens in two stretches happens in one. -/
theorem live_append (session : Session) (front back : List Happening) :
    session.live (front ++ back) = (session.live front).live back := List.foldl_append

/-- A session that is deserted does what it would do if it were asked to end. -/
theorem leadsTo_undergo (session : Session) (happening : Happening) :
    session.LeadsTo (session.undergo happening) := by
  cases happening with
  | step action => exact .step session action
  | deserted now =>
    refine leadsTo_andThen fun hworks => ?_
    rw [noteDeserted]
    split
    · next hc =>
      refine ⟨[.askShutdown, .command now], ?_⟩
      have hworks' : (session.enqueue .shutdown).ended = false := hworks
      have hqueue : { session with commands := [] } = session := by rw [← hc]
      have hasked : (session.enqueue .shutdown).commands = [.shutdown] := by rw [enqueue, hc]; rfl
      rw [run_cons, run_cons, run_nil, perform, perform, andThen_of_not_ended hworks',
        runNextCommand, hasked]
      exact (congrArg (beginShutdown now) hqueue).symm
    · exact .refl session

/-- A life is a run. -/
theorem leadsTo_live (session : Session) (happenings : List Happening) :
    session.LeadsTo (session.live happenings) := by
  induction happenings generalizing session with
  | nil => exact .refl session
  | cons happening happenings ih => exact (leadsTo_undergo session happening).trans (ih _)

/-- What every step keeps is kept in every session that a run leads to. -/
theorem LeadsTo.keeps {P : Session → Prop} (hstep : ∀ step : Step, P step.before → P step.after)
    {session next : Session} (h : session.LeadsTo next) (hp : P session) : P next := by
  obtain ⟨actions, rfl⟩ := h
  exact (forall_steps hstep hp actions).2

/-- The happening begins to end the debuggee: a command to do so is carried out, or nobody is left
who could give a command. -/
def beginsShutdown (session : Session) : Happening → Bool
  | .step (.command _) => !session.ended && session.commands.head? == some .shutdown
  | .step _ => false
  | .deserted _ => !session.ended && session.commands.isEmpty

/-- The bytes that a session writes while it lives, to end the debuggee. -/
def shutdownBytes (session : Session) : List Happening → Bytes
  | [] => []
  | happening :: happenings =>
    let next := session.undergo happening
    (if session.beginsShutdown happening then
      next.sink.accepted.drop session.sink.accepted.length else []) ++
      next.shutdownBytes happenings

/-- What begins to end the debuggee does nothing else but take a command out of the queue. -/
theorem undergo_of_beginsShutdown {session : Session} {happening : Happening}
    (h : session.beginsShutdown happening = true) :
    ∃ now commands, session.undergo happening =
      { session with commands }.beginShutdown now := by
  cases happening with
  | step action =>
    cases action with
    | command now =>
      rw [beginsShutdown, Bool.and_eq_true, Bool.not_eq_true', beq_iff_eq] at h
      obtain ⟨rest, hrest⟩ := List.head?_eq_some_iff.mp h.2
      refine ⟨now, rest, ?_⟩
      rw [undergo, perform, andThen_of_not_ended h.1, runNextCommand, hrest]
      rfl
    | _ => cases h
  | deserted now =>
    rw [beginsShutdown, Bool.and_eq_true, Bool.not_eq_true', List.isEmpty_iff] at h
    refine ⟨now, session.commands, ?_⟩
    rw [undergo, andThen_of_not_ended h.1, noteDeserted, if_pos h.2]

/-- Once a deadline is set, nothing is written to end the debuggee. -/
theorem shutdownBytes_of_deadline {session : Session} {deadline : Nat}
    (h : session.deadline = some deadline) (happenings : List Happening) :
    session.shutdownBytes happenings = [] := by
  induction happenings generalizing session with
  | nil => rfl
  | cons happening happenings ih =>
    have hnext : (session.undergo happening).deadline = some deadline :=
      (leadsTo_undergo session happening).keeps (P := fun next => next.deadline = some deadline)
        (fun step => step.proceeds.deadline deadline) h
    rw [shutdownBytes, ih hnext, List.append_nil]
    split
    · next hb =>
      obtain ⟨now, commands, hs⟩ := undergo_of_beginsShutdown hb
      have hset : { session with commands }.deadline = some deadline := h
      rw [hs, beginShutdown_of_deadline hset]
      exact List.drop_length
    · rfl

/-- While it lives, a session writes at most one request to end the debuggee, or a part of one. -/
theorem shutdownBytes_cases (session : Session) (happenings : List Happening) :
    session.shutdownBytes happenings = [] ∨ ∃ rest,
      Wire.encode session.config.payloadLimit Request.shutdown.toMessage =
        .ok (session.shutdownBytes happenings ++ rest) := by
  induction happenings generalizing session with
  | nil => exact .inl rfl
  | cons happening happenings ih =>
    rw [shutdownBytes]
    split
    · next hb =>
      obtain ⟨now, commands, hs⟩ := undergo_of_beginsShutdown hb
      obtain ⟨deadline, hd⟩ := exists_deadline_beginShutdown now { session with commands }
      rw [← hs] at hd
      rw [shutdownBytes_of_deadline hd, List.append_nil, hs]
      rcases beginShutdown_cases now { session with commands } with ⟨_, hs⟩ |
        ⟨-, bytes, sink, _, he, hw, hs⟩ | ⟨-, sink, part, _, ht, hs⟩ <;> rw [hs]
      · exact .inl List.drop_length
      · have hbytes : sink.accepted.drop session.sink.accepted.length = bytes := by
          rw [hw, List.drop_left]
        refine .inr ⟨[], ?_⟩
        rw [List.append_nil]
        exact he.trans (congrArg Except.ok hbytes.symm)
      · have hpart : sink.accepted.drop session.sink.accepted.length = part := by
          rw [ht.accepted, List.drop_left]
        rcases ht.proper with hnone | ⟨rest, -, he⟩
        · exact .inl (hpart.trans hnone)
        · exact .inr ⟨rest, he.trans (congrArg (fun part => Except.ok (part ++ rest)) hpart.symm)⟩
    · have hconfig : (session.undergo happening).config = session.config :=
        (leadsTo_undergo session happening).keeps (P := fun next => next.config = session.config)
          (fun step h => step.proceeds.config.trans h) rfl
      rw [List.nil_append, ← hconfig]
      exact ih _

/-- A session ends once, whatever happens to it. -/
structure EndsOnce (session : Session) (happenings : List Happening) : Prop where
  /-- The state tells how it has ended, if it has. -/
  well : (session.live happenings).EndsWell
  /-- It does so behind each round of work, too. -/
  round : ∀ now, ((session.live happenings).round now).EndsWell
  /-- Once the program has exited, the loss of the connection is never told. -/
  exited : ∀ earlier later, happenings = earlier ++ later →
    (session.live earlier).state = .exited →
      ∀ event ∈ (session.live happenings).core.events.toList, event.tellsLoss = false
  /-- Once a deadline is set, it stays. -/
  deadline : ∀ earlier later, happenings = earlier ++ later →
    ∀ deadline, (session.live earlier).deadline = some deadline →
      (session.live happenings).deadline = some deadline
  /-- All that is written to end the debuggee is one request at most, or a part of one. -/
  shutdown : session.shutdownBytes happenings = [] ∨ ∃ rest,
    Wire.encode session.config.payloadLimit Request.shutdown.toMessage =
      .ok (session.shutdownBytes happenings ++ rest)

/-- A new session has not ended. -/
theorem endsWell_start (config : SessionConfig) (script : List Wire.WriteOutcome)
    (broken : Option Wire.IoFault) : (start config script broken).EndsWell where
  terminal := nofun
  settled := nofun
  untold _ _ hm := absurd hm List.not_mem_nil
  told := nofun

/-- Every session ends once, whatever happens to it. -/
theorem endsOnce_start (config : SessionConfig) (script : List Wire.WriteOutcome)
    (broken : Option Wire.IoFault) (happenings : List Happening) :
    EndsOnce (start config script broken) happenings := by
  have hwell : ((start config script broken).live happenings).EndsWell :=
    (leadsTo_live _ happenings).keeps Step.endsWell (endsWell_start config script broken)
  refine ⟨hwell, fun now => ?_, fun earlier later hsplit he => ?_,
    fun earlier later hsplit deadline hd => ?_, shutdownBytes_cases _ happenings⟩
  case refine_1 => exact (leadsTo_round now _).keeps Step.endsWell hwell
  case refine_2 =>
    have hexited : ((start config script broken).live happenings).state = .exited := by
      rw [hsplit, live_append]
      refine (leadsTo_live _ later).keeps (P := fun next => next.state = .exited)
        (fun step h => ?_) he
      rw [state_of_terminal (by rw [h]; rfl), h]
    exact hwell.untold (by rw [hexited]; exact nofun)
  case refine_3 =>
    rw [hsplit, live_append]
    exact (leadsTo_live _ later).keeps (P := fun next => next.deadline = some deadline)
      (fun step => step.proceeds.deadline deadline) hd

end Session

end DebugLink
