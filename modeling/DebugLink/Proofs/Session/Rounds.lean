import DebugLink.Proofs.Session.Lifecycle

/-!
# The order of the work

A session does its work in rounds: it takes in a frame, carries out the commands until none waits,
writes the requests that follow until none waits, and looks at the timers. Its user and its
debuggee may act between any two steps of that work, and nothing else may. The runs that keep this
order are runs, and the rounds keep it. So when a frame is taken in, nothing is left that follows
from an earlier one.
-/

namespace DebugLink

/-- Whether a step is one of the user or of the debuggee, and none of the session's own work. -/
def Action.isOutside : Action → Bool
  | .receive _ | .command _ | .followUp _ | .timers _ => false
  | _ => true

namespace Session

/-- Nothing is written any more: the connection is given up, or the session is over. -/
def IsOver (session : Session) : Prop := session.ended = true ∨ session.state.isTerminal = true

namespace Step

variable {step : Step}

/-- A session that has given up its connection does not take it up again. -/
theorem ended_step (h : step.before.ended = true) : step.after.ended = true := by
  have hphase : ∀ phase, step.before.perform step.action = step.before.andThen phase →
      step.after.ended = true := by
    intro phase hp
    rcases phase_cases hp with ⟨-, hafter⟩ | ⟨he, -⟩
    · rwa [hafter]
    · rw [h] at he
      cases he
  cases ha : step.action with
  | receive now => exact hphase (receive now) (by rw [ha, perform])
  | command now => exact hphase (runNextCommand now) (by rw [ha, perform])
  | followUp now => exact hphase (sendNextFollowUp now) (by rw [ha, perform])
  | timers now => exact hphase (checkTimers now) (by rw [ha, perform])
  | _ =>
    rw [after, ha]
    exact h

/-- A session that writes nothing any more never writes again. -/
theorem isOver_step (h : step.before.IsOver) : step.after.IsOver := by
  rcases h with he | ht
  · exact .inl (ended_step he)
  · exact .inr (by rw [state_of_terminal ht]; exact ht)

/-- A step writes what it has written. -/
theorem writes_of_mem_wrote {request : Request} (hm : request ∈ step.wrote) :
    step.Writes request := by
  cases step.outcome with
  | writes written hw =>
    rw [wrote_of_writes hw, List.mem_singleton] at hm
    rwa [hm]
  | quiet hq =>
    rw [wrote_of_written_eq hq.written] at hm
    cases hm
  | tears torn part ht =>
    rw [wrote_of_written_eq ht.written] at hm
    cases hm

/-- A request is tried only as long as the session is not over. -/
theorem not_isOver_of_admits {request : Request} (ho : step.offer? = some request)
    (ha : step.before.Admits request.word) : ¬ step.before.IsOver := by
  rintro (he | ht)
  · rw [offer?, he, if_pos rfl] at ho
    cases ho
  · rw [ha.notTerminal] at ht
    cases ht

/-- A session that is over writes nothing. -/
theorem wrote_of_isOver (h : step.before.IsOver) : step.wrote = [] := by
  refine List.eq_nil_iff_forall_not_mem.mpr fun request hm => ?_
  have hw := writes_of_mem_wrote hm
  exact not_isOver_of_admits hw.offered hw.admits h

/-- No program starts in a session that is over. -/
theorem not_starts_of_isOver (h : step.before.IsOver) : ¬ step.Starts := by
  intro hs
  rcases h with he | ht
  · obtain ⟨response, hm, -⟩ := hs
    rw [heard, frame?, he, if_pos rfl] at hm
    cases hm
  · rcases hs.state.1 with h | h <;> rw [h] at ht <;> cases ht

/-- A program starts with a frame that is taken in. -/
theorem Starts.action (h : step.Starts) : ∃ now, step.action = .receive now := by
  by_contra hn
  obtain ⟨response, hm, -⟩ := h
  rw [heard, frame?_of_action fun now ha => hn ⟨now, ha⟩] at hm
  cases hm

/-! ## What follows -/

/-- Carrying out a command leaves the requests that follow as they are. -/
theorem followUps_runCommand (now : Nat) (session : Session) (command : Command) :
    (session.runCommand now command).followUps = session.followUps := by
  have hqueues := congrArg followUps
    (runCommand_withQueues now session command session.commands session.followUps)
  exact hqueues

/-- Taking in a frame puts what follows from it behind what waits already. -/
theorem followUps_receive {now : Nat} (ha : step.action = .receive now) :
    step.after.followUps = step.before.followUps ++ step.returned := by
  have hphase : step.before.perform step.action = step.before.andThen (receive now) := by
    rw [ha, perform]
  rcases phase_cases hphase with ⟨he, hafter⟩ | ⟨he, hafter⟩
  · rw [hafter, returned, frame?, he, if_pos rfl]
    exact (List.append_nil _).symm
  rw [returned, frame?_of_receive ha he, hafter, receive]
  cases hp : step.before.reader.poll with
  | mk poll reader =>
    cases poll with
    | idle | closed | fault => exact (List.append_nil _).symm
    | frame frame =>
      dsimp only
      rcases step.before.core.receive_cases frame with ⟨message, response, -, -, hr⟩ | ⟨text, hr⟩ |
        ⟨fault, hr⟩ <;> rw [Option.bind_some, hr]
      · rfl
      · rfl
      · exact (List.append_nil _).symm

/-- What follows from a frame comes to wait behind what follows from earlier ones, and only a step
that writes it takes it away. -/
theorem followUps_of_action (h : ∀ now, step.action ≠ .followUp now) :
    step.after.followUps = step.before.followUps ++ step.returned := by
  have hnone : (∀ now, step.action ≠ .receive now) → step.returned = [] := fun hn => by
    rw [returned, frame?_of_action hn]
    rfl
  have hsame : (∀ now, step.action ≠ .receive now) →
      step.after.followUps = step.before.followUps →
        step.after.followUps = step.before.followUps ++ step.returned := fun hn hf => by
    rw [hnone hn, hf, List.append_nil]
  cases ha : step.action with
  | followUp now => exact absurd ha (h now)
  | receive now => exact followUps_receive ha
  | command now =>
    refine hsame (fun now hn => by rw [ha] at hn; cases hn) ?_
    rcases command_cases ha with ⟨-, hafter⟩ | ⟨-, command, rest, -, -, hafter⟩
    · rw [hafter]
    · rw [hafter, followUps_runCommand]
  | timers now =>
    refine hsame (fun now hn => by rw [ha] at hn; cases hn) ?_
    have hphase : step.before.perform step.action = step.before.andThen (checkTimers now) := by
      rw [ha, perform]
    rcases phase_cases hphase with ⟨-, hafter⟩ | ⟨-, hafter⟩
    · rw [hafter]
    obtain ⟨deadline, hs | ⟨loss, hs⟩ | ⟨-, bytes, sink, -, -, hs⟩ |
      ⟨-, fault, sink, part, -, hs⟩⟩ := checkTimers_cases now step.before <;>
      rw [hafter, hs] <;> rfl
  | _ =>
    refine hsame (fun now hn => by rw [ha] at hn; cases hn) ?_
    rw [after, ha]
    rfl

/-- The oldest request that follows from what came in is written or, if the state does not allow
it, dropped; else the connection is lost. -/
theorem followUps_cases {now : Nat} (ha : step.action = .followUp now)
    (he : step.before.ended = false) {request : Request} {rest : List Request}
    (hf : step.before.followUps = request :: rest) :
    step.after.IsOver ∨ step.after.followUps = rest ∧
      (step.Writes request ∨
        ¬ step.before.Admits request.word ∧ step.wrote = [] ∧
          step.after.core = step.before.core) := by
  have hafter : step.after = step.before.sendNextFollowUp now := by
    rw [after, ha, perform, andThen_of_not_ended he]
  have ho : step.offer? = some request := by simp [offer?, ha, he, hf]
  rcases sendNextFollowUp_cases now hf with ⟨hn, hs⟩ | ⟨hadmits, bytes, sink, henc, hb, hs⟩ |
    ⟨-, fault, sink, part, -, hs⟩ <;> rw [hs] at hafter
  · exact .inr ⟨by rw [hafter],
      .inr ⟨hn, wrote_of_written_eq (by rw [hafter]), by rw [hafter]⟩⟩
  · exact .inr ⟨by rw [hafter]; rfl, .inl (writes_of_noted ho hadmits henc hb
      (by rw [hafter]; rfl) (by rw [hafter]; rfl) (by rw [hafter]; rfl))⟩
  · exact .inl (.inl (by rw [hafter]; rfl))

/-- A request that is to be written because it follows from a frame waits until then. -/
theorem mem_followUps_of_offer? {now : Nat} (ha : step.action = .followUp now)
    {request : Request} (h : step.offer? = some request) : request ∈ step.before.followUps := by
  rw [offer?, ha] at h
  split at h
  · cases h
  · exact List.mem_of_mem_head? h

/-- Only a frame that is taken in makes a request follow. -/
theorem mem_followUps_of_action (h : ∀ now, step.action ≠ .receive now) :
    ∀ request ∈ step.after.followUps, request ∈ step.before.followUps := by
  intro request hm
  by_cases ha : ∃ now, step.action = .followUp now
  · obtain ⟨now, ha⟩ := ha
    rcases followUp_cases ha with hafter | ⟨oldest, rest, hf, -, hafter⟩
    · rwa [hafter] at hm
    rcases sendNextFollowUp_cases now hf with ⟨-, hs⟩ | ⟨-, bytes, sink, -, -, hs⟩ |
      ⟨-, fault, sink, part, -, hs⟩ <;> rw [hafter, hs] at hm <;> rw [hf] <;>
      exact List.mem_cons_of_mem oldest hm
  · rw [followUps_of_action fun now hn => ha ⟨now, hn⟩, returned, frame?_of_action h] at hm
    rwa [← List.append_nil step.before.followUps]

end Step

end Session

/-! ## Rounds -/

/-- The parts of a round of work. -/
inductive Phase where
  /-- A frame is taken in. -/
  | inbound
  /-- The commands are carried out. -/
  | commands
  /-- The requests that follow are written. -/
  | followUps
  /-- The timers are looked at. -/
  | timers
  deriving DecidableEq

/-- A session in the middle of its work. -/
structure Worker where
  /-- The session. -/
  session : Session
  /-- The part of the round that comes next. -/
  phase : Phase := .inbound

/-- What can happen next. -/
inductive Turn where
  /-- The user or the debuggee acts. -/
  | outside (action : Action) (h : action.isOutside = true)
  /-- The session works on. -/
  | work (now : Nat)

namespace Worker

/-- Whether a part of the round that may take many steps is done. -/
def isThrough (worker : Worker) : Bool :=
  worker.session.ended ||
    match worker.phase with
    | .commands => worker.session.commands.isEmpty
    | .followUps => worker.session.followUps.isEmpty
    | _ => true

/-- The step that a turn takes. The look at an empty queue takes none. -/
def step? (worker : Worker) : Turn → Option Session.Step
  | .outside action _ => some ⟨worker.session, action⟩
  | .work now =>
    match worker.phase with
    | .inbound => some ⟨worker.session, .receive now⟩
    | .commands => if worker.isThrough then none else some ⟨worker.session, .command now⟩
    | .followUps => if worker.isThrough then none else some ⟨worker.session, .followUp now⟩
    | .timers => some ⟨worker.session, .timers now⟩

/-- The part of the round that comes next after a turn. -/
def nextPhase (worker : Worker) : Turn → Phase
  | .outside .. => worker.phase
  | .work _ =>
    match worker.phase with
    | .inbound => .commands
    | .commands => if worker.isThrough then .followUps else .commands
    | .followUps => if worker.isThrough then .timers else .followUps
    | .timers => .inbound

/-- Take a turn. -/
def turn (worker : Worker) (turn : Turn) : Worker where
  session := ((worker.step? turn).map Session.Step.after).getD worker.session
  phase := worker.nextPhase turn

/-- A new session, before its first round. -/
def start (config : SessionConfig) (script : List Wire.WriteOutcome)
    (broken : Option Wire.IoFault) : Worker where
  session := Session.start config script broken

/-- Take turns in order. -/
def run (worker : Worker) (turns : List Turn) : Worker := turns.foldl turn worker

/-- The steps that turns take. -/
def steps (worker : Worker) : List Turn → List Session.Step
  | [] => []
  | turn :: turns => (worker.step? turn).toList ++ (worker.turn turn).steps turns

/-- Turns one after the other. -/
theorem run_append (worker : Worker) (front back : List Turn) :
    worker.run (front ++ back) = (worker.run front).run back := List.foldl_append

/-- What a turn does. -/
inductive Takes (worker : Worker) (turn : Turn) : Prop
  /-- The session finds a queue empty, or has given up its connection, and goes on. -/
  | looks (hs : worker.step? turn = none) (hw : (worker.turn turn).session = worker.session)
      (hp : worker.phase = .commands ∧ (worker.turn turn).phase = .followUps ∨
        worker.phase = .followUps ∧ (worker.turn turn).phase = .timers ∧
          (worker.session.ended = true ∨ worker.session.followUps = []))
  /-- The user or the debuggee acts. -/
  | outside (step : Session.Step) (hs : worker.step? turn = some step)
      (ha : step.action.isOutside = true) (hp : (worker.turn turn).phase = worker.phase)
  /-- A frame is taken in. -/
  | inbound (step : Session.Step) (hs : worker.step? turn = some step) (now : Nat)
      (ha : step.action = .receive now) (hp : worker.phase = .inbound)
      (hn : (worker.turn turn).phase = .commands)
  /-- A command is carried out. -/
  | command (step : Session.Step) (hs : worker.step? turn = some step) (now : Nat)
      (ha : step.action = .command now) (hp : worker.phase = .commands)
      (hn : (worker.turn turn).phase = .commands)
  /-- A request that follows is written. -/
  | followUp (step : Session.Step) (hs : worker.step? turn = some step) (now : Nat)
      (ha : step.action = .followUp now) (hp : worker.phase = .followUps)
      (hn : (worker.turn turn).phase = .followUps) (he : worker.session.ended = false)
  /-- The timers are looked at. -/
  | timers (step : Session.Step) (hs : worker.step? turn = some step) (now : Nat)
      (ha : step.action = .timers now) (hp : worker.phase = .timers)
      (hn : (worker.turn turn).phase = .inbound)

/-- Every turn does one of these. -/
theorem takes (worker : Worker) (turn : Turn) : worker.Takes turn := by
  obtain ⟨session, phase⟩ := worker
  cases turn with
  | outside action ha => exact .outside _ rfl ha rfl
  | work now =>
    cases phase with
    | inbound => exact .inbound _ rfl now rfl rfl rfl
    | timers => exact .timers _ rfl now rfl rfl rfl
    | commands =>
      cases ht : (Worker.mk session .commands).isThrough with
      | true =>
        exact .looks (by rw [step?, ht]; rfl) (by rw [Worker.turn, step?, ht]; rfl)
          (.inl ⟨rfl, by rw [Worker.turn, nextPhase, ht]; rfl⟩)
      | false =>
        exact .command ⟨session, .command now⟩ (by rw [step?, ht]; rfl) now rfl rfl
          (by rw [Worker.turn, nextPhase, ht]; rfl)
    | followUps =>
      cases ht : (Worker.mk session .followUps).isThrough with
      | true =>
        have hdone : session.ended = true ∨ session.followUps = [] := by
          simpa [isThrough] using ht
        exact .looks (by rw [step?, ht]; rfl) (by rw [Worker.turn, step?, ht]; rfl)
          (.inr ⟨rfl, by rw [Worker.turn, nextPhase, ht]; rfl, hdone⟩)
      | false =>
        exact .followUp ⟨session, .followUp now⟩ (by rw [step?, ht]; rfl) now rfl rfl
          (by rw [Worker.turn, nextPhase, ht]; rfl) (Bool.or_eq_false_iff.mp ht).1

/-- A turn takes a step of the session as it is. -/
theorem before_of_step? {worker : Worker} {turn : Turn} {step : Session.Step}
    (h : worker.step? turn = some step) : step.before = worker.session := by
  cases turn with
  | outside action ha => exact (Option.some.inj h) ▸ rfl
  | work now =>
    rw [step?] at h
    split at h
    · exact (Option.some.inj h) ▸ rfl
    · split at h
      · cases h
      · exact (Option.some.inj h) ▸ rfl
    · split at h
      · cases h
      · exact (Option.some.inj h) ▸ rfl
    · exact (Option.some.inj h) ▸ rfl

/-- A step of a turn leads to the session behind the turn. -/
theorem session_turn {worker : Worker} {turn : Turn} {step : Session.Step}
    (h : worker.step? turn = some step) : (worker.turn turn).session = step.after := by
  rw [Worker.turn, h]
  rfl

/-- Turns are a run of the session. -/
theorem exists_actions (worker : Worker) (turns : List Turn) : ∃ actions,
    (worker.run turns).session = worker.session.run actions ∧
      worker.steps turns = Session.steps worker.session actions := by
  induction turns generalizing worker with
  | nil => exact ⟨[], rfl, rfl⟩
  | cons turn turns ih =>
    obtain ⟨actions, hrun, hsteps⟩ := ih (worker.turn turn)
    cases hs : worker.step? turn with
    | none =>
      have hsession : (worker.turn turn).session = worker.session := by rw [Worker.turn, hs]; rfl
      rw [hsession] at hrun hsteps
      exact ⟨actions, hrun, by rw [steps, hs, hsteps]; rfl⟩
    | some step =>
      have hsession := session_turn hs
      have hbefore := before_of_step? hs
      rw [hsession] at hrun hsteps
      refine ⟨step.action :: actions, ?_, ?_⟩
      · rw [Session.run_cons, ← hbefore]
        exact hrun
      · rw [steps, hs, hsteps, ← hbefore]
        rfl

/-- Nothing that follows from an earlier frame is left when a frame is to be taken in. -/
def IsSettled (worker : Worker) : Prop :=
  worker.phase = .inbound ∨ worker.phase = .timers →
    worker.session.IsOver ∨ worker.session.followUps = []

/-- A step that neither takes in a frame nor writes what follows leaves what follows alone. -/
theorem followUps_of_other {step : Session.Step}
    (h : step.action.isOutside = true ∨ ∃ now, step.action = .command now ∨
      step.action = .timers now) : step.after.followUps = step.before.followUps := by
  have hother : ∀ now, step.action ≠ .receive now ∧ step.action ≠ .followUp now := by
    intro now
    constructor <;> intro ha <;> rcases h with h | ⟨_, h | h⟩ <;> rw [ha] at h <;> cases h
  rw [Session.Step.followUps_of_action fun now => (hother now).2, Session.Step.returned,
    Session.Step.frame?_of_action fun now => (hother now).1]
  exact List.append_nil _

/-- Every turn keeps the order of the work. -/
theorem isSettled_turn {worker : Worker} (h : worker.IsSettled) (turn : Turn) :
    (worker.turn turn).IsSettled := by
  have hkeeps : ∀ step : Session.Step, worker.step? turn = some step →
      step.after.followUps = step.before.followUps →
        worker.session.IsOver ∨ worker.session.followUps = [] →
          (worker.turn turn).session.IsOver ∨ (worker.turn turn).session.followUps = [] := by
    intro step hs hf hsettled
    rw [session_turn hs, hf, before_of_step? hs]
    exact hsettled.imp_left fun ho => Session.Step.isOver_step (by rwa [before_of_step? hs])
  intro hp
  cases worker.takes turn with
  | looks hs hw hn =>
    -- The part of the round before the timers is left only when no request waits any more.
    rw [hw]
    rcases hn with ⟨-, hn⟩ | ⟨-, -, he | hnil⟩
    · rw [hn] at hp
      rcases hp with hp | hp <;> cases hp
    · exact .inl (.inl he)
    · exact .inr hnil
  | outside step hs ha hn =>
    rw [hn] at hp
    exact hkeeps step hs (followUps_of_other (.inl ha)) (h hp)
  | inbound step hs now ha _ hn | command step hs now ha _ hn | followUp step hs now ha _ hn =>
    rw [hn] at hp
    rcases hp with hp | hp <;> cases hp
  | timers step hs now ha hphase hn =>
    exact hkeeps step hs (followUps_of_other (.inr ⟨now, .inr ha⟩)) (h (.inr hphase))

/-- What every turn keeps, of the steps so far and the session behind them, holds behind every
sequence of turns whose steps meet a condition. -/
theorem forall_turns {P : List Session.Step → Worker → Prop} {Q : Session.Step → Prop}
    (hturn : ∀ past worker turn, P past worker → (∀ step ∈ worker.step? turn, Q step) →
      P (past ++ (worker.step? turn).toList) (worker.turn turn))
    (past : List Session.Step) {worker : Worker} (h : P past worker) (turns : List Turn)
    (hq : ∀ step ∈ worker.steps turns, Q step) :
    P (past ++ worker.steps turns) (worker.run turns) := by
  induction turns generalizing past worker with
  | nil => rwa [steps, List.append_nil]
  | cons turn turns ih =>
    have hfirst := hturn past worker turn h fun step hm =>
      hq step (List.mem_append_left _ (Option.mem_toList.mpr hm))
    rw [steps, ← List.append_assoc]
    exact ih _ hfirst fun step hm => hq step (List.mem_append_right _ hm)

/-- Turns keep the order of the work. -/
theorem isSettled_run {worker : Worker} (h : worker.IsSettled) (turns : List Turn) :
    (worker.run turns).IsSettled :=
  forall_turns (P := fun _ worker => worker.IsSettled) (Q := fun _ => True)
    (fun _ _ turn h _ => isSettled_turn h turn) [] h turns fun _ _ => trivial

/-- Nothing follows from a frame before the first round. -/
theorem isSettled_start (config : SessionConfig) (script : List Wire.WriteOutcome)
    (broken : Option Wire.IoFault) : (start config script broken).IsSettled :=
  fun _ => .inr rfl

/-- Each of the steps that turns take is taken by one of them. -/
theorem exists_turn {worker : Worker} {turns : List Turn} {front back : List Session.Step}
    {step : Session.Step} (h : worker.steps turns = front ++ step :: back) :
    ∃ earlier turn later, front = worker.steps earlier ∧
      (worker.run earlier).step? turn = some step ∧
        back = ((worker.run earlier).turn turn).steps later := by
  induction turns generalizing worker front with
  | nil => cases front <;> cases h
  | cons turn turns ih =>
    rw [steps] at h
    cases hs : worker.step? turn with
    | none =>
      rw [hs] at h
      obtain ⟨earlier, next, later, hfront, hstep, hback⟩ := ih h
      exact ⟨turn :: earlier, next, later, by rw [steps, hs, hfront]; rfl, hstep, hback⟩
    | some first =>
      rw [hs] at h
      cases front with
      | nil =>
        obtain ⟨rfl, hback⟩ := List.cons.inj h
        exact ⟨[], turn, turns, rfl, hs, hback.symm⟩
      | cons other front =>
        obtain ⟨rfl, hrest⟩ := List.cons.inj h
        obtain ⟨earlier, next, later, hfront, hstep, hback⟩ := ih hrest
        exact ⟨turn :: earlier, next, later, by rw [steps, hs, hfront]; rfl, hstep, hback⟩

/-! ## Rounds are turns -/

/-- A turn among the commands carries one out, or finds none. -/
theorem turn_commands (now : Nat) (session : Session) :
    (Worker.mk session .commands).turn (.work now) =
      if session.ended || session.commands.isEmpty then ⟨session, .followUps⟩
      else ⟨session.perform (.command now), .commands⟩ := by
  rw [turn, step?, nextPhase, isThrough]
  cases session.ended || session.commands.isEmpty <;> rfl

/-- A turn among the requests that follow writes one, or finds none. -/
theorem turn_followUps (now : Nat) (session : Session) :
    (Worker.mk session .followUps).turn (.work now) =
      if session.ended || session.followUps.isEmpty then ⟨session, .timers⟩
      else ⟨session.perform (.followUp now), .followUps⟩ := by
  rw [turn, step?, nextPhase, isThrough]
  cases session.ended || session.followUps.isEmpty <;> rfl

/-- Carrying out commands takes turns. -/
theorem exists_run_commandsOf (now : Nat) (session : Session) (list : List Command)
    (h : session.ended = false) :
    ∃ turns, (Worker.mk (session.withQueues list session.followUps) .commands).run turns =
      ⟨session.runCommandsOf now list, .followUps⟩ := by
  induction list generalizing session with
  | nil =>
    refine ⟨[.work now], ?_⟩
    have hdone : ((session.withQueues [] session.followUps).ended ||
        (session.withQueues [] session.followUps).commands.isEmpty) = true := Bool.or_true _
    rw [run, List.foldl_cons, turn_commands, if_pos hdone]
    rfl
  | cons command rest ih =>
    have hworks : (session.withQueues (command :: rest) session.followUps).ended = false := h
    have hstep : (session.withQueues (command :: rest) session.followUps).perform (.command now) =
        (session.runCommand now command).withQueues rest
          (session.runCommand now command).followUps := by
      rw [Session.Step.followUps_runCommand, ← Session.runCommand_withQueues, Session.perform,
        Session.andThen_of_not_ended hworks]
      rfl
    have hturn : (Worker.mk (session.withQueues (command :: rest) session.followUps)
        .commands).turn (.work now) =
          ⟨(session.runCommand now command).withQueues rest
            (session.runCommand now command).followUps, .commands⟩ := by
      rw [turn_commands, hstep, hworks]
      rfl
    cases he : (session.runCommand now command).ended with
    | true =>
      refine ⟨[.work now, .work now], ?_⟩
      have hover : ((session.runCommand now command).withQueues rest
          (session.runCommand now command).followUps).ended = true := he
      rw [run, List.foldl_cons, hturn, List.foldl_cons, turn_commands, hover, Bool.true_or,
        if_pos rfl, Session.runCommandsOf, if_pos he]
      rfl
    | false =>
      obtain ⟨turns, hturns⟩ := ih _ he
      refine ⟨.work now :: turns, ?_⟩
      rw [run, List.foldl_cons, hturn, Session.runCommandsOf, he, if_neg Bool.false_ne_true]
      exact hturns

/-- Writing the requests that follow takes turns. -/
theorem exists_run_followUpsOf (now : Nat) (session : Session) (list : List Request)
    (h : session.ended = false) :
    ∃ turns, (Worker.mk (session.withQueues session.commands list) .followUps).run turns =
      ⟨session.sendFollowUpsOf now list, .timers⟩ := by
  induction list generalizing session with
  | nil =>
    refine ⟨[.work now], ?_⟩
    have hdone : ((session.withQueues session.commands []).ended ||
        (session.withQueues session.commands []).followUps.isEmpty) = true := Bool.or_true _
    rw [run, List.foldl_cons, turn_followUps, if_pos hdone]
    rfl
  | cons request rest ih =>
    have hqueues := Session.send_withQueues now session request session.commands rest
    have hworks : (session.withQueues session.commands (request :: rest)).ended = false := h
    have hturn : (Worker.mk (session.withQueues session.commands (request :: rest))
        .followUps).turn (.work now) =
          ⟨(session.withQueues session.commands (request :: rest)).sendNextFollowUp now,
            .followUps⟩ := by
      rw [turn_followUps, hworks, Session.perform, Session.andThen_of_not_ended hworks]
      rfl
    -- What a written and a dropped request have in common: the session works on with the rest.
    have hnext : ∀ next : Session, next.ended = false →
        (session.withQueues session.commands (request :: rest)).sendNextFollowUp now =
            next.withQueues next.commands rest →
          session.sendFollowUpsOf now (request :: rest) = next.sendFollowUpsOf now rest →
            ∃ turns, (Worker.mk (session.withQueues session.commands (request :: rest))
              .followUps).run turns =
                ⟨session.sendFollowUpsOf now (request :: rest), .timers⟩ := by
      intro next he hsent hrest
      obtain ⟨turns, hturns⟩ := ih next he
      refine ⟨.work now :: turns, ?_⟩
      rw [run, List.foldl_cons, hturn, hsent, hrest]
      exact hturns
    rcases session.send_cases now request with ⟨-, error, he, hs⟩ | ⟨-, bytes, sink, -, -, hs⟩ |
      ⟨-, fault, sink, part, -, hs⟩
    · cases error with
      | wire fault => cases he
      | _ =>
        refine hnext session h ?_ (by rw [Session.sendFollowUpsOf, hs])
        simp only [Session.withQueues] at hqueues ⊢
        simp only [Session.sendNextFollowUp, hqueues, hs]
    · refine hnext (session.noteSent now sink request) h ?_ (by rw [Session.sendFollowUpsOf, hs])
      simp only [Session.withQueues] at hqueues ⊢
      simp only [Session.sendNextFollowUp, hqueues, hs]
      rfl
    · refine ⟨[.work now, .work now], ?_⟩
      have hlost : (session.withQueues session.commands (request :: rest)).sendNextFollowUp now =
          session.sendFollowUpsOf now (request :: rest) := by
        rw [Session.sendFollowUpsOf, hs]
        simp only [Session.withQueues] at hqueues ⊢
        simp only [Session.sendNextFollowUp, hqueues, hs]
        rfl
      have hover : (session.sendFollowUpsOf now (request :: rest)).ended = true := by
        rw [Session.sendFollowUpsOf, hs]
        rfl
      rw [run, List.foldl_cons, hturn, hlost, List.foldl_cons, turn_followUps, hover, Bool.true_or,
        if_pos rfl]
      rfl

/-- A part of a round that takes turns in a session at work takes turns in any session. -/
theorem exists_run_andThen {phase next : Phase} {session : Session} {work : Session → Session}
    (h : session.ended = false → ∃ turns,
      (Worker.mk session phase).run turns = ⟨work session, next⟩)
    (he : session.ended = true → ∃ turns,
      (Worker.mk session phase).run turns = ⟨session, next⟩) :
    ∃ turns, (Worker.mk session phase).run turns = ⟨session.andThen work, next⟩ := by
  cases hended : session.ended with
  | true =>
    rw [Session.andThen_of_ended hended]
    exact he hended
  | false =>
    rw [Session.andThen_of_not_ended hended]
    exact h hended

/-- A round is made of turns. -/
theorem exists_run_round (now : Nat) (session : Session) :
    ∃ turns, (Worker.mk session .inbound).run turns = ⟨session.round now, .inbound⟩ := by
  have hcommands : ∀ session : Session, ∃ turns, (Worker.mk session .commands).run turns =
      ⟨session.andThen (Session.runCommands now), .followUps⟩ := fun session =>
    exists_run_andThen (fun h => exists_run_commandsOf now session session.commands h)
      fun h => ⟨[.work now], by rw [run, List.foldl_cons, turn_commands, h]; rfl⟩
  have hfollowUps : ∀ session : Session, ∃ turns, (Worker.mk session .followUps).run turns =
      ⟨session.andThen (Session.sendFollowUps now), .timers⟩ := fun session =>
    exists_run_andThen (fun h => exists_run_followUpsOf now session session.followUps h)
      fun h => ⟨[.work now], by rw [run, List.foldl_cons, turn_followUps, h]; rfl⟩
  obtain ⟨carried, hcarried⟩ := hcommands (session.perform (.receive now))
  obtain ⟨sent, hsent⟩ :=
    hfollowUps ((session.perform (.receive now)).andThen (Session.runCommands now))
  refine ⟨.work now :: (carried ++ (sent ++ [.work now])), ?_⟩
  have hreceive : (Worker.mk session .inbound).turn (.work now) =
      ⟨session.perform (.receive now), .commands⟩ := rfl
  rw [run, List.foldl_cons, hreceive]
  change (Worker.mk (session.perform (.receive now)) .commands).run _ = _
  rw [run_append, hcarried, run_append, hsent]
  rfl

/-- Bringing a session to rest is made of turns. -/
theorem exists_run_settle (now : Nat) (session : Session) :
    ∃ turns, (Worker.mk session .inbound).run turns = ⟨session.settle now, .inbound⟩ := by
  have hwithin : ∀ bound (session : Session), ∃ turns,
      (Worker.mk session .inbound).run turns = ⟨session.settleWithin now bound, .inbound⟩ := by
    intro bound
    induction bound with
    | zero => exact fun session => ⟨[], rfl⟩
    | succ bound ih =>
      intro session
      obtain ⟨first, hfirst⟩ := exists_run_round now session
      rw [Session.settleWithin]
      split
      · exact ⟨first, hfirst⟩
      · obtain ⟨rest, hrest⟩ := ih (session.round now)
        exact ⟨first ++ rest, by rw [run_append, hfirst, hrest]⟩
  exact hwithin _ session

end Worker

end DebugLink
