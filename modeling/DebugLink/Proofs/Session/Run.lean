import DebugLink.Proofs.Session.Sending

/-!
# Runs of a session

The work of a session is cut into steps between which its user may act: a frame is taken in,
one command is carried out, one request that follows is written, the timers are looked at.
The user may queue commands, change the points and change the ignore list, and bytes may
arrive. A run is any sequence of such steps. The phases, the rounds and the calls of the user
are runs, so that what holds in every run holds however a session is used.
-/

namespace DebugLink

/-- A step of a session, of its user or of its debuggee. -/
inductive Action where
  /-- Something arrives from the debuggee. -/
  | arrive (arrivals : List Wire.Arrival)
  /-- The user asks for a request. -/
  | submit (request : Request)
  /-- The user asks to end the debuggee. -/
  | askShutdown
  /-- The user changes the points. -/
  | setRegistry (registry : Registry)
  /-- The user puts an exception type on the ignore list. -/
  | setIgnored (type : String)
  /-- The user takes an exception type off the ignore list. -/
  | unsetIgnored (type : String)
  /-- The session takes in a frame. -/
  | receive (now : Nat)
  /-- The session carries out one command. -/
  | command (now : Nat)
  /-- The session writes one request that follows from what came in. -/
  | followUp (now : Nat)
  /-- The session looks at the timers. -/
  | timers (now : Nat)

namespace Session

/-- Let something arrive. -/
def feed (session : Session) (arrivals : List Wire.Arrival) : Session :=
  { session with reader := { session.reader with source := session.reader.source ++ arrivals } }

/-- Put a command into the queue. -/
def enqueue (session : Session) (command : Command) : Session :=
  { session with commands := session.commands ++ [command] }

/-- Carry out the oldest command. -/
def runNextCommand (now : Nat) (session : Session) : Session :=
  match session.commands with
  | [] => session
  | command :: rest => { session with commands := rest }.runCommand now command

/-- Write the oldest request that follows from what came in. -/
def sendNextFollowUp (now : Nat) (session : Session) : Session :=
  match session.followUps with
  | [] => session
  | request :: rest =>
    match { session with followUps := rest }.send now request with
    | (.error (.wire fault), session) => session.lose (.unwritten fault)
    | (_, session) => session

/-- Perform a step. A session that has ended its work performs none of its own. -/
def perform (session : Session) : Action → Session
  | .arrive arrivals => session.feed arrivals
  | .submit request => (session.submit request).2
  | .askShutdown => session.enqueue .shutdown
  | .setRegistry registry => session.withRegistry registry
  | .setIgnored type => (session.setIgnored type).2
  | .unsetIgnored type => (session.unsetIgnored type).2
  | .receive now => session.andThen (receive now)
  | .command now => session.andThen (runNextCommand now)
  | .followUp now => session.andThen (sendNextFollowUp now)
  | .timers now => session.andThen (checkTimers now)

/-- A new session that writes to a sink with the given answers. -/
def start (config : SessionConfig) (script : List Wire.WriteOutcome)
    (broken : Option Wire.IoFault) : Session :=
  let session := Session.new config
  { session with sink := { session.sink with script, broken } }

/-- Perform steps in order. -/
def run (session : Session) (actions : List Action) : Session := actions.foldl perform session

/-- No step changes nothing. -/
@[simp] theorem run_nil (session : Session) : session.run [] = session := rfl

/-- The first step of a run. -/
@[simp] theorem run_cons (session : Session) (action : Action) (actions : List Action) :
    session.run (action :: actions) = (session.perform action).run actions := rfl

/-- Runs one after the other are a run. -/
theorem run_append (session : Session) (front back : List Action) :
    session.run (front ++ back) = (session.run front).run back := List.foldl_append

/-- A session that a run leads to. -/
def LeadsTo (session next : Session) : Prop := ∃ actions, next = session.run actions

namespace LeadsTo

/-- Every session leads to itself. -/
theorem refl (session : Session) : session.LeadsTo session := ⟨[], rfl⟩

/-- One step leads to the next session. -/
theorem step (session : Session) (action : Action) : session.LeadsTo (session.perform action) :=
  ⟨[action], rfl⟩

/-- Runs can be joined. -/
theorem trans {first second third : Session} (h : first.LeadsTo second)
    (h' : second.LeadsTo third) : first.LeadsTo third := by
  obtain ⟨front, rfl⟩ := h
  obtain ⟨back, rfl⟩ := h'
  exact ⟨front ++ back, (run_append ..).symm⟩

end LeadsTo

/-! ## Phases -/

/-- Carrying out commands one by one carries out the whole queue. -/
theorem leadsTo_runCommandsOf (now : Nat) (session : Session) (list : List Command)
    (h : session.ended = false) :
    (session.withQueues list session.followUps).LeadsTo (session.runCommandsOf now list) := by
  induction list generalizing session with
  | nil => exact .refl _
  | cons command rest ih =>
    have hstep : (session.withQueues (command :: rest) session.followUps).perform (.command now) =
        (session.runCommand now command).withQueues rest session.followUps := by
      rw [← runCommand_withQueues, perform, andThen, if_neg (by simp [withQueues, h])]
      rfl
    have hf : (session.runCommand now command).followUps = session.followUps := by
      have hq := congrArg followUps
        (runCommand_withQueues now session command session.commands session.followUps)
      exact hq
    refine (LeadsTo.step _ (.command now)).trans ?_
    rw [hstep, runCommandsOf]
    cases he : (session.runCommand now command).ended with
    | true =>
      rw [if_pos rfl, ← hf, ← he]
      exact .refl _
    | false =>
      rw [if_neg Bool.false_ne_true, ← hf]
      exact ih _ he

/-- The second phase is a run. -/
theorem leadsTo_runCommands (now : Nat) (session : Session) (h : session.ended = false) :
    session.LeadsTo (session.runCommands now) :=
  leadsTo_runCommandsOf now session session.commands h

/-- Writing the requests that follow one by one writes all of them. -/
theorem leadsTo_sendFollowUpsOf (now : Nat) (session : Session) (list : List Request)
    (h : session.ended = false) :
    (session.withQueues session.commands list).LeadsTo (session.sendFollowUpsOf now list) := by
  induction list generalizing session with
  | nil => exact .refl _
  | cons request rest ih =>
    have hq := send_withQueues now session request session.commands rest
    refine (LeadsTo.step _ (.followUp now)).trans ?_
    rw [perform, andThen, if_neg (by simp [withQueues, h])]
    simp only [withQueues] at hq
    simp only [sendNextFollowUp, withQueues, hq]
    rw [sendFollowUpsOf]
    rcases send_cases now session request with ⟨-, error, he, hs⟩ | ⟨-, bytes, sink, -, -, hs⟩ |
      ⟨-, fault, sink, part, -, hs⟩
    · rw [hs]
      cases error with
      | wire fault => cases he
      | _ => exact ih session h
    · rw [hs]
      exact ih (session.noteSent now sink request) h
    · rw [hs]
      exact .refl _

/-- The third phase is a run. -/
theorem leadsTo_sendFollowUps (now : Nat) (session : Session) (h : session.ended = false) :
    session.LeadsTo (session.sendFollowUps now) :=
  leadsTo_sendFollowUpsOf now session session.followUps h

/-! ## Rounds and calls -/

/-- A phase that is a run of a working session is one of any session. -/
theorem leadsTo_andThen {session : Session} {phase : Session → Session}
    (h : session.ended = false → session.LeadsTo (phase session)) :
    session.LeadsTo (session.andThen phase) := by
  unfold andThen
  cases he : session.ended with
  | true => exact .refl _
  | false => exact h he

/-- A round is a run. -/
theorem leadsTo_round (now : Nat) (session : Session) : session.LeadsTo (session.round now) :=
  (LeadsTo.step session (.receive now)).trans <|
    (leadsTo_andThen (leadsTo_runCommands now _)).trans <|
      (leadsTo_andThen (leadsTo_sendFollowUps now _)).trans (LeadsTo.step _ (.timers now))

/-- Any number of rounds is a run. -/
theorem leadsTo_settleWithin (now bound : Nat) (session : Session) :
    session.LeadsTo (session.settleWithin now bound) := by
  induction bound generalizing session with
  | zero => exact .refl session
  | succ bound ih =>
    rw [settleWithin]
    split
    · exact leadsTo_round now session
    · exact (leadsTo_round now session).trans (ih _)

/-- Bringing a session to rest is a run. -/
theorem leadsTo_settle (now : Nat) (session : Session) : session.LeadsTo (session.settle now) :=
  leadsTo_settleWithin now _ session

/-- Having a request written is a run. -/
theorem leadsTo_request (now : Nat) (session : Session) (request : Request) :
    session.LeadsTo (session.request now request).2 := by
  unfold Session.request
  split
  · exact .refl session
  · exact (LeadsTo.step session (.submit request)).trans (leadsTo_settle now _)

/-- Having requests written is a run. -/
theorem leadsTo_requestAll (now : Nat) (session : Session) (requests : List Request) :
    session.LeadsTo (session.requestAll now requests).2 := by
  induction requests generalizing session with
  | nil => exact .refl session
  | cons first rest ih =>
    have hfirst := leadsTo_request now session first
    rw [requestAll]
    split
    · next hr =>
      rw [hr] at hfirst
      exact hfirst.trans (ih _)
    · next hr =>
      rw [hr] at hfirst
      exact hfirst

/-- A change of a point is a run. -/
theorem leadsTo_change {α : Type} (now : Nat) (session : Session)
    (update : Registry → Except RegistryError α × Registry) (requests : α → List Request) :
    session.LeadsTo (session.change now update requests).2 := by
  unfold change
  split
  · exact .step session (.setRegistry _)
  · exact (LeadsTo.step session (.setRegistry _)).trans (leadsTo_requestAll now _ _)

/-- The removal of a point is a run. -/
theorem leadsTo_remove {α : Type} (now : Nat) (session : Session)
    (update : Registry → Option α × Registry) (request : α → Request) :
    session.LeadsTo (session.remove now update request).2 := by
  have hrun := (LeadsTo.step session (.setRegistry (update session.core.registry).2)).trans
    (leadsTo_requestAll now _
      ((session.withRegistry (update session.core.registry).2).requestsIfLive
        ((update session.core.registry).1.toList.map request)))
  unfold remove
  dsimp only
  split
  · next hr =>
    rw [perform, hr] at hrun
    exact hrun
  · next hr =>
    rw [perform, hr] at hrun
    exact hrun

/-- An arrival is a run. -/
theorem leadsTo_arrive (now : Nat) (session : Session) (arrivals : List Wire.Arrival) :
    session.LeadsTo (session.arrive now arrivals) :=
  (LeadsTo.step session (.arrive arrivals)).trans (leadsTo_settle now _)

/-- Asking the debuggee to end is a run. -/
theorem leadsTo_shutdown (now : Nat) (session : Session) :
    session.LeadsTo (session.shutdown now) := by
  unfold shutdown
  split
  · exact .refl session
  · exact (LeadsTo.step session .askShutdown).trans (leadsTo_settle now _)

end Session

end DebugLink
