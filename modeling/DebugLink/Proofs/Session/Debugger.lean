import DebugLink.Proofs.Registry.Change
import DebugLink.Proofs.Session.Flow

/-!
# A session and the user who changes its points

The user changes one point after the other. A change updates the registry at once, but its
requests are queued one by one, each behind the answer to the one before; an answer that is an
error ends the change. Between any two of these moves the session may do any of its own steps.
So the moves of the user and the steps of the session interleave in every order.
-/

namespace DebugLink

/-- A session with the change of a point that is under way. -/
structure Debugger where
  /-- The session. -/
  session : Session
  /-- The requests written so far. -/
  told : List Request := []
  /-- The requests of the change that are not queued yet. -/
  unsent : List Request := []
  /-- The request of the change that is queued and whose answer is awaited, with its ticket. -/
  awaited : Option (Nat × Request) := none

/-- What can happen next. -/
inductive Move where
  /-- The user changes a point in the registry. -/
  | change (change : PointChange)
  /-- The user queues the next request of the change. -/
  | queue
  /-- The user takes the answer to the queued request. -/
  | collect
  /-- The session does a step, or something happens that is no change of a point. -/
  | act (action : Action)

namespace Debugger

/-- A change of a point is under way. -/
def isBusy (debugger : Debugger) : Bool :=
  !debugger.unsent.isEmpty || debugger.awaited.isSome

/-- Change a point in the registry, unless a change is under way. Only a debuggee with a program
is to be told. -/
def change (debugger : Debugger) (change : PointChange) : Debugger :=
  if debugger.isBusy then debugger
  else
    let (requests, registry) := change.apply debugger.session.core.registry
    let session := debugger.session.withRegistry registry
    { debugger with session, unsent := session.requestsIfLive requests }

/-- Queue the next request of the change. A session that has ended its work takes none, which
ends the change. -/
def queue (debugger : Debugger) : Debugger :=
  match debugger.awaited, debugger.unsent with
  | none, request :: rest =>
    if debugger.session.ended then { debugger with unsent := [] }
    else
      let (ticket, session) := debugger.session.submit request
      { debugger with session, unsent := rest, awaited := some (ticket, request) }
  | _, _ => debugger

/-- Take the answer to the queued request, if there is one. An error ends the change, and so does
the end of a session that will not answer any more. -/
def collect (debugger : Debugger) : Debugger :=
  match debugger.awaited with
  | none => debugger
  | some (ticket, _) =>
    match debugger.session.replies.lookup ticket with
    | some (.ok ()) => { debugger with awaited := none }
    | some (.error _) => { debugger with awaited := none, unsent := [] }
    | none =>
      if debugger.session.ended then { debugger with awaited := none, unsent := [] } else debugger

/-- Let something else happen, and note what is written. -/
def act (debugger : Debugger) (action : Action) : Debugger :=
  let step : Session.Step := ⟨debugger.session, action⟩
  { debugger with session := step.after, told := debugger.told ++ step.wrote }

/-- Do a move. -/
def perform (debugger : Debugger) : Move → Debugger
  | .change change => debugger.change change
  | .queue => debugger.queue
  | .collect => debugger.collect
  | .act action => debugger.act action

/-- Do moves in order. -/
def run (debugger : Debugger) (moves : List Move) : Debugger := moves.foldl perform debugger

/-- A new session whose points nobody has changed. -/
def start (config : SessionConfig) (script : List Wire.WriteOutcome)
    (broken : Option Wire.IoFault) : Debugger :=
  ⟨Session.start config script broken, [], [], none⟩

/-- No move changes nothing. -/
@[simp] theorem run_nil (debugger : Debugger) : debugger.run [] = debugger := rfl

/-- The first move of a run. -/
@[simp] theorem run_cons (debugger : Debugger) (move : Move) (moves : List Move) :
    debugger.run (move :: moves) = (debugger.perform move).run moves := rfl

/-- Runs one after the other are a run. -/
theorem run_append (debugger : Debugger) (front back : List Move) :
    debugger.run (front ++ back) = (debugger.run front).run back := List.foldl_append

/-- Every move of a run obeys a law. -/
def Obeys (law : Debugger → Move → Prop) (debugger : Debugger) : List Move → Prop
  | [] => True
  | move :: moves => law debugger move ∧ Obeys law (debugger.perform move) moves

instance {law : Debugger → Move → Prop} [∀ debugger move, Decidable (law debugger move)]
    (debugger : Debugger) (moves : List Move) : Decidable (debugger.Obeys law moves) :=
  decideObeys debugger moves
where
  /-- Decide a law move by move. -/
  decideObeys (debugger : Debugger) : (moves : List Move) → Decidable (debugger.Obeys law moves)
    | [] => isTrue trivial
    | move :: moves =>
      have := decideObeys (debugger.perform move) moves
      inferInstanceAs
        (Decidable (law debugger move ∧ Obeys law (debugger.perform move) moves))

/-- A run that obeys two laws obeys both at once. -/
theorem obeys_and {law law' : Debugger → Move → Prop} {debugger : Debugger} {moves : List Move}
    (h : debugger.Obeys law moves) (h' : debugger.Obeys law' moves) :
    debugger.Obeys (fun debugger move => law debugger move ∧ law' debugger move) moves := by
  induction moves generalizing debugger with
  | nil => trivial
  | cons move moves ih => exact ⟨⟨h.1, h'.1⟩, ih h.2 h'.2⟩

/-- What every lawful move keeps holds behind every lawful run. -/
theorem run_of_obeys {law : Debugger → Move → Prop} {P : Debugger → Prop}
    (hstep : ∀ debugger move, law debugger move → P debugger → P (debugger.perform move))
    {debugger : Debugger} {moves : List Move} (h : P debugger)
    (ho : debugger.Obeys law moves) : P (debugger.run moves) := by
  induction moves generalizing debugger with
  | nil => exact h
  | cons move moves ih => exact ih (hstep debugger move ho.1 h) ho.2

/-! ## The calls of the user -/

/-- Steps of the session are moves, and leave the change that is under way alone. -/
theorem run_acts (debugger : Debugger) (actions : List Action) :
    ∃ told, debugger.run (actions.map .act) =
      { debugger with session := debugger.session.run actions, told } := by
  induction actions generalizing debugger with
  | nil => exact ⟨debugger.told, rfl⟩
  | cons action actions ih => exact ih (debugger.act action)

/-- To queue a request and let the session settle is a run. -/
theorem run_queue (now : Nat) {debugger : Debugger} {request : Request} {rest : List Request}
    (hu : debugger.unsent = request :: rest) (ha : debugger.awaited = none)
    (he : debugger.session.ended = false) :
    ∃ moves told, debugger.run moves =
      { debugger with
        session := (debugger.session.submit request).2.settle now
        told, unsent := rest, awaited := some (debugger.session.tickets, request) } := by
  obtain ⟨actions, hactions⟩ :=
    Session.leadsTo_settle now (debugger.session.submit request).2
  have hqueue : debugger.perform .queue =
      { debugger with
        session := (debugger.session.submit request).2
        unsent := rest
        awaited := some (debugger.session.tickets, request) } := by
    rw [perform, queue, ha, hu]
    dsimp only
    rw [he, if_neg Bool.false_ne_true]
    rfl
  obtain ⟨told, hsettle⟩ := run_acts (debugger.perform .queue) actions
  refine ⟨.queue :: actions.map .act, told, ?_⟩
  rw [run_cons, hsettle, hqueue]
  dsimp only
  rw [hactions]

/-- To have the requests of a change written in order is a run. It completes the change if all
of them are answered well. -/
theorem run_requestAll (now : Nat) {debugger : Debugger} {requests : List Request}
    (hu : debugger.unsent = requests) (ha : debugger.awaited = none) :
    ∃ moves, (debugger.run moves).session = (debugger.session.requestAll now requests).2 ∧
      ((debugger.session.requestAll now requests).1 = .ok () →
        (debugger.run moves).isBusy = false) := by
  induction requests generalizing debugger with
  | nil => exact ⟨[], rfl, fun _ => by simp [isBusy, hu, ha]⟩
  | cons request rest ih =>
    rw [Session.requestAll, Session.request]
    cases he : debugger.session.ended with
    | true => exact ⟨[], rfl, fun h => (by cases h)⟩
    | false =>
      obtain ⟨queued, told, hqueued⟩ := run_queue now hu ha he
      have hticket : (debugger.session.submit request).1 = debugger.session.tickets := rfl
      rw [if_neg Bool.false_ne_true]
      dsimp only
      rw [hticket, Session.reply]
      cases hl : ((debugger.session.submit request).2.settle now).replies.lookup
          debugger.session.tickets with
      | none => exact ⟨queued, by rw [hqueued], fun h => (by cases h)⟩
      | some result =>
        cases result with
        | error error => exact ⟨queued, by rw [hqueued], fun h => (by cases h)⟩
        | ok =>
          have hcollect : (debugger.run queued).perform .collect =
              { debugger with
                session := (debugger.session.submit request).2.settle now
                told, unsent := rest, awaited := none } := by
            rw [hqueued, perform, collect]
            dsimp only
            rw [hl]
          have hunsent : ((debugger.run queued).perform .collect).unsent = rest := by
            rw [hcollect]
          have hawaited : ((debugger.run queued).perform .collect).awaited = none := by
            rw [hcollect]
          obtain ⟨moves, hsession, hdone⟩ := ih hunsent hawaited
          refine ⟨queued ++ .collect :: moves, ?_, ?_⟩
          · rw [run_append, run_cons, hsession, hcollect]
          · rw [run_append, run_cons]
            intro hok
            refine hdone ?_
            rw [hcollect]
            exact hok

end Debugger

namespace Session

/-- Take over a changed registry, and have the requests that tell of the change written if there
is a program. -/
def announce (now : Nat) (session : Session) (told : List Request × Registry) : Outcome Unit :=
  (session.withRegistry told.2).requestAll now
    ((session.withRegistry told.2).requestsIfLive told.1)

/-- The call that makes a change announces it. -/
theorem change_eq {α : Type} (now : Nat) (session : Session)
    (update : Registry → Except RegistryError α × Registry) (requests : α → List Request) :
    (session.change now update requests).2 =
      (session.announce now (Registry.tell requests (update session.core.registry))).2 := by
  rw [change]
  cases update session.core.registry with
  | mk result registry =>
    cases result with
    | ok point => rfl
    | error error =>
      rw [Registry.tell, announce, requestsIfLive, ite_self]
      rfl

/-- The call that removes a point announces it. -/
theorem remove_eq {α : Type} (now : Nat) (session : Session)
    (update : Registry → Option α × Registry) (request : α → Request) :
    (session.remove now update request).2 =
      (session.announce now (Registry.tellRemoved request (update session.core.registry))).2 := by
  rw [remove]
  dsimp only
  split
  · next hr => exact (congrArg Prod.snd hr).symm
  · next hr => exact (congrArg Prod.snd hr).symm

end Session

/-- The session behind the call that makes a change. -/
def PointChange.call (now : Nat) (session : Session) : PointChange → Session
  | addBreakpoint breakpoint => (session.addBreakpoint now breakpoint).2
  | removeBreakpoint file line => (session.removeBreakpoint now file line).2
  | enableBreakpoint file line enabled => (session.enableBreakpoint now file line enabled).2
  | ignoreBreakpoint file line count => (session.ignoreBreakpoint now file line count).2
  | addWatchpoint watchpoint => (session.addWatchpoint now watchpoint).2
  | removeWatchpoint condition => (session.removeWatchpoint now condition).2
  | enableWatchpoint condition enabled => (session.enableWatchpoint now condition enabled).2
  | ignoreWatchpoint condition count => (session.ignoreWatchpoint now condition count).2

/-- Every call that makes a change announces what the change is told by. -/
theorem PointChange.call_eq (now : Nat) (session : Session) (change : PointChange) :
    change.call now session = (session.announce now (change.apply session.core.registry)).2 := by
  cases change with
  | addBreakpoint breakpoint => exact session.change_eq now _ _
  | removeBreakpoint file line => exact session.remove_eq now _ _
  | enableBreakpoint file line enabled => exact session.change_eq now _ _
  | ignoreBreakpoint file line count => exact session.change_eq now _ _
  | addWatchpoint watchpoint => exact session.change_eq now _ _
  | removeWatchpoint condition => exact session.remove_eq now _ _
  | enableWatchpoint condition enabled => exact session.change_eq now _ _
  | ignoreWatchpoint condition count => exact session.change_eq now _ _

namespace Debugger

/-- No change of a point is under way. -/
theorem isBusy_eq_false {debugger : Debugger} :
    debugger.isBusy = false ↔ debugger.unsent = [] ∧ debugger.awaited = none := by
  rw [isBusy, Bool.or_eq_false_iff, Bool.not_eq_false', List.isEmpty_iff,
    Option.isSome_eq_false_iff, Option.isNone_iff_eq_none]

/-- The call that makes a change is a run. -/
theorem run_call (now : Nat) {debugger : Debugger} (h : debugger.isBusy = false)
    (change : PointChange) :
    ∃ moves, (debugger.run moves).session = change.call now debugger.session := by
  have hchange : debugger.perform (.change change) =
      { debugger with
        session :=
          debugger.session.withRegistry (change.apply debugger.session.core.registry).2
        unsent := Session.requestsIfLive
          (debugger.session.withRegistry (change.apply debugger.session.core.registry).2)
          (change.apply debugger.session.core.registry).1 } := by
    rw [perform, Debugger.change, h, if_neg Bool.false_ne_true]
  have hunsent := congrArg unsent hchange
  have hawaited := congrArg awaited hchange
  obtain ⟨moves, hsession, -⟩ :=
    run_requestAll now hunsent (hawaited.trans (isBusy_eq_false.mp h).2)
  refine ⟨.change change :: moves, ?_⟩
  rw [run_cons, hsession, hchange, change.call_eq]
  rfl

end Debugger

end DebugLink
