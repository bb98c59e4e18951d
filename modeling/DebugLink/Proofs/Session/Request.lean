import DebugLink.Proofs.Session.Guarded

/-!
# The session that a request meets

A request that is asked for comes behind the commands that already wait, and before any of them is
carried out a frame may be taken in. So the state that decides on the request is not the one in
which it is asked for: the session may have come to an end in between. The answer to the request is
what a write in the session that it meets comes to.
-/

namespace DebugLink.Session

/-- The session that the next request of the user meets: a frame has been taken in, and the commands
that wait have been carried out. -/
def met (now : Nat) (session : Session) : Session :=
  (session.andThen (receive now)).andThen (runCommands now)

/-- Taking in a frame does not look at the commands and tickets. -/
theorem receive_withBooks (now : Nat) (session : Session) (commands : List Command)
    (tickets : Nat) :
    (session.withBooks commands session.followUps tickets).receive now =
      (session.receive now).withBooks commands (session.receive now).followUps tickets := by
  have hr : (session.withBooks commands session.followUps tickets).reader = session.reader := rfl
  have hc : (session.withBooks commands session.followUps tickets).core = session.core := rfl
  unfold receive
  rw [hr, hc]
  rcases session.reader.poll with ⟨poll, reader⟩
  cases poll with
  | idle | closed | fault => rfl
  | frame frame =>
    dsimp only
    rcases session.core.receive frame with ⟨result, core⟩
    cases result <;> rfl

/-- Carrying out a command leaves the requests that follow from what came in. -/
theorem followUps_runCommand (now : Nat) (session : Session) (command : Command) :
    (session.runCommand now command).followUps = session.followUps :=
  (congrArg followUps
    (runCommand_withQueues now session command session.commands session.followUps)).trans rfl

/-- Carrying out a command leaves the commands that wait. -/
theorem commands_runCommand (now : Nat) (session : Session) (command : Command) :
    (session.runCommand now command).commands = session.commands :=
  (congrArg commands
    (runCommand_withQueues now session command session.commands session.followUps)).trans rfl

/-- Carrying out commands does not look at the commands that wait and at the tickets. -/
theorem runCommandsOf_withBooks (now : Nat) (session : Session) (list commands : List Command)
    (tickets : Nat) :
    (session.withBooks commands session.followUps tickets).runCommandsOf now list =
      (session.runCommandsOf now list).withBooks (session.runCommandsOf now list).commands
        (session.runCommandsOf now list).followUps tickets := by
  induction list generalizing session commands with
  | nil => rfl
  | cons command rest ih =>
    rw [runCommandsOf, runCommandsOf, runCommand_withBooks,
      ← followUps_runCommand now session command]
    generalize session.runCommand now command = next
    change (if next.ended then _ else _) = _
    split
    · rfl
    · exact ih next commands

/-- A command behind others is carried out if the session still works behind those. -/
theorem runCommandsOf_concat (now : Nat) {session : Session} (h : session.ended = false)
    (list : List Command) (command : Command) :
    session.runCommandsOf now (list ++ [command]) =
      if (session.runCommandsOf now list).ended then
        { session.runCommandsOf now list with
          commands := (session.runCommandsOf now list).commands ++ [command] }
      else (session.runCommandsOf now list).runCommand now command := by
  induction list generalizing session with
  | nil =>
    have hrun := runCommand_withQueues now session command [] session.followUps
    rw [List.nil_append, runCommandsOf, runCommandsOf, runCommandsOf, ite_self,
      if_neg (by simp [h])]
    refine Eq.trans ?_ hrun.symm
    rw [withQueues, ← followUps_runCommand now session command]
  | cons first rest ih =>
    rw [List.cons_append, runCommandsOf, runCommandsOf]
    cases he : (session.runCommand now first).ended with
    | true => rfl
    | false => exact ih he

/-- A session that has ended its work is at rest. -/
theorem settleWithin_of_ended (now : Nat) {session : Session} (h : session.ended = true)
    (bound : Nat) : session.settleWithin now bound = session := by
  have hround : session.round now = session := by
    rw [round, andThen_of_ended h, andThen_of_ended h, andThen_of_ended h, andThen_of_ended h]
  cases bound with
  | zero => rfl
  | succ bound => rw [settleWithin, hround, if_pos rfl]

/-- A session comes to rest through the first two phases of its first round. -/
theorem settle_of_met (now : Nat) (session : Session) :
    (session.met now).LeadsTo (session.settle now) ∧
      ((session.met now).ended = true → session.settle now = session.met now) := by
  have hround : session.round now =
      ((session.met now).andThen (sendFollowUps now)).andThen (checkTimers now) := rfl
  have hleads : (session.met now).LeadsTo (session.round now) := by
    rw [hround]
    exact (leadsTo_andThen (leadsTo_sendFollowUps now _)).trans (LeadsTo.step _ (.timers now))
  have hsettle : ∃ bound, session.settle now = (session.round now).settleWithin now bound := by
    change ∃ bound, (if (session.round now).mark = session.mark then _ else
      settleWithin now _ _) = _
    split
    · exact ⟨0, rfl⟩
    · exact ⟨_, rfl⟩
  obtain ⟨bound, hsettle⟩ := hsettle
  rw [hsettle]
  refine ⟨hleads.trans (leadsTo_settleWithin now bound _), fun h => ?_⟩
  rw [hround, andThen_of_ended h, andThen_of_ended h, settleWithin_of_ended now h]

/-- Taking in a frame and carrying out commands gives out no ticket. -/
theorem tickets_met (now : Nat) (session : Session) :
    (session.met now).tickets = session.tickets := by
  have hthen : ∀ {session : Session} {phase : Session → Session},
      (phase session).tickets = session.tickets →
        (session.andThen phase).tickets = session.tickets := by
    intro session phase hp
    unfold andThen
    split
    · rfl
    · exact hp
  have hreceive : ∀ session : Session, (session.receive now).tickets = session.tickets :=
    fun session => (congrArg (fun books => books.2.2) (books_receive now session)).trans rfl
  have hcommands : ∀ session : Session, (session.runCommands now).tickets = session.tickets :=
    fun session => (congrArg Session.tickets (runCommandsOf_withBooks now session session.commands
      session.commands session.tickets)).trans rfl
  exact (hthen (hcommands _)).trans (hthen (hreceive session))

/-- What a request meets is reached by steps of the session. -/
theorem leadsTo_met (now : Nat) (session : Session) : session.LeadsTo (session.met now) :=
  (LeadsTo.step session (.receive now)).trans (leadsTo_andThen (leadsTo_runCommands now _))

/-- A request that is asked for is carried out behind the commands that wait, in the session that it
meets, if that one still works. -/
theorem met_submit (now : Nat) {session : Session} (h : session.ended = false)
    (request : Request) :
    (session.submit request).2.met now =
      if (session.met now).ended then
        (session.met now).withBooks ((session.met now).commands ++ [.send session.tickets request])
          (session.met now).followUps (session.tickets + 1)
      else
        ((session.met now).withBooks (session.met now).commands (session.met now).followUps
          (session.tickets + 1)).runCommand now (.send session.tickets request) := by
  have hreceive : (session.submit request).2.receive now =
      (session.receive now).withBooks ((session.receive now).commands ++
        [.send session.tickets request]) (session.receive now).followUps (session.tickets + 1) := by
    have hbooks := congrArg Prod.fst (books_receive now session)
    rw [show (session.receive now).commands = session.commands from hbooks]
    exact receive_withBooks now session _ _
  have hsubmit : (session.submit request).2.ended = false := h
  rw [met, met, andThen_of_not_ended h, andThen_of_not_ended hsubmit, hreceive]
  generalize session.receive now = received
  have hbooks : ∀ commands followUps tickets,
      (received.withBooks commands followUps tickets).ended = received.ended := fun _ _ _ => rfl
  cases he : received.ended with
  | true => rw [andThen_of_ended he, if_pos he, andThen_of_ended ((hbooks ..).trans he)]
  | false =>
    rw [andThen_of_not_ended he, andThen_of_not_ended ((hbooks ..).trans he), runCommands]
    change runCommandsOf now _ (received.commands ++ [.send session.tickets request]) = _
    rw [runCommandsOf_withBooks, runCommandsOf_concat now he, runCommands]
    split
    · rfl
    · rw [runCommand_withBooks, followUps_runCommand, commands_runCommand]

/-- The answer to a request is filed when it is carried out. -/
theorem replies_runCommand (now : Nat) (session : Session) (ticket : Nat) (request : Request) :
    (session.runCommand now (.send ticket request)).replies =
      session.replies ++ [(ticket, (session.send now request).1)] := by
  rcases session.send_cases now request with ⟨-, error, he, hs⟩ | ⟨-, bytes, sink, -, -, hs⟩ |
    ⟨-, fault, sink, part, -, hs⟩
  · rw [runCommand, hs]
    cases error with
    | wire fault => cases he
    | _ => rfl
  · rw [runCommand, hs]
    rfl
  · rw [runCommand, hs]
    rfl

/-- The answer to a request is that of a write in the session that it meets, if that one works. -/
theorem request_fst {session : Session} (h : session.IsNumbered) (now : Nat) (request : Request) :
    (session.request now request).1 =
      if (session.met now).ended then .error (session.request now request).2.gone
      else ((session.met now).send now request).1 := by
  have hnone : (session.met now).replies.lookup session.tickets = none := by
    obtain ⟨actions, hmet⟩ := leadsTo_met now session
    rw [← tickets_met now session]
    exact lookup_eq_none (hmet ▸ (isNumbered_run h actions).2)
  have hbooks : ∀ commands followUps tickets,
      ((session.met now).withBooks commands followUps tickets).replies =
        (session.met now).replies := fun _ _ _ => rfl
  cases he : session.ended with
  | true =>
    have hmet : session.met now = session := by rw [met, andThen_of_ended he, andThen_of_ended he]
    rw [Session.request, if_pos he, hmet, if_pos he]
  | false =>
    have hmet := met_submit now he request
    obtain ⟨hleads, hsettled⟩ := settle_of_met now (session.submit request).2
    rw [Session.request, if_neg (by simp [he])]
    change reply ((session.submit request).2.settle now) session.tickets =
      if _ then .error ((session.submit request).2.settle now).gone else _
    cases hm : (session.met now).ended with
    | true =>
      rw [if_pos hm] at hmet
      rw [hsettled (by rw [hmet]; exact hm), hmet, if_pos rfl, reply, hbooks, hnone]
    | false =>
      rw [if_neg (by simp [hm])] at hmet
      obtain ⟨actions, hrest⟩ := hleads
      have hfiled : ((session.submit request).2.met now).replies.lookup session.tickets =
          some ((session.met now).send now request).1 := by
        rw [hmet, replies_runCommand, send_withBooks, List.lookup_append, hbooks, hnone,
          Option.none_or, List.lookup_cons_self]
      rw [hrest, reply, lookup_run_of_lookup hfiled actions]
      rfl

end DebugLink.Session
