import DebugLink.Proofs.Session.Steps

/-!
# Answers to the user

Tickets are given out in order, commands wait in that order, and answers are filed in that
order. So the tickets of the answers and of the commands that wait are all tickets given out,
each once: no request is carried out twice, and none is answered before it is carried out.
-/

namespace DebugLink

/-- The ticket and the request of a command. -/
def Command.ticket? : Command → Option (Nat × Request)
  | send ticket request => some (ticket, request)
  | shutdown => none

namespace Session

/-- The requests of the user that wait to be carried out, with their tickets. -/
def waiting (session : Session) : List (Nat × Request) :=
  session.commands.filterMap Command.ticket?

/-- The tickets of the answers, and then those of the requests that wait. -/
def ledger (session : Session) : List Nat :=
  session.replies.map Prod.fst ++ session.waiting.map Prod.fst

/-- What a session keeps about its user. -/
def books (session : Session) : List Command × List (Nat × Except SessionError Unit) × Nat :=
  (session.commands, session.replies, session.tickets)

/-- A phase that is not performed keeps the books too. -/
theorem books_andThen {session : Session} {phase : Session → Session}
    (h : (phase session).books = session.books) :
    (session.andThen phase).books = session.books := by
  unfold andThen
  split
  · rfl
  · exact h

/-- Taking in a frame keeps the books. -/
theorem books_receive (now : Nat) (session : Session) :
    (session.receive now).books = session.books := by
  rcases session.receive_cases now with ⟨_, h⟩ | ⟨_, _, h⟩ | ⟨_, _, _, _, -, -, h⟩ | ⟨_, _, h⟩ <;>
    rw [h] <;> rfl

/-- Writing a request that follows from what came in keeps the books. -/
theorem books_sendNextFollowUp (now : Nat) (session : Session) :
    (session.sendNextFollowUp now).books = session.books := by
  cases hf : session.followUps with
  | nil => rw [sendNextFollowUp, hf]
  | cons request rest =>
    rcases sendNextFollowUp_cases now hf with ⟨-, h⟩ | ⟨-, _, _, -, -, h⟩ | ⟨-, _, _, _, -, h⟩ <;>
      rw [h] <;> rfl

/-- A look at the timers keeps the books. -/
theorem books_checkTimers (now : Nat) (session : Session) :
    (session.checkTimers now).books = session.books := by
  obtain ⟨_, h | ⟨_, h⟩ | ⟨-, _, _, -, -, h⟩ | ⟨-, _, _, _, -, h⟩⟩ :=
    session.checkTimers_cases now <;> rw [h] <;> rfl

/-- All tickets given out are in the ledger, in order. -/
def IsNumbered (session : Session) : Prop := session.ledger = List.range session.tickets

/-- A request that is asked for waits behind the others, with the next ticket. -/
theorem waiting_submit (session : Session) (request : Request) :
    (session.perform (.submit request)).waiting =
      session.waiting ++ [(session.tickets, request)] := List.filterMap_append

namespace Step

/-- The step carries out the request of the user that has a ticket. -/
structure Handles (step : Step) (ticket : Nat) (request : Request) : Prop where
  /-- The session works. -/
  works : step.before.ended = false
  /-- The step carries out a command. -/
  action : ∃ now, step.action = .command now
  /-- The command is the oldest one. -/
  head : step.before.commands.head? = some (.send ticket request)

/-- What the answer to a request says about the step that carried it out. -/
structure Answers (step : Step) (request : Request) (result : Except SessionError Unit) :
    Prop where
  /-- A request that is answered well was written whole. -/
  writes : result = .ok () → step.Writes request
  /-- A request that was refused left no byte on the wire and changed nothing. -/
  refused : ∀ error, result = .error error → SessionError.isRefusal error = true →
    step.after.sink.accepted = step.before.sink.accepted ∧
      step.after.state = step.before.state ∧
        step.after.core.pending = step.before.core.pending
  /-- A request that was admitted and is answered by an error has cost the connection. -/
  failed : ∀ error, result = .error error → step.before.Admits request.word →
    step.after.state.isTerminal = true

/-- What a step does to the requests of the user and their answers. -/
inductive Files (step : Step) : Prop
  /-- Nothing is asked for, and nothing is answered. -/
  | keeps (hw : step.after.waiting = step.before.waiting)
      (hr : step.after.replies = step.before.replies)
      (ht : step.after.tickets = step.before.tickets)
      (hn : ∀ ticket request, ¬ step.Handles ticket request)
  /-- A request is asked for. -/
  | submits (request : Request) (ha : step.action = .submit request)
      (hw : step.after.waiting = step.before.waiting ++ [(step.before.tickets, request)])
      (hr : step.after.replies = step.before.replies)
      (ht : step.after.tickets = step.before.tickets + 1)
  /-- The oldest request is carried out and answered. -/
  | answers (ticket : Nat) (request : Request) (result : Except SessionError Unit)
      (hh : step.Handles ticket request)
      (hw : step.before.waiting = (ticket, request) :: step.after.waiting)
      (hr : step.after.replies = step.before.replies ++ [(ticket, result)])
      (ht : step.after.tickets = step.before.tickets)
      (ha : step.Answers request result)

variable {step : Step}

/-- Only a command is carried out for the user. -/
theorem not_handles_of_action (h : ∀ now, step.action ≠ .command now) (ticket : Nat)
    (request : Request) : ¬ step.Handles ticket request := fun hh => by
  obtain ⟨now, ha⟩ := hh.action
  exact h now ha

/-- A step that leaves commands, answers and tickets alone. -/
theorem files_of_same (hc : step.after.commands = step.before.commands)
    (hr : step.after.replies = step.before.replies)
    (ht : step.after.tickets = step.before.tickets)
    (hn : ∀ ticket request, ¬ step.Handles ticket request) : step.Files :=
  .keeps (congrArg (List.filterMap Command.ticket?) hc) hr ht hn

/-- The request that is carried out for the user is the one that the step may write. -/
theorem Handles.offer {ticket : Nat} {request : Request} (h : step.Handles ticket request) :
    step.offer? = some request := by
  obtain ⟨now, ha⟩ := h.action
  simp [offer?, ha, h.works, h.head, Command.request]

/-- A step of carrying out the oldest request of the user answers it. -/
theorem files_of_send {now ticket : Nat} {request : Request} {rest : List Command}
    (hh : step.Handles ticket request)
    (hc : step.before.commands = .send ticket request :: rest)
    (hafter : step.after =
      { step.before with commands := rest }.runCommand now (.send ticket request)) :
    step.Files := by
  have hw : step.before.waiting = (ticket, request) :: rest.filterMap Command.ticket? := by
    rw [waiting, hc]
    rfl
  rcases runCommand_send_cases now { step.before with commands := rest } ticket request with
    ⟨hn, error, -, hs⟩ | ⟨hadmits, bytes, sink, henc, hb, hs⟩ |
    ⟨hadmits, fault, sink, part, -, hs⟩ <;> rw [hs] at hafter
  · refine .answers ticket request _ hh (by rw [hw, hafter]; rfl) (by rw [hafter])
      (by rw [hafter]) ⟨fun hr => (by cases hr), fun _ _ _ => ?_,
        fun _ _ ha => absurd ⟨ha.notTerminal, ha.allows⟩ hn⟩
    rw [hafter]
    exact ⟨rfl, rfl, rfl⟩
  · refine .answers ticket request (.ok ()) hh (by rw [hw, hafter]; rfl) (by rw [hafter])
      (by rw [hafter]; rfl)
      ⟨fun _ => ?_, fun _ hr => (by cases hr), fun _ hr => (by cases hr)⟩
    exact writes_of_noted hh.offer ⟨hadmits.notTerminal, hadmits.allows⟩ henc hb
      (by rw [hafter]; rfl) (by rw [hafter]; rfl) (by rw [hafter]; rfl)
  · refine .answers ticket request (.error (.wire fault)) hh (by rw [hw, hafter]; rfl)
      (by rw [hafter]; rfl) (by rw [hafter]; rfl)
      ⟨fun hr => (by cases hr), fun _ hr hrefusal => ?_, fun _ _ _ => ?_⟩
    · cases hr
      cases hrefusal
    · rw [hafter]
      exact isTerminal_lose _ _

/-- A step of carrying out a command. -/
theorem command_files {now : Nat} (ha : step.action = .command now) : step.Files := by
  rcases command_cases ha with ⟨hnone, hafter⟩ | ⟨he, command, rest, hc, -, hafter⟩
  · refine files_of_same (by rw [hafter]) (by rw [hafter]) (by rw [hafter]) fun _ _ hh => ?_
    have hoffer := hnone.symm.trans hh.offer
    cases hoffer
  cases command with
  | send ticket request => exact files_of_send ⟨he, ⟨now, ha⟩, by rw [hc]; rfl⟩ hc hafter
  | shutdown =>
    have hn : ∀ ticket request, ¬ step.Handles ticket request := fun _ _ hh => by
      have hhead := hh.head
      rw [hc] at hhead
      cases hhead
    have hw : step.before.waiting = rest.filterMap Command.ticket? := by
      rw [waiting, hc]
      rfl
    rw [runCommand] at hafter
    rcases beginShutdown_cases now { step.before with commands := rest } with
      ⟨deadline, hs⟩ | ⟨-, bytes, sink, deadline, -, -, hs⟩ |
      ⟨-, sink, part, deadline, -, hs⟩ <;> rw [hs] at hafter <;>
      exact .keeps (by rw [hw, hafter]; rfl) (by rw [hafter] <;> rfl) (by rw [hafter] <;> rfl) hn

/-- Every step keeps the requests of the user, takes one up, or answers the oldest. -/
theorem files (step : Step) : step.Files := by
  obtain ⟨before, action⟩ := step
  have hbooks : ∀ {next : Session}, next = after ⟨before, action⟩ → next.books = before.books →
      (∀ now, action ≠ .command now) → Files ⟨before, action⟩ := by
    intro next hnext hb hn
    rw [hnext, books, books, Prod.mk.injEq, Prod.mk.injEq] at hb
    exact files_of_same hb.1 hb.2.1 hb.2.2 (not_handles_of_action hn)
  cases action with
  | arrive | setRegistry | setIgnored | unsetIgnored =>
    exact hbooks rfl rfl (fun now => by simp)
  | submit request => exact .submits request rfl (waiting_submit before request) rfl rfl
  | askShutdown =>
    exact .keeps (List.filterMap_append.trans (List.append_nil _)) rfl rfl
      (not_handles_of_action fun now => by simp)
  | receive now => exact hbooks rfl (books_andThen (books_receive now before)) (fun now => by simp)
  | command now => exact command_files rfl
  | followUp now =>
    exact hbooks rfl (books_andThen (books_sendNextFollowUp now before)) (fun now => by simp)
  | timers now =>
    exact hbooks rfl (books_andThen (books_checkTimers now before)) (fun now => by simp)

/-- A step carries out one request only. -/
theorem Handles.inj {ticket ticket' : Nat} {request request' : Request}
    (h : step.Handles ticket request) (h' : step.Handles ticket' request') :
    ticket = ticket' ∧ request = request' := by
  have hhead := h.head.symm.trans h'.head
  rw [Option.some.injEq, Command.send.injEq] at hhead
  exact hhead

/-- A step that carries out a request answers it. -/
theorem Handles.answers {ticket : Nat} {request : Request} (h : step.Handles ticket request) :
    ∃ result, step.after.replies = step.before.replies ++ [(ticket, result)] ∧
      step.Answers request result := by
  cases step.files with
  | keeps hw hr ht hn => exact absurd h (hn ticket request)
  | submits asked ha =>
    obtain ⟨now, hc⟩ := h.action
    rw [ha] at hc
    cases hc
  | answers handled asked result hh hw hr ht ha =>
    obtain ⟨rfl, rfl⟩ := hh.inj h
    exact ⟨result, hr, ha⟩

/-- A step leaves the answers to the requests that it does not carry out as they are. -/
theorem lookup_of_not_handles {ticket : Nat} (h : ∀ request, ¬ step.Handles ticket request) :
    step.after.replies.lookup ticket = step.before.replies.lookup ticket := by
  cases step.files with
  | keeps hw hr => rw [hr]
  | submits asked ha hw hr => rw [hr]
  | answers handled asked result hh hw hr ht ha =>
    have hne : ticket ≠ handled := fun heq => h asked (heq ▸ hh)
    rw [hr, List.lookup_append, List.lookup_cons, beq_eq_false_iff_ne.mpr hne]
    exact Option.or_none

end Step

/-! ## Runs -/

/-- Every step keeps the ledger in order. -/
theorem isNumbered_step (step : Step) (h : step.before.IsNumbered) : step.after.IsNumbered := by
  rw [IsNumbered, ledger] at h ⊢
  cases step.files with
  | keeps hw hr ht => rw [hw, hr, ht, h]
  | submits request ha hw hr ht =>
    rw [hw, hr, ht, List.map_append, ← List.append_assoc, h, List.range_succ]
    rfl
  | answers ticket request result hh hw hr ht ha =>
    rw [hw, List.map_cons] at h
    rw [hr, ht, ← h, List.map_append, List.append_assoc]
    rfl

/-- A new session has an empty ledger. -/
theorem isNumbered_start (config : SessionConfig) (script : List Wire.WriteOutcome)
    (broken : Option Wire.IoFault) : (start config script broken).IsNumbered := rfl

/-- Tickets are given out in order. -/
theorem tickets_le_step (step : Step) : step.before.tickets ≤ step.after.tickets := by
  cases step.files with
  | keeps hw hr ht => omega
  | submits request ha hw hr ht => omega
  | answers ticket request result hh hw hr ht ha => omega

/-- A request that waits has a ticket that was given out. -/
theorem lt_of_mem_waiting {session : Session} (h : session.IsNumbered) {ticket : Nat}
    {request : Request} (hm : (ticket, request) ∈ session.waiting) : ticket < session.tickets := by
  have hl : ticket ∈ session.ledger :=
    List.mem_append_right _ (List.mem_map_of_mem (f := Prod.fst) hm)
  rw [h] at hl
  exact List.mem_range.mp hl

/-- A ticket that has not been given out has no answer. -/
theorem lookup_eq_none {session : Session} (h : session.IsNumbered) :
    session.replies.lookup session.tickets = none := by
  rw [List.lookup_eq_none_iff]
  intro entry hm
  have hl : entry.1 ∈ session.ledger :=
    List.mem_append_left _ (List.mem_map_of_mem (f := Prod.fst) hm)
  rw [h, List.mem_range] at hl
  rw [bne_iff_ne]
  omega

/-- A request that is asked for is the only one that waits with its ticket. -/
theorem eq_of_mem_waiting_submit {session : Session} (h : session.IsNumbered)
    {request other : Request}
    (hm : (session.tickets, other) ∈ (session.perform (.submit request)).waiting) :
    other = request := by
  rw [waiting_submit, List.mem_append, List.mem_singleton, Prod.mk.injEq] at hm
  rcases hm with hold | ⟨-, hnew⟩
  · exact absurd (lt_of_mem_waiting h hold) (Nat.lt_irrefl _)
  · exact hnew

/-- The ticket of a request is carried out with that request only. -/
theorem waiting_step {step : Step} {ticket : Nat} {request : Request}
    (h : ticket < step.before.tickets ∧
      ∀ other, (ticket, other) ∈ step.before.waiting → other = request) :
    ticket < step.after.tickets ∧
      ∀ other, (ticket, other) ∈ step.after.waiting → other = request := by
  obtain ⟨hlt, hw⟩ := h
  refine ⟨Nat.lt_of_lt_of_le hlt (tickets_le_step step), fun other hm => ?_⟩
  cases step.files with
  | keeps hkept hr ht =>
    rw [hkept] at hm
    exact hw other hm
  | submits asked ha hkept hr ht =>
    rw [hkept, List.mem_append, List.mem_singleton, Prod.mk.injEq] at hm
    rcases hm with hm | ⟨heq, -⟩
    · exact hw other hm
    · omega
  | answers handled asked result hh hkept hr ht ha =>
    refine hw other ?_
    rw [hkept]
    exact List.mem_cons_of_mem _ hm

/-- A request that is carried out has waited. -/
theorem Step.Handles.mem_waiting {step : Step} {ticket : Nat} {request : Request}
    (h : step.Handles ticket request) : (ticket, request) ∈ step.before.waiting :=
  List.mem_filterMap.mpr ⟨.send ticket request, List.mem_of_head? h.head, rfl⟩

/-- A request that has been answered is not carried out. -/
theorem not_handles_of_mem_replies {step : Step} {ticket : Nat} (h : step.before.IsNumbered)
    (hr : ticket ∈ step.before.replies.map Prod.fst) (request : Request) :
    ¬ step.Handles ticket request := fun hh => by
  have hnodup : step.before.ledger.Nodup := by
    rw [h]
    exact List.nodup_range
  have hw := List.mem_map_of_mem (f := Prod.fst) hh.mem_waiting
  exact (List.nodup_append.mp hnodup).2.2 ticket hr ticket hw rfl

/-- Answers stay. -/
theorem replies_step (step : Step) : ∃ more, step.after.replies = step.before.replies ++ more := by
  cases step.files with
  | keeps hw hr ht => exact ⟨[], by rw [hr, List.append_nil]⟩
  | submits request ha hw hr ht => exact ⟨[], by rw [hr, List.append_nil]⟩
  | answers ticket request result hh hw hr ht ha => exact ⟨[(ticket, result)], hr⟩

/-- After a request has been answered, no step carries it out again. -/
theorem not_handles_of_answered {session : Session} {ticket : Nat} (h : session.IsNumbered)
    (hr : ticket ∈ session.replies.map Prod.fst) (actions : List Action) :
    ∀ step ∈ steps session actions, ∀ request, ¬ step.Handles ticket request := by
  obtain ⟨hsteps, -⟩ := forall_steps
    (P := fun session => session.IsNumbered ∧ ticket ∈ session.replies.map Prod.fst)
    (fun step ⟨hi, hm⟩ => by
      obtain ⟨more, hmore⟩ := replies_step step
      refine ⟨isNumbered_step step hi, ?_⟩
      rw [hmore, List.map_append]
      exact List.mem_append_left _ hm) ⟨h, hr⟩ actions
  exact fun step hs => not_handles_of_mem_replies (hsteps step hs).1 (hsteps step hs).2

/-- An answer that is found stays the answer. -/
theorem lookup_run_of_lookup {session : Session} {ticket : Nat}
    {result : Except SessionError Unit} (h : session.replies.lookup ticket = some result)
    (actions : List Action) : (session.run actions).replies.lookup ticket = some result :=
  (forall_steps (P := fun session => session.replies.lookup ticket = some result)
    (fun step hr => by
      obtain ⟨more, hmore⟩ := replies_step step
      rw [hmore, List.lookup_append, hr]
      rfl) h actions).2

/-- A request that is carried out has no answer yet. -/
theorem lookup_of_handles {step : Step} {ticket : Nat} {request : Request}
    (h : step.before.IsNumbered) (hh : step.Handles ticket request) :
    step.before.replies.lookup ticket = none := by
  rw [List.lookup_eq_none_iff]
  intro entry hentry
  refine bne_iff_ne.mpr fun heq => not_handles_of_mem_replies h ?_ request hh
  rw [heq]
  exact List.mem_map_of_mem (f := Prod.fst) hentry

/-- The answer to a request is the one that is given when it is carried out. -/
theorem lookup_run_of_handles {step : Step} {ticket : Nat} {request : Request}
    (h : step.before.IsNumbered) (hh : step.Handles ticket request) (actions : List Action) :
    ∃ result, (step.after.run actions).replies.lookup ticket = some result ∧
      step.Answers request result := by
  obtain ⟨result, hr, ha⟩ := hh.answers
  refine ⟨result, lookup_run_of_lookup ?_ actions, ha⟩
  rw [hr, List.lookup_append, lookup_of_handles h hh, Option.none_or, List.lookup_cons_self]

/-- An answer that is found after a run was there before, or was given by one step of the run,
which alone carried the request out. -/
theorem lookup_run {session : Session} {ticket : Nat} {result : Except SessionError Unit}
    (h : session.IsNumbered) (actions : List Action)
    (hr : (session.run actions).replies.lookup ticket = some result)
    (hnone : session.replies.lookup ticket = none) :
    ∃ earlier step later request, steps session actions = earlier ++ step :: later ∧
      step.Handles ticket request ∧ step.Answers request result ∧
        ∀ other ∈ earlier ++ later, ∀ request, ¬ other.Handles ticket request := by
  induction actions generalizing session with
  | nil =>
    rw [run_nil, hnone] at hr
    cases hr
  | cons action actions ih =>
    rw [run_cons] at hr
    have hnext : (session.perform action).IsNumbered := isNumbered_step ⟨session, action⟩ h
    by_cases hfirst : ∃ request, Step.Handles ⟨session, action⟩ ticket request
    · obtain ⟨request, hh⟩ := hfirst
      obtain ⟨found, hfound, ha⟩ := lookup_run_of_handles h hh actions
      obtain rfl := Option.some.inj (hfound.symm.trans hr)
      obtain ⟨given, hgiven, -⟩ := hh.answers
      have hmem : ticket ∈ (session.perform action).replies.map Prod.fst := by
        rw [show (session.perform action).replies = _ from hgiven]
        simp
      exact ⟨[], ⟨session, action⟩, steps (session.perform action) actions, request, rfl, hh,
        ha, not_handles_of_answered hnext hmem actions⟩
    · rw [not_exists] at hfirst
      have hkept : (session.perform action).replies.lookup ticket = none :=
        (Step.lookup_of_not_handles hfirst).trans hnone
      obtain ⟨earlier, step, later, request, hs, hh, ha, ho⟩ := ih hnext hr hkept
      refine ⟨⟨session, action⟩ :: earlier, step, later, request, ?_, hh, ha, ?_⟩
      · rw [steps, hs, List.cons_append]
      · exact List.forall_mem_cons.mpr ⟨hfirst, ho⟩

end Session

end DebugLink
