import DebugLink.Proofs.Session.Ending
import DebugLink.Proofs.Session.Rounds
import DebugLink.Proofs.Wire.Whole

/-!
# What comes behind a torn message

A session gives up its connection when a request cannot be written, so that nothing comes behind
the part of it that is on the wire. The request to end the debuggee is the exception: when it
is torn the session goes on until it looks at its timers, and what it writes until then comes
behind the part. So what is on the wire is made of whole messages, and perhaps of a part of one at
the end, if and only if nothing is written in that time.
-/

namespace DebugLink

namespace Session

/-- The messages that were written are on the wire, in order, and nothing else. -/
structure Intact (session : Session) : Prop where
  /-- The bytes on the wire are those of the messages. -/
  accepted : session.sink.accepted = session.written.toList.flatMap Wire.messageBytes
  /-- The messages may be written. -/
  encoded : ∀ message ∈ session.written.toList,
    Wire.encode session.config.payloadLimit message = .ok (Wire.messageBytes message)

/-! ## One step -/

namespace Step

/-- The step leaves some bytes of a request on the wire, but not all of them. -/
structure Cuts (step : Step) (request : Request) (part : Bytes) : Prop where
  /-- The request is torn. -/
  tears : step.Tears request part
  /-- Some of its bytes are on the wire. -/
  part_ne_nil : part ≠ []

variable {step : Step} {request : Request} {part : Bytes}

/-- A session that is over puts nothing on the wire. -/
theorem accepted_of_isOver (h : step.before.IsOver) :
    step.after.sink.accepted = step.before.sink.accepted := by
  cases step.outcome with
  | quiet hq => exact hq.accepted
  | writes request hw => exact absurd h (not_isOver_of_admits hw.offered hw.admits)
  | tears request part ht => exact absurd h (not_isOver_of_admits ht.offered ht.admits)

/-- A request that cannot be written ends the session, unless it is the one to end the
debuggee. -/
theorem isOver_of_tears (h : step.Tears request part) (hne : request ≠ .shutdown) :
    step.after.IsOver := by
  rcases h.ended with ⟨heq, -⟩ | hstate
  · exact absurd heq hne
  · exact .inr (by rw [hstate]; rfl)

/-- What a step puts on the wire opens with a bracket. -/
theorem exists_opens (step : Step) : ∃ put, Wire.Opens put ∧
    step.after.sink.accepted = step.before.sink.accepted ++ put := by
  cases step.outcome with
  | quiet hq => exact ⟨[], .inl rfl, by rw [hq.accepted, List.append_nil]⟩
  | writes request hw =>
    obtain ⟨bytes, he, hb⟩ := hw.accepted
    rw [Wire.eq_messageBytes_of_encode he] at hb
    exact ⟨_, Wire.opens_messageBytes _, hb⟩
  | tears request part ht =>
    refine ⟨part, ?_, ht.torn.accepted⟩
    rcases ht.torn.proper with hnil | ⟨rest, -, he⟩
    · exact .inl hnil
    · have hopens := Wire.opens_messageBytes request.toMessage
      rw [← Wire.eq_messageBytes_of_encode he] at hopens
      exact hopens.of_append

/-- A step that cuts no request keeps the wire intact. -/
theorem intact_step (h : step.before.Intact) (hn : ∀ request part, ¬ step.Cuts request part) :
    step.after.Intact := by
  have hconfig := step.proceeds.config
  cases step.outcome with
  | quiet hq =>
    refine ⟨by rw [hq.accepted, hq.written, h.accepted], ?_⟩
    rw [hq.written, hconfig]
    exact h.encoded
  | writes request hw =>
    obtain ⟨bytes, he, hb⟩ := hw.accepted
    have hbytes := Wire.eq_messageBytes_of_encode he
    rw [hbytes] at he
    refine ⟨?_, fun message hm => ?_⟩
    · rw [hb, h.accepted, hw.written, hbytes]
      simp
    · rw [hw.written, History.toList_add, List.mem_append, List.mem_singleton] at hm
      rw [hconfig]
      rcases hm with hm | rfl
      · exact h.encoded message hm
      · exact he
  | tears request part ht =>
    have hnil : part = [] := by
      by_contra hpart
      exact hn request part ⟨ht, hpart⟩
    refine ⟨?_, by rw [ht.written, hconfig]; exact h.encoded⟩
    rw [ht.torn.accepted, hnil, List.append_nil, ht.written, h.accepted]

/-- The bytes of a request that are missing behind a cut. -/
theorem Cuts.exists_rest (h : step.Cuts request part) : ∃ rest, rest ≠ [] ∧
    Wire.encode step.before.config.payloadLimit request.toMessage = .ok (part ++ rest) :=
  h.tears.torn.proper.resolve_left h.part_ne_nil

/-- A cut puts neither nothing nor all of the request on the wire. -/
theorem Cuts.ne (h : step.Cuts request part) {bytes : Bytes}
    (hb : bytes = [] ∨
      Wire.encode step.before.config.payloadLimit request.toMessage = .ok bytes) :
    step.after.sink.accepted ≠ step.before.sink.accepted ++ bytes := by
  intro heq
  rw [h.tears.torn.accepted, List.append_cancel_left_eq] at heq
  rcases hb with hnil | he
  · exact h.part_ne_nil (heq.trans hnil)
  · obtain ⟨rest, hrest, hpart⟩ := h.exists_rest
    rw [he, heq, Except.ok.injEq] at hpart
    exact hrest (List.append_cancel_left (hpart.symm.trans (List.append_nil bytes).symm))

end Step

/-! ## The time that is left -/

/-- Beginning to end the debuggee leaves the wire alone, writes the request whole, or sets the
deadline to the present. -/
theorem deadline_beginShutdown (now : Nat) (session : Session) :
    (session.beginShutdown now).sink = session.sink ∨
      (∃ bytes, Wire.encode session.config.payloadLimit Request.shutdown.toMessage = .ok bytes ∧
        (session.beginShutdown now).sink.accepted = session.sink.accepted ++ bytes) ∨
      (session.beginShutdown now).deadline = some now := by
  unfold beginShutdown
  split
  · exact .inl rfl
  · split
    · exact .inl rfl
    · rcases session.send_cases now .shutdown with ⟨-, error, -, hs⟩ |
        ⟨-, bytes, sink, he, hb, hs⟩ | ⟨-, fault, sink, part, -, hs⟩ <;> rw [hs]
      · exact .inl rfl
      · exact .inr (.inl ⟨bytes, he, hb⟩)
      · exact .inr (.inr rfl)

/-- Nothing is written any more, or the session works until the given time at the latest. -/
def IsClosing (deadline : Nat) (session : Session) : Prop :=
  session.IsOver ∨ session.deadline = some deadline

namespace Step

variable {step : Step} {request : Request} {part : Bytes}

/-- Every step goes on with closing the session. -/
theorem isClosing_step {deadline : Nat} (h : step.before.IsClosing deadline) :
    step.after.IsClosing deadline :=
  h.imp isOver_step (step.proceeds.deadline deadline)

/-- A command that cuts a request closes the session. -/
theorem Cuts.isClosing (h : step.Cuts request part) {now : Nat} (ha : step.action = .command now) :
    step.after.IsClosing now := by
  rcases command_cases ha with ⟨-, hafter⟩ | ⟨-, command, rest, -, ho, hafter⟩
  · exact absurd (by rw [hafter, List.append_nil]) (h.ne (.inl rfl))
  have hrequest : command.request = request :=
    Option.some.inj (ho.symm.trans h.tears.offered)
  cases command with
  | shutdown =>
    rw [runCommand] at hafter
    obtain rfl : Request.shutdown = request := hrequest
    rcases deadline_beginShutdown now { step.before with commands := rest } with hs |
      ⟨bytes, he, hb⟩ | hd
    · exact absurd (by rw [hafter, hs, List.append_nil]) (h.ne (.inl rfl))
    · rw [← hafter] at hb
      exact absurd hb (h.ne (.inr he))
    · exact .inr (by rw [hafter, hd])
  | send ticket asked =>
    obtain rfl : asked = request := hrequest
    rcases runCommand_send_cases now { step.before with commands := rest } ticket asked with
      ⟨-, error, -, hs⟩ | ⟨-, bytes, sink, he, hb, hs⟩ | ⟨-, fault, sink, left, -, hs⟩ <;>
      rw [hs] at hafter
    · exact absurd (by rw [hafter, List.append_nil]) (h.ne (.inl rfl))
    · refine absurd ?_ (h.ne (.inr he))
      rw [hafter]
      exact hb
    · exact .inl (.inl (by rw [hafter]; rfl))

/-- A look at the timers at the deadline or behind it writes nothing, and closes the session. -/
theorem isOver_of_isClosing {deadline now : Nat} (h : step.before.IsClosing deadline)
    (ha : step.action = .timers now) (hle : deadline ≤ now) :
    step.after.IsOver ∧ step.after.sink.accepted = step.before.sink.accepted := by
  rcases h with hover | hdeadline
  · exact ⟨isOver_step hover, accepted_of_isOver hover⟩
  have hphase : step.before.perform step.action = step.before.andThen (checkTimers now) := by
    rw [ha, perform]
  rcases phase_cases hphase with ⟨he, hafter⟩ | ⟨-, hafter⟩
  · rw [hafter]
    exact ⟨.inl he, rfl⟩
  · rw [checkTimers_of_deadline hdeadline, if_pos hle] at hafter
    rw [hafter]
    exact ⟨.inl rfl, rfl⟩

end Step

/-! ## All steps of a run -/

/-- A run from a session that is over puts nothing on the wire. -/
theorem accepted_run_of_isOver {session : Session} (h : session.IsOver) (actions : List Action) :
    (session.run actions).sink.accepted = session.sink.accepted :=
  (forall_steps
    (P := fun next => next.IsOver ∧ next.sink.accepted = session.sink.accepted)
    (fun _ hkept => ⟨Step.isOver_step hkept.1, (Step.accepted_of_isOver hkept.1).trans hkept.2⟩)
    ⟨h, rfl⟩ actions).2.2

/-- What a run puts on the wire opens with a bracket. -/
theorem exists_opens_run (session : Session) (actions : List Action) : ∃ put, Wire.Opens put ∧
    (session.run actions).sink.accepted = session.sink.accepted ++ put := by
  refine (forall_steps (P := fun next => ∃ put, Wire.Opens put ∧
    next.sink.accepted = session.sink.accepted ++ put) ?_ ?_ actions).2
  · rintro step ⟨put, hput, heq⟩
    obtain ⟨more, hmore, hstep⟩ := step.exists_opens
    exact ⟨put ++ more, hput.append hmore, by rw [hstep, heq, List.append_assoc]⟩
  · exact ⟨[], .inl rfl, (List.append_nil _).symm⟩

/-- A run keeps the limits. -/
theorem config_run (session : Session) (actions : List Action) :
    (session.run actions).config = session.config :=
  (forall_steps (P := fun next => next.config = session.config)
    (fun step heq => step.proceeds.config.trans heq) rfl actions).2

/-- In a run from a session whose wire is intact, the wire stays intact, or there is a first
request that is cut. -/
theorem intact_or_cuts {session : Session} (h : session.Intact) (actions : List Action) :
    (session.run actions).Intact ∨ ∃ front cut back, steps session actions = front ++ cut :: back ∧
      cut.before.Intact ∧ ∃ request part, cut.Cuts request part := by
  induction actions generalizing session with
  | nil => exact .inl h
  | cons action actions ih =>
    by_cases hcut : ∃ request part, (Step.mk session action).Cuts request part
    · exact .inr ⟨[], ⟨session, action⟩, _, rfl, h, hcut⟩
    have hnext : (Step.mk session action).after.Intact :=
      Step.intact_step h fun request part hc => hcut ⟨request, part, hc⟩
    rcases ih hnext with hintact | ⟨front, cut, back, heq, hbefore, hc⟩
    · exact .inl hintact
    · exact .inr ⟨⟨session, action⟩ :: front, cut, back, congrArg (List.cons _) heq, hbefore, hc⟩

/-- What is on the wire behind a step is there behind the run, with what comes behind it. -/
theorem exists_opens_behind {session : Session} {actions : List Action} {front back : List Step}
    {step : Step} (h : steps session actions = front ++ step :: back) : ∃ put, Wire.Opens put ∧
      (session.run actions).sink.accepted = step.after.sink.accepted ++ put := by
  obtain ⟨earlier, later, rfl, -, hbefore, -⟩ := steps_eq_append_cons h
  have hrun : session.run (earlier ++ step.action :: later) = step.after.run later := by
    rw [run_append, run_cons, ← hbefore]
    rfl
  rw [hrun]
  exact exists_opens_run step.after later

/-- Nothing comes behind a step that leaves a session over. -/
theorem accepted_of_isOver_behind {session : Session} {actions : List Action}
    {front back : List Step} {step : Step} (h : steps session actions = front ++ step :: back)
    (hover : step.after.IsOver) :
    (session.run actions).sink.accepted = step.after.sink.accepted := by
  obtain ⟨earlier, later, rfl, -, hbefore, -⟩ := steps_eq_append_cons h
  rw [run_append, run_cons, ← hbefore]
  exact accepted_run_of_isOver hover later

/-- Behind a step that cuts a request, what is on the wire is whole if the wire was intact in front
of the step. -/
theorem areWhole_of_cuts {step : Step} {request : Request} {part : Bytes}
    (h : step.before.Intact) (hc : step.Cuts request part) :
    Wire.AreWhole step.before.config.payloadLimit step.after.sink.accepted := by
  obtain ⟨rest, hrest, he⟩ := hc.exists_rest
  exact ⟨_, part, h.encoded, ⟨_, rest, hrest, he⟩, by rw [hc.tears.torn.accepted, h.accepted]⟩

/-- When the wire was intact in front of a step that cuts the request to end, nothing comes behind
the part if what is on the wire is whole. -/
theorem eq_nil_of_cuts {step : Step} {part put : Bytes} (h : step.before.Intact)
    (hc : step.Cuts .shutdown part) (hput : Wire.Opens put)
    (hw : Wire.AreWhole step.before.config.payloadLimit (step.after.sink.accepted ++ put)) :
    put = [] := by
  obtain ⟨rest, hrest, he⟩ := hc.exists_rest
  rw [hc.tears.torn.accepted, h.accepted, List.append_assoc] at hw
  exact Wire.eq_nil_of_areWhole hc.part_ne_nil hrest (Wire.eq_messageBytes_of_encode he) hput hw

/-- What a run leaves on the wire where requests are torn. -/
structure EndsTorn (session : Session) (actions : List Action) : Prop where
  /-- Nothing comes behind a request that could not be written, unless it is the one to end the
  debuggee. -/
  last : ∀ front step back request part, steps session actions = front ++ step :: back →
    step.Tears request part → request ≠ .shutdown →
      (session.run actions).sink.accepted = step.after.sink.accepted
  /-- What comes behind a part of the request to end comes before the next look at the timers. -/
  closes : ∀ front step middle look back part now later,
    steps session actions = front ++ step :: (middle ++ look :: back) →
      step.Cuts .shutdown part → step.action = .command now → look.action = .timers later →
        now ≤ later → (session.run actions).sink.accepted = look.before.sink.accepted
  /-- The wire holds whole messages, and behind them at most a part of one, if and only if nothing
  comes behind a part of the request to end. -/
  whole : Wire.AreWhole session.config.payloadLimit (session.run actions).sink.accepted ↔
    ∀ front step back part, steps session actions = front ++ step :: back →
      step.Cuts .shutdown part → (session.run actions).sink.accepted = step.after.sink.accepted

variable {session : Session} {actions : List Action}

/-- Where nothing comes behind a part of the request to end, the wire holds whole messages and at
most a part of one behind them. -/
theorem areWhole_run (h : session.Intact)
    (hlast : ∀ front step back part, steps session actions = front ++ step :: back →
      step.Cuts .shutdown part → (session.run actions).sink.accepted = step.after.sink.accepted) :
    Wire.AreWhole session.config.payloadLimit (session.run actions).sink.accepted := by
  rcases intact_or_cuts h actions with hintact | ⟨front, cut, back, heq, hbefore, request, part, hc⟩
  · rw [← config_run session actions]
    exact ⟨_, [], hintact.encoded, Wire.isPart_nil _, by rw [hintact.accepted, List.append_nil]⟩
  have hend : (session.run actions).sink.accepted = cut.after.sink.accepted := by
    by_cases hshutdown : request = .shutdown
    · exact hlast front cut back part heq (hshutdown ▸ hc)
    · exact accepted_of_isOver_behind heq (Step.isOver_of_tears hc.tears hshutdown)
  obtain ⟨earlier, later, -, -, hstart, -⟩ := steps_eq_append_cons heq
  have hwhole := areWhole_of_cuts hbefore hc
  rw [hend]
  rwa [hstart, config_run] at hwhole

/-- Where the wire holds whole messages, nothing comes behind the first request that is cut. -/
theorem accepted_of_areWhole
    (hw : Wire.AreWhole session.config.payloadLimit (session.run actions).sink.accepted)
    {front back : List Step} {cut : Step} (heq : steps session actions = front ++ cut :: back)
    (hbefore : cut.before.Intact) {request : Request} {part : Bytes}
    (hc : cut.Cuts request part) :
    (session.run actions).sink.accepted = cut.after.sink.accepted := by
  by_cases hshutdown : request = .shutdown
  · subst hshutdown
    obtain ⟨put, hput, hrun⟩ := exists_opens_behind heq
    obtain ⟨earlier, later, -, -, hstart, -⟩ := steps_eq_append_cons heq
    rw [hrun, ← config_run session earlier, ← hstart] at hw
    rw [hrun, eq_nil_of_cuts hbefore hc hput hw, List.append_nil]
  · exact accepted_of_isOver_behind heq (Step.isOver_of_tears hc.tears hshutdown)

/-- Where the wire holds whole messages, nothing comes behind any request that is cut. -/
theorem last_of_areWhole (h : session.Intact)
    (hw : Wire.AreWhole session.config.payloadLimit (session.run actions).sink.accepted)
    {front back : List Step} {step : Step} (heq : steps session actions = front ++ step :: back)
    {request : Request} {part : Bytes} (hc : step.Cuts request part) :
    (session.run actions).sink.accepted = step.after.sink.accepted := by
  obtain ⟨earlier, later, -, hfront, hstart, -⟩ := steps_eq_append_cons heq
  rcases intact_or_cuts h earlier with
    hintact | ⟨first, cut, others, hcut, hbefore, other, left, hfirst⟩
  · exact accepted_of_areWhole hw heq (hstart ▸ hintact) hc
  -- Nothing comes behind an earlier cut, so the later one cannot put its part on the wire.
  have hearlier : steps session actions = first ++ cut :: (others ++ step :: back) := by
    rw [heq, hfront, hcut, List.append_assoc, List.cons_append]
  have hend := accepted_of_areWhole hw hearlier hbefore hfirst
  obtain ⟨between, -, hbetween⟩ := exists_opens_behind hcut
  obtain ⟨behind, -, hbehind⟩ := exists_opens_behind heq
  rw [hbehind, hc.tears.torn.accepted, hstart, hbetween, List.append_assoc,
    List.append_assoc] at hend
  have hnil := List.append_cancel_left (hend.trans (List.append_nil _).symm)
  rw [List.append_eq_nil_iff, List.append_eq_nil_iff] at hnil
  exact absurd hnil.2.1 hc.part_ne_nil

/-- Behind a command that cuts a request, a look at the timers closes the session. -/
theorem accepted_of_timers {front middle back : List Step} {step look : Step}
    (heq : steps session actions = front ++ step :: (middle ++ look :: back)) {request : Request}
    {part : Bytes} (hc : step.Cuts request part) {now later : Nat}
    (ha : step.action = .command now) (hl : look.action = .timers later) (hle : now ≤ later) :
    (session.run actions).sink.accepted = look.before.sink.accepted := by
  obtain ⟨-, behind, -, -, -, hback⟩ := steps_eq_append_cons heq
  obtain ⟨between, -, -, -, hlook, -⟩ := steps_eq_append_cons hback.symm
  have hclosing := (forall_steps (P := fun next => next.IsClosing now)
    (fun _ => Step.isClosing_step) (hc.isClosing ha) between).2
  rw [← hlook] at hclosing
  obtain ⟨hover, hsame⟩ := Step.isOver_of_isClosing hclosing hl hle
  have hclosed : steps session actions = (front ++ step :: middle) ++ look :: back := by
    rw [heq, List.append_assoc, List.cons_append]
  exact (accepted_of_isOver_behind hclosed hover).trans hsame

/-- A new session has nothing on the wire. -/
theorem intact_start (config : SessionConfig) (script : List Wire.WriteOutcome)
    (broken : Option Wire.IoFault) : (start config script broken).Intact :=
  ⟨rfl, fun _ hm => absurd hm List.not_mem_nil⟩

/-- In every run no bytes come behind a torn message, other than behind the request to end. -/
theorem endsTorn_start (config : SessionConfig) (script : List Wire.WriteOutcome)
    (broken : Option Wire.IoFault) (actions : List Action) :
    EndsTorn (start config script broken) actions where
  last _ _ _ _ _ heq ht hne := accepted_of_isOver_behind heq (Step.isOver_of_tears ht hne)
  closes _ _ _ _ _ _ _ _ heq hc ha hl hle := accepted_of_timers heq hc ha hl hle
  whole :=
    ⟨fun hw _ _ _ _ heq hc => last_of_areWhole (intact_start config script broken) hw heq hc,
      fun hlast => areWhole_run (intact_start config script broken) hlast⟩

end Session

namespace Worker

/-- A debuggee that comes with a program and is asked to end in the round in which it comes, while
there is a breakpoint. -/
def askedAtOnce : List Turn :=
  [.outside (.setRegistry { breakpoints := [{ file := "a.py", line := 7 }] }) rfl,
    .outside (.arrive [.data (Text.Utf8.encode ">PassiveStartup<a.py|1\n")]) rfl,
    .outside .askShutdown rfl, .work 0, .work 0, .work 0, .work 0, .work 0]

/-- A sink that takes three bytes, then fails once, and then takes everything. -/
def failsOnce : List Wire.WriteOutcome := [.atMost 3, .fail ⟨.timedOut, "scripted"⟩]

/-- The breakpoint is told behind a part of the request to end, and so what is on the wire is not
whole. -/
theorem not_areWhole_askedAtOnce :
    ((start {} failsOnce none).run askedAtOnce).session.sink.accepted =
        Text.Utf8.encode ">Sh>Break<19\x00a.py@@7@@0@@1@@None\n" ∧
      ¬ Wire.AreWhole ({} : SessionConfig).payloadLimit
        ((start {} failsOnce none).run askedAtOnce).session.sink.accepted := by
  have haccepted : ((start {} failsOnce none).run askedAtOnce).session.sink.accepted =
      Text.Utf8.encode ">Sh>Break<19\x00a.py@@7@@0@@1@@None\n" := by decide +kernel
  have hsplit : Text.Utf8.encode ">Sh>Break<19\x00a.py@@7@@0@@1@@None\n" =
      ([] : List Message).flatMap Wire.messageBytes ++
        (Text.Utf8.encode ">Sh" ++ Wire.messageBytes ⟨.setBreak, "a.py@@7@@0@@1@@None"⟩) := by
    decide +kernel
  have hbare : Text.Utf8.encode ">Sh" ++ Text.Utf8.encode "utdown<\n" =
      Wire.messageBytes (.bare .shutdown) := by decide +kernel
  refine ⟨haccepted, fun hw => ?_⟩
  rw [haccepted, hsplit] at hw
  have hnil := Wire.eq_nil_of_areWhole (by decide) (by decide) hbare
    (Wire.opens_messageBytes _) hw
  rw [Wire.messageBytes_eq] at hnil
  cases hnil

end Worker

end DebugLink
