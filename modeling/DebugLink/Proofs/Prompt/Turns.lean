import DebugLink.Prompt.Turn
import DebugLink.Proofs.Session.Request

/-!
# The prompt and the end of the session

A line of the user never makes the prompt give up: what is no command is told, and so is a request
that is refused or cannot be written. Of the events only a fork is answered, and its answer is the
one request whose failure the prompt does not survive. The event is handled after the fact: the
session that the answer meets may be over, or the answer may not be written. In every other turn
the prompt goes on, or is left.
-/

namespace DebugLink.Prompt

open Session

/-! ## Answers to a fork -/

/-- The answer that the prompt gives to a fork. -/
def forkAnswer : Request := .forkTo .parent

/-- The session writes the answer to a fork. -/
structure AnswersFork (now : Nat) (session : Session) : Prop where
  /-- The session that the answer meets works. -/
  works : (session.met now).ended = false
  /-- It is not over. -/
  notTerminal : (session.met now).state.isTerminal = false
  /-- The sink takes the answer whole. -/
  written : ((session.met now).sink.send (session.met now).config.payloadLimit
    forkAnswer.toMessage).1 = .ok ()

/-- The answer to a fork is given in every state of a session that is not over. -/
theorem send_forkAnswer_iff (now : Nat) (session : Session) :
    (session.send now forkAnswer).1 = .ok () ↔
      session.state.isTerminal = false ∧
        (session.sink.send session.config.payloadLimit forkAnswer.toMessage).1 = .ok () := by
  have hallows : session.state.allows forkAnswer.word = true := rfl
  rw [send, hallows]
  cases session.state.isTerminal with
  | true => simp
  | false =>
    rcases session.sink.send session.config.payloadLimit forkAnswer.toMessage with
      ⟨_ | _, sink⟩ <;> simp

/-- A fork is answered well if and only if the session that the answer meets writes it. -/
theorem request_forkAnswer_iff {session : Session} (h : session.IsNumbered) (now : Nat) :
    (session.request now forkAnswer).1 = .ok () ↔ AnswersFork now session := by
  rw [request_fst h]
  cases he : (session.met now).ended with
  | true =>
    refine iff_of_false nofun fun ha => ?_
    rw [ha.works] at he
    cases he
  | false =>
    rw [if_neg Bool.false_ne_true, send_forkAnswer_iff]
    exact ⟨fun ⟨ht, hw⟩ => ⟨he, ht, hw⟩, fun ha => ⟨ha.notTerminal, ha.written⟩⟩

/-! ## One turn -/

/-- Whether an occasion is a reason to leave the prompt. -/
def Occasion.quits : Occasion → Bool
  | .line text => (Command.ofLine text matches .ok .quit)
  | .inputClosed | .eventsClosed => true
  | .event (.exited _) | .event (.disconnected _) => true
  | .event _ => false

/-- The request that a command asks for. -/
def Command.request? : Command → Option Request
  | .resume => some (.resume false)
  | .step => some .step
  | .stepOver => some .stepOver
  | .stepOut => some .stepOut
  | .stack => some .currentStack
  | .threads => some .threadList
  | .variableList scope => some (.variableList 0 scope)
  | .eval expression => some (.eval 0 expression)
  | .exec statement => some (.exec 0 statement)
  | .exit => some .shutdown
  | .quit | .setBreak _ | .clear .. | .ignore _ | .empty => none

/-- Why a command is not carried out. -/
inductive Fails (now : Nat) (session : Session) : Command → SessionError → Prop where
  /-- Its request is refused or cannot be written. -/
  | request {command : Command} {request : Request} {error : SessionError} :
      command.request? = some request → (session.request now request).1 = .error error →
        Fails now session command error
  /-- A breakpoint is refused, or the debuggee cannot be told about it. -/
  | setBreak {spec : BreakpointSpec} {error : SessionError} :
      (session.addBreakpoint now spec.toBreakpoint).1 = .error error →
        Fails now session (.setBreak spec) error
  /-- The debuggee cannot be told that a breakpoint is removed. -/
  | clear {file : String} {line : UInt32} {error : SessionError} :
      (session.removeBreakpoint now file line).1 = .error error →
        Fails now session (.clear file line) error

/-- A command with a request asks for it and prints what it comes to. -/
theorem runCommand_of_request? {command : Command} {request : Request}
    (h : command.request? = some request) (now : Nat) (session : Session) :
    runCommand now session command = ofOutcome (fun _ => []) (session.request now request) := by
  cases command <;> cases h <;> rfl

/-- A command that fails prints one line, and the prompt goes on. -/
theorem runCommand_of_fails {now : Nat} {session : Session} {command : Command}
    {error : SessionError} (h : Fails now session command error) :
    (runCommand now session command).printed = printLines [error.message] ∧
      (runCommand now session command).ending = none := by
  have houtcome : ∀ {α : Type} (lines : α → List String) (outcome : Outcome α),
      outcome.1 = .error error → (ofOutcome lines outcome).printed = printLines [error.message] := by
    intro α lines outcome he
    rw [ofOutcome, he]
    rfl
  cases h with
  | request hr he =>
    rw [runCommand_of_request? hr]
    exact ⟨houtcome _ _ he, rfl⟩
  | setBreak he => exact ⟨houtcome _ _ he, rfl⟩
  | clear he => exact ⟨houtcome _ _ he, rfl⟩

/-- What a turn does, whatever its occasion is. -/
structure Survives (now : Nat) (session : Session) (occasion : Occasion) : Prop where
  /-- The prompt gives up at a fork that is not answered, and only there. -/
  fails_iff : (∃ error, (turn now session occasion).ending = some (.failed error)) ↔
    occasion = .event .forkRequested ∧ ¬ AnswersFork now session
  /-- The prompt is left where the user leaves it, where nothing more can come, and where the program
  has ended or the connection is lost. -/
  quits_iff : (turn now session occasion).ending = some .quit ↔ occasion.quits = true
  /-- An event is told, also one that the prompt does not survive. -/
  told : ∀ event, occasion = .event event →
    (turn now session occasion).printed = prompt session ++ printLines (eventLines event)
  /-- A line that is no command is told and changes nothing. -/
  refused : ∀ text error, occasion = .line text → Command.ofLine text = .error error →
    turn now session occasion =
      { printed := prompt session ++ printLines [error.message], session }
  /-- A command that fails is told, and the prompt goes on. -/
  failing : ∀ text command error, occasion = .line text → Command.ofLine text = .ok command →
    Fails now session command error →
      (turn now session occasion).printed = prompt session ++ printLines [error.message] ∧
        (turn now session occasion).ending = none

/-- A command ends the prompt only if it leaves it. -/
theorem ending_runCommand (now : Nat) (session : Session) (command : Command) :
    (runCommand now session command).ending =
      if command = .quit then some .quit else none := by
  cases command <;> rfl

/-- How the prompt ends behind a turn, if it does. -/
theorem ending_turn (now : Nat) (session : Session) (occasion : Occasion) :
    (turn now session occasion).ending =
      if occasion = .event .forkRequested then
        match (session.request now forkAnswer).1 with
        | .ok () => none
        | .error error => some (.failed (.event error))
      else if occasion.quits then some .quit else none := by
  cases occasion with
  | line text =>
    rw [turn, handle, if_neg nofun, handleLine, Occasion.quits]
    cases Command.ofLine text with
    | error error => rfl
    | ok command =>
      refine (ending_runCommand now session command).trans ?_
      cases command <;> rfl
  | inputClosed | eventsClosed => rfl
  | event event =>
    rw [turn, handle]
    cases event with
    | forkRequested =>
      rw [handleEvent, forkAnswer, if_pos rfl]
      generalize session.request now (.forkTo .parent) = outcome
      rcases outcome with ⟨_ | _, next⟩ <;> rfl
    | _ => rfl

/-- Handling an event prints the lines about it. -/
theorem printed_handleEvent (now : Nat) (session : Session) (event : Event) :
    (handleEvent now session event).printed = printLines (eventLines event) := by
  cases event with
  | forkRequested =>
    rw [handleEvent]
    generalize session.request now (.forkTo .parent) = outcome
    rcases outcome with ⟨_ | _, next⟩ <;> rfl
  | _ => rfl

/-- In a session whose tickets are in order the prompt gives up only at a fork that is not
answered. -/
theorem survives {session : Session} (h : session.IsNumbered) (now : Nat) (occasion : Occasion) :
    Survives now session occasion := by
  have hending := ending_turn now session occasion
  have hfork := request_forkAnswer_iff h now
  refine ⟨?_, ?_, ?_, ?_, ?_⟩
  · by_cases ho : occasion = .event .forkRequested
    · rw [hending, if_pos ho, ← hfork]
      rcases (session.request now forkAnswer).1 with error | _ <;> simp [ho]
    · rw [hending, if_neg ho]
      exact iff_of_false (by split <;> simp) fun hf => ho hf.1
  · by_cases ho : occasion = .event .forkRequested
    · rw [hending, if_pos ho, ho]
      rcases (session.request now forkAnswer).1 with error | _ <;> simp [Occasion.quits]
    · rw [hending, if_neg ho]
      split <;> simp [*]
  · rintro event rfl
    rw [turn, handle]
    exact congrArg (prompt session ++ ·) (printed_handleEvent now session event)
  · rintro text error rfl he
    rw [turn, handle, handleLine, he]
  · rintro text command error rfl hc hf
    obtain ⟨hprinted, hgoes⟩ := runCommand_of_fails hf
    have hhandle : handle now session (.line text) = runCommand now session command := by
      rw [handle, handleLine, hc]
    rw [turn, hhandle]
    exact ⟨congrArg (prompt session ++ ·) hprinted, hgoes⟩

/-! ## The prompt -/

/-- A command is a run of the session. -/
theorem leadsTo_runCommand (now : Nat) (session : Session) (command : Command) :
    session.LeadsTo (runCommand now session command).session := by
  cases hr : command.request? with
  | some request =>
    rw [runCommand_of_request? hr, ofOutcome]
    exact leadsTo_request now session request
  | none =>
    cases command with
    | empty | quit => exact .refl session
    | setBreak spec =>
      rw [runCommand, ofOutcome]
      exact leadsTo_change now session _ _
    | clear file line =>
      rw [runCommand, ofOutcome]
      exact leadsTo_remove now session _ _
    | ignore type => exact .step session (.setIgnored type)
    | _ => cases hr

/-- A turn is a run of the session. -/
theorem leadsTo_turn (now : Nat) (session : Session) (occasion : Occasion) :
    session.LeadsTo (turn now session occasion).session := by
  cases occasion with
  | inputClosed | eventsClosed => exact .refl session
  | event event =>
    rw [turn, handle]
    cases event with
    | forkRequested =>
      have hrun := leadsTo_request now session (.forkTo .parent)
      rw [handleEvent]
      generalize session.request now (.forkTo .parent) = outcome at hrun
      rcases outcome with ⟨_ | _, next⟩ <;> exact hrun
    | _ => exact .refl session
  | line text =>
    rw [turn, handle, handleLine]
    cases Command.ofLine text with
    | error error => exact .refl session
    | ok command => exact leadsTo_runCommand now session command

/-- Something that happens while the prompt is shown: a step of the session, or a turn. -/
inductive Moment where
  /-- The session performs a step, or something arrives. -/
  | work (action : Action)
  /-- The prompt takes a turn. -/
  | turn (now : Nat) (occasion : Occasion)

/-- A turn with the session that it finds. -/
structure Visit where
  /-- The session in front of the turn. -/
  session : Session
  /-- The present time. -/
  now : Nat
  /-- What the turn is about. -/
  occasion : Occasion

/-- Show the prompt until it ends; the result holds the turns that were taken and how it has
ended. -/
def serve (session : Session) : List Moment → List Visit × Option Ending
  | [] => ([], none)
  | .work action :: rest => serve (session.perform action) rest
  | .turn now occasion :: rest =>
    match (turn now session occasion).ending with
    | some ending => ([⟨session, now, occasion⟩], some ending)
    | none =>
      let (visits, ending) := serve (turn now session occasion).session rest
      (⟨session, now, occasion⟩ :: visits, ending)

/-- What a prompt does, whatever happens while it is shown. -/
structure Outlives (session : Session) (moments : List Moment) : Prop where
  /-- Each turn goes on, is the last one, or is a fork that is not answered. -/
  turns : ∀ visit ∈ (serve session moments).1, Survives visit.now visit.session visit.occasion
  /-- The prompt gives up if and only if there was a fork that was not answered. -/
  gives_up_iff : (∃ error, (serve session moments).2 = some (.failed error)) ↔
    ∃ visit ∈ (serve session moments).1, visit.occasion = .event .forkRequested ∧
      ¬ AnswersFork visit.now visit.session

/-- A turn is the last one if the prompt ends with it, and else the others follow. -/
theorem serve_turn (now : Nat) (session : Session) (occasion : Occasion) (rest : List Moment) :
    serve session (.turn now occasion :: rest) =
      match (turn now session occasion).ending with
      | some ending => ([⟨session, now, occasion⟩], some ending)
      | none =>
        (⟨session, now, occasion⟩ :: (serve (turn now session occasion).session rest).1,
          (serve (turn now session occasion).session rest).2) := rfl

/-- Whatever happens while the prompt is shown, it gives up only at a fork that is not answered. -/
theorem outlives {session : Session} (h : session.IsNumbered) (moments : List Moment) :
    Outlives session moments := by
  induction moments generalizing session with
  | nil => exact ⟨fun visit hv => absurd hv List.not_mem_nil, by simp [serve]⟩
  | cons moment rest ih =>
    cases moment with
    | work action =>
      obtain ⟨hturns, hgives⟩ := ih (isNumbered_step ⟨session, action⟩ h)
      exact ⟨hturns, hgives⟩
    | turn now occasion =>
      have hone := survives h now occasion
      obtain ⟨actions, hrun⟩ := leadsTo_turn now session occasion
      obtain ⟨hturns, hgives⟩ := ih (hrun ▸ (isNumbered_run h actions).2)
      have hserve := serve_turn now session occasion rest
      have hfails := hone.fails_iff
      cases he : (turn now session occasion).ending with
      | some ending =>
        rw [he] at hserve hfails
        constructor
        · rw [hserve]
          exact List.forall_mem_singleton.mpr hone
        · rw [hserve]
          exact hfails.trans (by simp)
      | none =>
        rw [he] at hserve hfails
        constructor
        · rw [hserve]
          exact List.forall_mem_cons.mpr ⟨hone, hturns⟩
        · rw [hserve, List.exists_mem_cons_iff, or_iff_right]
          · exact hgives
          · intro hf
            obtain ⟨error, herror⟩ := hfails.mpr hf
            cases herror

/-- In every run of a new session, whatever the user types, whatever comes from the debuggee and
however writes go, the prompt gives up only at a fork that is not answered. -/
theorem outlives_start (config : SessionConfig) (script : List Wire.WriteOutcome)
    (broken : Option Wire.IoFault) (moments : List Moment) :
    Outlives (start config script broken) moments :=
  outlives (isNumbered_start config script broken) moments

/-- The steps of a session whose program asks for a fork and ends before the prompt has told
anything. -/
def forkedThenExited : List Action :=
  [.arrive [.data (Text.Utf8.encode ">PassiveStartup</m.py\n>ForkTo<\n>Exit<1\n")],
    .receive 0, .receive 0, .receive 0]

/-- The events that such a session has published. -/
def forkAndExit : List Event :=
  [.stateChanged .idle .running, .started "/m.py" none, .forkRequested,
    .stateChanged .running .exited, .exited 1]

/-- The prompt gives up at the fork, and the end of the program is not told. -/
theorem gives_up_forkedThenExited :
    ((start {} [] none).run forkedThenExited).core.events.toList = forkAndExit ∧
      (serve (start {} [] none) (forkedThenExited.map .work ++
        forkAndExit.map fun event => .turn 0 (.event event))).2 =
          some (.failed (.event (.terminated .exited))) := by
  constructor <;> decide +kernel

end DebugLink.Prompt
