import DebugLink.Prompt.Command
import DebugLink.Session.Handle

/-!
# Turns of the prompt

The prompt shows the state of a session, waits for a line or for an event, handles it,
and prints what it comes to. What the user gets wrong is printed and does not end the
prompt.
-/

namespace DebugLink.Prompt

open DebugLink.Text

/-- Why the prompt gives up. -/
inductive TurnError where
  /-- An event cannot be answered. -/
  | event (error : SessionError)
  deriving DecidableEq

/-- The wording of such an error. -/
def TurnError.message : TurnError → String
  | event _ => "handling session event"

/-- How the prompt ends. -/
inductive Ending where
  /-- It is left. -/
  | quit
  /-- It gives up. -/
  | failed (error : TurnError)
  deriving DecidableEq

/-- What a turn comes to. -/
structure Turn where
  /-- The text that is printed. -/
  printed : String := ""
  /-- The session behind the turn. -/
  session : Session
  /-- How the prompt ends, if it does. -/
  ending : Option Ending := none

/-- What the prompt waits for. -/
inductive Occasion where
  /-- A line of the user. -/
  | line (text : String)
  /-- The end of what the user types. -/
  | inputClosed
  /-- An event of the session. -/
  | event (event : Event)
  /-- The end of the events. -/
  | eventsClosed
  deriving DecidableEq

/-- The numeral of a number. -/
def numeral (n : Int) : String := Numeral.ofInt n

/-- A line of a file. -/
def place (file : String) (line : UInt32) : String := file ++ ":" ++ Numeral.ofUInt32 line

/-- One line for each frame of a stack, counted from zero. -/
def frameLines (stack : Stack) : List String :=
  stack.zipIdx.map fun (frame, i) =>
    "#" ++ numeral i ++ " " ++ frame.function ++ "(" ++ frame.arguments ++ ") at " ++
      place frame.file frame.line

/-- The name of the state of a thread. -/
def threadStateName : ThreadState → String
  | .running => "Running"
  | .waiting => "Waiting"

/-- One line for each thread; a star marks the present one. -/
def threadLines (list : ThreadList) : List String :=
  list.threads.map fun thread =>
    (if thread.id = list.current then "*" else " ") ++ " " ++ numeral thread.id.toInt ++ " " ++
      thread.name ++ " (" ++ threadStateName thread.state ++ ")"

/-- The lines that an event prints. -/
def eventLines : Event → List String
  | .stateChanged .. => []
  | .started file (some pid) =>
    ["debuggee " ++ file ++ " started (pid " ++ Numeral.ofUInt32 pid ++ ")"]
  | .started file none => ["debuggee " ++ file ++ " started"]
  | .stopped (frame :: _) => ["program paused at " ++ place frame.file frame.line]
  | .stopped [] => ["program paused"]
  | .stack stack => frameLines stack
  | .output text => [text]
  | .exception report =>
    ("exception " ++ report.type ++ ": " ++ report.message) ::
      (report.stack.take 1).map fun frame => "  raised at " ++ place frame.file frame.line
  | .exceptionIgnored .. => []
  | .syntaxError info =>
    ["syntax error in " ++ place info.file info.line ++ ":" ++ Numeral.ofUInt32 info.column ++
      ": " ++ info.message]
  | .evalResult _ result isError => [if isError then "error: " ++ result else result]
  | .execResult _ error => error.toList.map ("error: " ++ ·)
  | .threadList list => threadLines list
  | .threadSet thread => thread.toList.map fun id => "switched to thread " ++ numeral id.toInt
  | .variableList list =>
    list.items.map fun v => v.name ++ ": " ++ v.type ++ " = " ++ v.value
  | .breakpointCleared file line => ["breakpoint " ++ place file line ++ " removed"]
  | .breakpointConditionError file line =>
    ["condition of breakpoint " ++ place file line ++ " could not be evaluated"]
  | .watchpointCleared condition => ["watchpoint " ++ condition ++ " removed"]
  | .watchpointConditionError condition =>
    ["watch expression " ++ condition ++ " could not be evaluated"]
  | .forkRequested => ["debuggee is forking, following the parent"]
  | .rawInput input => ["debuggee is waiting for input: " ++ input.prompt]
  | .exited code => ["program completed with exit code " ++ numeral code.toInt]
  | .disconnected loss => ["connection lost: " ++ loss.message]

/-- The text of lines. -/
def printLines (lines : List String) : String := String.join (lines.map (· ++ "\n"))

/-- Handle an event. Only a fork is answered; the end of the program and the loss of the
connection end the prompt. -/
def handleEvent (now : Nat) (session : Session) (event : Event) : Turn :=
  let printed := printLines (eventLines event)
  match event with
  | .forkRequested =>
    match session.request now (.forkTo .parent) with
    | (.ok (), session) => { printed, session }
    | (.error error, session) => { printed, session, ending := some (.failed (.event error)) }
  | .exited _ | .disconnected _ => { printed, session, ending := some .quit }
  | _ => { printed, session }

/-- The lines that the outcome of a command prints. -/
def outcomeLines {α : Type} (lines : α → List String) : Except SessionError α → List String
  | .ok a => lines a
  | .error error => [error.message]

/-- A turn that prints the outcome of a request. -/
def ofOutcome {α : Type} (lines : α → List String) (outcome : Session.Outcome α) : Turn where
  printed := printLines (outcomeLines lines outcome.1)
  session := outcome.2

/-- Carry out a command. -/
def runCommand (now : Nat) (session : Session) (command : Command) : Turn :=
  let ask (request : Request) : Turn := ofOutcome (fun _ => []) (session.request now request)
  match command with
  | .empty => { session }
  | .quit => { session, ending := some .quit }
  | .resume => ofOutcome (fun _ => []) (session.resume now)
  | .step => ask .step
  | .stepOver => ask .stepOver
  | .stepOut => ask .stepOut
  | .stack => ask .currentStack
  | .threads => ask .threadList
  | .variableList scope => ask (.variableList 0 scope)
  | .eval expression => ask (.eval 0 expression)
  | .exec statement => ask (.exec 0 statement)
  | .setBreak spec => ofOutcome (fun _ => []) (session.addBreakpoint now spec.toBreakpoint)
  | .clear file line =>
    ofOutcome
      (fun removed => if removed.isSome then [] else ["no breakpoint at " ++ place file.display line])
      (session.removeBreakpoint now file line)
  | .ignore type => { session := (session.setIgnored type).2 }
  | .exit => ask .shutdown

/-- Handle a line of the user. -/
def handleLine (now : Nat) (session : Session) (line : String) : Turn :=
  match Command.ofLine line with
  | .ok command => runCommand now session command
  | .error error => { printed := printLines [error.message], session }

/-- The text that the user is prompted with. -/
def prompt (session : Session) : String := "(" ++ session.state.name ++ ") > "

/-- Handle an occasion. -/
def handle (now : Nat) (session : Session) : Occasion → Turn
  | .line text => handleLine now session text
  | .event event => handleEvent now session event
  | .inputClosed | .eventsClosed => { session, ending := some .quit }

/-- One turn: show the prompt, and handle an occasion. -/
def turn (now : Nat) (session : Session) (occasion : Occasion) : Turn :=
  let turn := handle now session occasion
  { turn with printed := prompt session ++ turn.printed }

end DebugLink.Prompt
