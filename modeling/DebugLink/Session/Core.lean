import DebugLink.ExceptionFilter
import DebugLink.History
import DebugLink.Registry
import DebugLink.Response
import DebugLink.Session.Event
import DebugLink.Session.Pending

/-!
# The knowledge of a session

What a session knows about its debuggee, and how each message that is written or received
changes it. A received frame may ask for further requests: an ignored exception resumes
the program, and a program that has just started is told all points.
-/

namespace DebugLink

open Wire (Fault)

/-- The knowledge of a session. -/
structure Core where
  /-- Where the session stands. -/
  state : SessionState := .idle
  /-- The points. -/
  registry : Registry := {}
  /-- The ignore list. -/
  exceptions : ExceptionFilter := {}
  /-- The requests that wait for a reply. -/
  pending : Pending := []
  /-- The thread that the debugger looks at. -/
  currentThread : Option Int64 := none
  /-- The stack of the last stop. -/
  lastStack : Option Stack := none
  /-- The code that the program ended with. -/
  exitCode : Option Int32 := none
  /-- The events published so far. -/
  events : History Event := {}

namespace Core

/-- Publish an event. -/
def emit (core : Core) (event : Event) : Core := { core with events := core.events.add event }

/-- Move to another state, if there is one to move to, and publish the change. -/
def moveTo (core : Core) : Option SessionState → Core
  | none => core
  | some next => { core with state := next }.emit (.stateChanged core.state next)

/-- What follows when a request was written. Once the program runs again, what was known about
its stop is out of date. -/
def afterSent (core : Core) (request : Request) : Core :=
  let next := core.state.afterSent request.word
  let core :=
    if next = some .running then
      { core with lastStack := none, exceptions := core.exceptions.clearLast }
    else core
  let core := core.moveTo next
  { core with pending := core.pending.push request }

/-- The request that a reply answers, which no longer waits. -/
def answered (core : Core) (word : Word) : Option Request × Core :=
  let (request, pending) := core.pending.take word
  (request, { core with pending })

/-- The expression of a request. -/
def expression? : Option Request → Option String
  | some (.eval _ expression) => some expression
  | _ => none

/-- The statement of a request. -/
def statement? : Option Request → Option String
  | some (.exec _ statement) => some statement
  | _ => none

/-- The thread of a request. -/
def thread? : Option Request → Option Int64
  | some (.threadSet thread) => some thread
  | _ => none

/-- Take in an exception. One on the ignore list resumes the program. -/
def receiveException (core : Core) (report : ExceptionReport) : List Request × Core :=
  let (delivery, exceptions) := core.exceptions.receive report
  let core := { core with exceptions }
  match delivery with
  | .report report => ([], core.emit (.exception report))
  | .ignored type count =>
    (if core.state = .stopped then [.resume false] else [],
      core.emit (.exceptionIgnored type count))

/-- Note a condition error of a point, and publish it if it is news. -/
def receiveConditionError (core : Core) (key : PointKey) (event : Event) : Core :=
  let (isNews, registry) := core.registry.noteError key
  let core := { core with registry }
  if isNews then core.emit event else core

/-- Take in the result of an expression. -/
def receiveResult (core : Core) (word : Word) (result : String) : Core :=
  let (request, core) := core.answered word
  core.emit (.evalResult (expression? request) result (word == .evalError))

/-- Take in the result of a statement. -/
def receiveExec (core : Core) (word : Word) (error : Option String) : Core :=
  let (request, core) := core.answered word
  core.emit (.execResult (statement? request) error)

/-- Take in a response, once the state has moved; the result holds requests to send. -/
def receiveResponse (core : Core) : Response → List Request × Core
  | .ok | .eval | .endOfTransmission => ([], core)
  | .stopped stack => ([], { core with lastStack := some stack }.emit (.stopped stack))
  | .currentStack stack =>
    let (_, core) := core.answered .currentStack
    ([], { core with lastStack := some stack }.emit (.stack stack))
  | .exception report => core.receiveException report
  | .syntaxError info => ([], core.emit (.syntaxError info))
  | .exit code => ([], { core with exitCode := some code, pending := [] }.emit (.exited code))
  | .raw input => ([], core.emit (.rawInput input))
  | .clearBreak file line =>
    let (_, registry) := core.registry.removeBreakpoint file line
    ([], { core with registry }.emit (.breakpointCleared file line))
  | .breakConditionError file line =>
    ([], core.receiveConditionError (.breakpoint (.ofLine file line))
      (.breakpointConditionError file line))
  | .clearWatch condition =>
    let (_, registry) := core.registry.removeWatchpoint condition
    ([], { core with registry }.emit (.watchpointCleared condition))
  | .watchConditionError condition =>
    ([], core.receiveConditionError (.watchpoint (Watchpoint.conditionOfWire condition))
      (.watchpointConditionError condition))
  | .evalOk result => ([], core.receiveResult .evalOk result)
  | .evalError result => ([], core.receiveResult .evalError result)
  | .exec => ([], core.receiveExec .exec none)
  | .execError error => ([], core.receiveExec .execError (some error))
  | .threadList list =>
    let (_, core) := core.answered .threadList
    ([], { core with currentThread := some list.current }.emit (.threadList list))
  | .threadSet =>
    let (request, core) := core.answered .threadSet
    let thread := thread? request
    ([], { core with currentThread := thread.orElse fun _ => core.currentThread }.emit
      (.threadSet thread))
  | .variableList list =>
    let (_, core) := core.answered .variableList
    ([], core.emit (.variableList list))
  | .expand list =>
    let (_, core) := core.answered .expand
    ([], core.emit (.variableList list))
  | .passiveStartup file pid => ([], core.emit (.started file pid))
  | .forkTo => ([], core.emit .forkRequested)

/-- Take in a response: the state moves first. A program that has just started is told all
points, behind the other requests. -/
def respond (core : Core) (response : Response) : List Request × Core :=
  let next := core.state.afterReceived response.word
  let isStart := core.state.isStart next
  let (requests, core) := (core.moveTo next).receiveResponse response
  (if isStart then requests ++ core.registry.syncRequests else requests, core)

/-- Take in a frame; the result holds requests to send. -/
def receive (core : Core) : Frame → Except Fault (List Request) × Core
  | .output text => (.ok [], core.emit (.output text))
  | .message message =>
    match Response.ofMessage message with
    | .error fault => (.error fault, core)
    | .ok response =>
      let (requests, core) := core.respond response
      (.ok requests, core)

/-- Take in the loss of the connection: nothing that waits will be answered. -/
def disconnect (core : Core) (loss : Loss) : Core :=
  let core := { core with pending := [] }
  match core.state.afterLoss with
  | none => core
  | some next => (core.moveTo (some next)).emit (.disconnected loss)

end Core

end DebugLink
