import DebugLink.Word

/-!
# The life of a session

A session is idle, loads a program, runs and stops, and ends by the exit of the program
or by the loss of the connection. The words that are written and received move it, and
each state allows some words only.
-/

namespace DebugLink

/-- Where a session stands in its life. -/
inductive SessionState where
  /-- Connected, and no program is loaded. -/
  | idle
  /-- A program was asked for and has not reported. -/
  | connecting
  /-- The program runs. -/
  | running
  /-- The program is paused. -/
  | stopped
  /-- The program has ended. -/
  | exited
  /-- The connection is gone. -/
  | disconnected
  deriving DecidableEq, Repr

namespace SessionState

/-- The name of a state. -/
def name : SessionState → String
  | idle => "idle"
  | connecting => "connecting"
  | running => "running"
  | stopped => "stopped"
  | exited => "exited"
  | disconnected => "disconnected"

/-- Whether the session is over. -/
def isTerminal : SessionState → Bool
  | exited | disconnected => true
  | _ => false

/-- Whether a program is loaded and takes changes of its points. -/
def isLive : SessionState → Bool
  | running | stopped => true
  | _ => false

/-- Whether a word may be written in a state that is not terminal. -/
def allows (state : SessionState) (word : Word) : Bool :=
  if word = .load then state = idle
  else if word.requiresStopped then state = stopped
  else true

/-- The state that a written word leads to, if it leads to another one. -/
def afterSent : SessionState → Word → Option SessionState
  | idle, .load => some connecting
  | stopped, word => if word.resumes then some running else none
  | _, _ => none

/-- The state that a received word leads to, if it leads to another one. -/
def afterReceived : SessionState → Word → Option SessionState
  | exited, _ | disconnected, _ => none
  | idle, .passiveStartup | connecting, .passiveStartup => some running
  | connecting, .ok => some running
  | connecting, .line | connecting, .exception => some stopped
  | running, .line | running, .exception => some stopped
  | _, .exit => some exited
  | _, _ => none

/-- The state that the loss of the connection leads to, if the session is not over. -/
def afterLoss (state : SessionState) : Option SessionState :=
  if state.isTerminal then none else some disconnected

/-- Whether a step between states is the start of a program. -/
def isStart (previous : SessionState) : Option SessionState → Bool
  | some next => (previous == idle || previous == connecting) && next.isLive
  | none => false

end SessionState

end DebugLink
