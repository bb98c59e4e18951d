import DebugLink.Payload
import DebugLink.Session.State
import DebugLink.Wire.Fault

/-!
# What a session tells

The events that a session publishes, in the order in which they happen.
-/

namespace DebugLink

open Wire (Fault)

/-- Why a session loses its connection. -/
inductive Loss where
  /-- The stream ended. -/
  | closed
  /-- The stream broke. -/
  | broken (fault : Fault)
  /-- What came cannot be understood. -/
  | protocol (fault : Fault)
  /-- A request of the user could not be written. -/
  | requestUnwritten
  /-- A request of the session's own could not be written. -/
  | unwritten (fault : Fault)
  /-- The debuggee did not end in time. -/
  | shutdownTimeout
  /-- The debuggee did not answer the request to load a program. -/
  | loadTimeout
  /-- The debuggee gave no sign of life. -/
  | probeTimeout
  deriving DecidableEq

/-- The wording of a loss. -/
def Loss.message : Loss → String
  | closed => "connection closed by debuggee"
  | broken fault => "connection lost: " ++ fault.message
  | protocol fault => "protocol error: " ++ fault.message
  | requestUnwritten => "failed to write to debuggee"
  | unwritten fault => "failed to write to debuggee: " ++ fault.message
  | shutdownTimeout => "debuggee did not exit before the shutdown timeout"
  | loadTimeout => "no reply to load request"
  | probeTimeout => "liveness probe timed out"

/-- The loss that a fault of the inbound stream means. -/
def Loss.ofFault (fault : Fault) : Loss := if fault.isClosed then broken fault else protocol fault

/-- What a session tells. -/
inductive Event where
  /-- The session has another state. -/
  | stateChanged (previous next : SessionState)
  /-- A debuggee that came on its own is ready. -/
  | started (file : String) (pid : Option UInt32)
  /-- The program stopped. -/
  | stopped (stack : Stack)
  /-- The stack that was asked for. -/
  | stack (stack : Stack)
  /-- Text outside of messages. -/
  | output (text : String)
  /-- An exception to show. -/
  | exception (report : ExceptionReport)
  /-- An exception on the ignore list. -/
  | exceptionIgnored (type : String) (count : Nat)
  /-- A syntax error in the program. -/
  | syntaxError (info : SyntaxErrorInfo)
  /-- The result of an expression, with the expression if it is known. -/
  | evalResult (expression : Option String) (result : String) (isError : Bool)
  /-- The result of a statement, with the statement if it is known. -/
  | execResult (statement error : Option String)
  /-- The threads that were asked for. -/
  | threadList (list : ThreadList)
  /-- The debugger looks at another thread, which is given if it is known. -/
  | threadSet (thread : Option Int64)
  /-- The variables that were asked for. -/
  | variableList (list : VariableList)
  /-- A temporary breakpoint is gone. -/
  | breakpointCleared (file : String) (line : UInt32)
  /-- The condition of a breakpoint cannot be evaluated. -/
  | breakpointConditionError (file : String) (line : UInt32)
  /-- A temporary watchpoint is gone. -/
  | watchpointCleared (condition : String)
  /-- A watchpoint cannot be evaluated. -/
  | watchpointConditionError (condition : String)
  /-- The debuggee waits to be told which side of a fork to follow. -/
  | forkRequested
  /-- The program waits for input. -/
  | rawInput (input : RawInput)
  /-- The program ended. -/
  | exited (code : Int32)
  /-- The connection is gone. -/
  | disconnected (loss : Loss)
  deriving DecidableEq

end DebugLink
