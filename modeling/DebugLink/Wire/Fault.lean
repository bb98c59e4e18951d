import DebugLink.Json.Problem
import DebugLink.Text.Quoted
import DebugLink.Word

/-!
# What can go wrong on the wire

The causes for which bytes do not become a message, a message does not become a
request or a response, or a stream cannot be read or written, with the wording of
each.
-/

namespace DebugLink.Wire

/-- The kinds of input and output errors that the rules of this library tell apart. -/
inductive IoKind where
  /-- No data yet. -/
  | wouldBlock
  /-- No data in the time allowed. -/
  | timedOut
  /-- The call was interrupted and may be made again. -/
  | interrupted
  /-- The other side no longer reads. -/
  | brokenPipe
  /-- The other side reset the connection. -/
  | connectionReset
  /-- The connection was given up. -/
  | connectionAborted
  /-- The stream ended too early. -/
  | unexpectedEof
  /-- A write took no bytes. -/
  | writeZero
  /-- Any other kind. -/
  | other
  deriving DecidableEq, Repr

namespace IoKind

/-- Whether the kind says that the other side is gone. -/
def isClosed : IoKind → Bool
  | brokenPipe | connectionReset | connectionAborted | unexpectedEof => true
  | _ => false

/-- Whether the kind says only that there is nothing to read yet. -/
def isIdle : IoKind → Bool
  | wouldBlock | timedOut => true
  | _ => false

end IoKind

/-- An input or output error. -/
structure IoFault where
  /-- What kind of error it is. -/
  kind : IoKind
  /-- The wording. -/
  text : String
  deriving DecidableEq, Repr

/-- Why a payload does not have the form that its word asks for. -/
inductive PayloadFault where
  /-- The payload is not JSON of the right shape. -/
  | json (problem : Json.Problem)
  /-- The payload does not have the fields of the given layout. -/
  | expected (layout : String)
  /-- A field does not hold what it should. -/
  | bad (field : String)
  /-- A number that denotes no scope. -/
  | invalidScope (code : Int8)
  /-- The exit code is not a numeral. -/
  | exitCode
  /-- The word is no request. -/
  | notRequest
  /-- The word is not one that a debuggee sends. -/
  | notResponse (word : Word)
  deriving DecidableEq, Repr

/-- The wording of a payload fault. -/
def PayloadFault.message : PayloadFault → String
  | .json problem => problem.message
  | .expected layout => "expected " ++ layout
  | .bad field => "bad " ++ field
  | .invalidScope code => "invalid scope " ++ toString code.toInt
  | .exitCode => "exit code is not an integer"
  | .notRequest => "not a request"
  | .notResponse word => word.name ++ " is not sent by a debuggee"

/-- What can go wrong on the wire. -/
inductive Fault where
  /-- Reading or writing failed. -/
  | io (fault : IoFault)
  /-- A token names no word of the vocabulary. -/
  | unknownWord (name : String)
  /-- A line begins like a token that is never closed. -/
  | malformedToken
  /-- A message is not UTF-8. -/
  | invalidUtf8
  /-- A payload length is no number in range. -/
  | malformedLength
  /-- A payload of known length is not followed by a newline. -/
  | missingTerminator (word : Word)
  /-- A payload is longer than allowed. -/
  | tooLarge (size limit : Nat)
  /-- A payload does not have the form that its word asks for. -/
  | malformedPayload (word : Word) (reason : PayloadFault)
  deriving DecidableEq, Repr

namespace Fault

/-- The wording of a fault. -/
def message : Fault → String
  | io fault => "I/O error: " ++ fault.text
  | unknownWord name => "unknown protocol word " ++ Text.Quoted.quote name
  | malformedToken => "malformed protocol token"
  | invalidUtf8 => "invalid UTF-8 in message"
  | malformedLength => "malformed payload length"
  | missingTerminator word => "payload for " ++ word.name ++ " not terminated by newline"
  | tooLarge size limit =>
    "payload size " ++ toString size ++ " exceeds maximum allowed " ++ toString limit
  | malformedPayload word reason =>
    "malformed " ++ word.name ++ " payload: " ++ reason.message

/-- Whether the fault means that the other side is gone, and not that it was not understood. -/
def isClosed : Fault → Bool
  | io fault => fault.kind.isClosed
  | _ => false

/-- The result of reading a word from its name or its token. -/
def readWord (s : String) : Except Fault Word :=
  match Word.ofText? s with
  | some word => .ok word
  | none => .error (unknownWord (Word.bareName s))

end Fault

end DebugLink.Wire
