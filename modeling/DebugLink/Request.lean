import DebugLink.Message
import DebugLink.Payload
import DebugLink.SourcePath
import DebugLink.Text.Blank
import DebugLink.Wire.Fault

/-!
# Requests

What the debugger asks of a debuggee. Each request has a word and writes its fields as
the text of the payload; each layout has its own separators, and a field that may hold
them stands where the cuts leave it alone.
-/

namespace DebugLink

open Text
open Wire (Fault PayloadFault)

/-- Which side of a fork the debugger follows. -/
inductive ForkTarget where
  /-- The process that forks. -/
  | parent
  /-- The new process. -/
  | child
  deriving DecidableEq, Repr

namespace ForkTarget

/-- The word for a side. -/
def word : ForkTarget → String
  | parent => "parent"
  | child => "child"

end ForkTarget

/-- What the debugger asks of a debuggee. -/
inductive Request where
  /-- Start a program under the debugger. -/
  | load (workingDirectory program : SourcePath) (args : List String) (traceLibrary : Bool)
  /-- Run on; `special` keeps looking at special watchpoints on the way. -/
  | resume (special : Bool)
  /-- Run to the next line, into calls. -/
  | step
  /-- Run to the next line, over calls. -/
  | stepOver
  /-- Run to the end of the current function. -/
  | stepOut
  /-- Give up the program. -/
  | stepQuit
  /-- Set or clear a breakpoint. -/
  | setBreak (file : String) (line : UInt32) (temporary set : Bool) (condition : Option String)
  /-- Enable or disable a breakpoint. -/
  | enableBreak (file : String) (line : UInt32) (enable : Bool)
  /-- Let a breakpoint pass so many times. -/
  | ignoreBreak (file : String) (line count : UInt32)
  /-- Set or clear a watchpoint. -/
  | setWatch (condition : String) (temporary set : Bool)
  /-- Enable or disable a watchpoint. -/
  | enableWatch (condition : String) (enable : Bool)
  /-- Let a watchpoint pass so many times. -/
  | ignoreWatch (condition : String) (count : UInt32)
  /-- Show the variables of a scope. -/
  | variableList (frame : UInt32) (scope : Scope)
  /-- Show the members of one variable. -/
  | expand (name : String) (frame : UInt32) (scope : Scope)
  /-- Show the threads. -/
  | threadList
  /-- Look at another thread. -/
  | threadSet (thread : Int64)
  /-- Evaluate an expression in a frame. -/
  | eval (frame : UInt32) (expression : String)
  /-- Execute a statement in a frame. -/
  | exec (frame : UInt32) (statement : String)
  /-- End the debuggee. -/
  | shutdown
  /-- Say which side of a fork to follow. -/
  | forkTo (target : ForkTarget)
  /-- Show the stack. -/
  | currentStack
  /-- Ask for a sign of life. -/
  | ping
  deriving DecidableEq

namespace Request

/-- The word of a request. -/
def word : Request → Word
  | load .. => .load
  | resume _ => .resume
  | step => .step
  | stepOver => .stepOver
  | stepOut => .stepOut
  | stepQuit => .stepQuit
  | setBreak .. => .setBreak
  | enableBreak .. => .enableBreak
  | ignoreBreak .. => .ignoreBreak
  | setWatch .. => .setWatch
  | enableWatch .. => .enableWatch
  | ignoreWatch .. => .ignoreWatch
  | variableList .. => .variableList
  | expand .. => .expand
  | threadList => .threadList
  | threadSet _ => .threadSet
  | eval .. => .eval
  | exec .. => .exec
  | shutdown => .shutdown
  | forkTo _ => .forkTo
  | currentStack => .currentStack
  | ping => .ok

/-- The words of the replies that complete a request; none where no reply is due. -/
def replyWords : Request → List Word
  | eval .. => [.evalOk, .evalError]
  | exec .. => [.exec, .execError]
  | variableList .. => [.variableList]
  | expand .. => [.expand]
  | threadList => [.threadList]
  | threadSet _ => [.threadSet]
  | currentStack => [.currentStack]
  | ping => [.ok]
  | _ => []

/-- The digit for a truth value. -/
def flag (value : Bool) : String := if value then "1" else "0"

/-- The payload of a request. Paths are sent as they are shown. -/
def payload : Request → String
  | load workingDirectory program args traceLibrary =>
    workingDirectory.display ++ "|" ++ program.display ++ "|" ++
      (Json.Value.array (args.map .ofString)).compact ++ "|" ++ flag traceLibrary
  | resume special => flag special
  | setBreak file line temporary set condition =>
    file ++ "@@" ++ Numeral.ofUInt32 line ++ "@@" ++ flag temporary ++ "@@" ++ flag set ++
      "@@" ++ condition.getD "None"
  | enableBreak file line enable =>
    file ++ "," ++ Numeral.ofUInt32 line ++ "," ++ flag enable
  | ignoreBreak file line count =>
    file ++ "," ++ Numeral.ofUInt32 line ++ "," ++ Numeral.ofUInt32 count
  | setWatch condition temporary set =>
    condition ++ "@@" ++ flag temporary ++ "@@" ++ flag set
  | enableWatch condition enable => condition ++ "," ++ flag enable
  | ignoreWatch condition count => condition ++ "," ++ Numeral.ofUInt32 count
  | variableList frame scope => Numeral.ofUInt32 frame ++ "," ++ Numeral.ofInt scope.code
  | expand name frame scope =>
    (Json.Value.array [.ofString name, .ofUInt32 frame, scope.toJson]).compact
  | threadSet thread => Numeral.ofInt thread.toInt
  | eval frame expression => Numeral.ofUInt32 frame ++ "," ++ expression
  | exec frame statement => Numeral.ofUInt32 frame ++ "," ++ statement
  | forkTo target => target.word
  | _ => ""

/-- The message of a request. -/
def toMessage (request : Request) : Message := ⟨request.word, request.payload⟩

/-- The truth value of a field. -/
def readFlag? (field : List Char) : Option Bool :=
  let field := Blank.trim field
  if field = ['1'] ∨ field = ['T', 'r', 'u', 'e'] ∨ field = ['t', 'r', 'u', 'e'] then some true
  else if field = ['0'] ∨ field = ['F', 'a', 'l', 's', 'e'] ∨ field = ['f', 'a', 'l', 's', 'e'] then
    some false
  else none

/-- The number of a field. -/
def readNumber? (field : List Char) : Option UInt32 :=
  (Numeral.readUInt32 (Blank.trim field)).toOption

/-- The thread number of a field. -/
def readThread? (field : List Char) : Option Int64 :=
  (Numeral.readInt64 (Blank.trim field)).toOption

/-- The scope of a field. -/
def readScope? (field : List Char) : Option Scope :=
  (Numeral.readInt8 (Blank.trim field)).toOption.bind Scope.ofCode?

/-- A value, or the fault of the field that should have held it. -/
def orBad {α : Type} (field : String) : Option α → Except PayloadFault α
  | some value => .ok value
  | none => .error (.bad field)

/-- Check for the arguments of a program. -/
def argsCheck : Json.Diagnosis.Check := Json.Diagnosis.listCheck Json.Diagnosis.textCheck

/-- Read the fields of a load request. -/
def readLoad (cs : List Char) : Except PayloadFault Request := do
  let [workingDirectory, program, args, traceLibrary] := Split.fieldsFirst ['|'] 3 cs
    | .error (.expected "workdir|file|args|trace")
  let some args :=
      (Json.Value.ofScalars? (args.map some)).bind (Json.Shape.list? Json.Shape.text?)
    | .error (.json (Json.Diagnosis.problem argsCheck (String.ofList args)))
  let traceLibrary ← orBad "trace flag" (readFlag? traceLibrary)
  .ok (load (.ofText (String.ofList workingDirectory)) (.ofText (String.ofList program)) args
    traceLibrary)

/-- Read the fields of a breakpoint request. -/
def readSetBreak (cs : List Char) : Except PayloadFault Request := do
  let [file, line, temporary, set, condition] := Split.fieldsFirst ['@', '@'] 4 cs
    | .error (.expected "file@@line@@temp@@set@@condition")
  let line ← orBad "line" (readNumber? line)
  let temporary ← orBad "temporary flag" (readFlag? temporary)
  let set ← orBad "set flag" (readFlag? set)
  let condition := String.ofList condition
  let condition := if condition = "None" ∨ condition = "" then none else some condition
  .ok (setBreak (String.ofList file) line temporary set condition)

/-- Read a file, a line and a last field. -/
def readPlaceAnd (cs : List Char) : Except PayloadFault (String × UInt32 × List Char) := do
  let [file, line, last] := Split.fieldsLast [','] 2 cs
    | .error (.expected "file,line,value")
  let line ← orBad "line" (readNumber? line)
  .ok (String.ofList file, line, last)

/-- Read the fields of a watchpoint request. -/
def readSetWatch (cs : List Char) : Except PayloadFault Request := do
  let [condition, temporary, set] := Split.fieldsLast ['@', '@'] 2 cs
    | .error (.expected "condition@@temp@@set")
  let temporary ← orBad "temporary flag" (readFlag? temporary)
  let set ← orBad "set flag" (readFlag? set)
  .ok (setWatch (String.ofList condition) temporary set)

/-- Read a condition and a last field. -/
def readConditionAnd (cs : List Char) : Except PayloadFault (String × List Char) := do
  let some (condition, last) := Split.atLast [','] cs
    | .error (.expected "condition,value")
  .ok (String.ofList condition, last)

/-- Read the fields of a request for variables. -/
def readVariables (cs : List Char) : Except PayloadFault Request := do
  let some (frame, scope) := Split.atFirst [','] cs | .error (.expected "frame,scope")
  let frame ← orBad "frame" (readNumber? frame)
  let scope ← orBad "scope" (readScope? scope)
  .ok (variableList frame scope)

/-- Check for a name, a frame and the number of a scope. -/
def expandCheck : Json.Diagnosis.Check :=
  Json.Diagnosis.tupleCheck [Json.Diagnosis.textCheck, Json.Diagnosis.uint32Check,
    Json.Diagnosis.int8Check]

/-- Read a name, a frame and the number of a scope. -/
def expandFields? : Json.Value → Option (String × UInt32 × Int8)
  | .array [name, frame, scope] => do
    some (← Json.Shape.text? name, ← Json.Shape.uint32? frame, ← Json.Shape.int8? scope)
  | _ => none

/-- Read the fields of a request for the members of a variable. -/
def readExpand (cs : List Char) : Except PayloadFault Request := do
  let some (name, frame, code) := (Json.Value.ofScalars? (cs.map some)).bind expandFields?
    | .error (.json (Json.Diagnosis.problem expandCheck (String.ofList cs)))
  let some scope := Scope.ofCode? code | .error (.invalidScope code)
  .ok (expand name frame scope)

/-- Read a frame and a text, whose leading blanks are dropped. -/
def readFrameAnd (cs : List Char) : Except PayloadFault (UInt32 × String) := do
  let some (frame, text) := Split.atFirst [','] cs | .error (.expected "frame,text")
  let frame ← orBad "frame" (readNumber? frame)
  .ok (frame, String.ofList (Blank.trimStart text))

/-- Read the side of a fork. -/
def readForkTo (cs : List Char) : Except PayloadFault Request :=
  let side := String.ofList (Blank.trim cs)
  if side = "parent" then .ok (forkTo .parent)
  else if side = "child" then .ok (forkTo .child)
  else .error (.expected "parent or child")

/-- Read the payload of a word. Words without fields ignore it. -/
def ofPayload (word : Word) (payload : String) : Except PayloadFault Request :=
  let cs := payload.toList
  match word with
  | .load => readLoad cs
  | .resume => (orBad "special flag" (readFlag? cs)).map resume
  | .step => .ok step
  | .stepOver => .ok stepOver
  | .stepOut => .ok stepOut
  | .stepQuit => .ok stepQuit
  | .setBreak => readSetBreak cs
  | .enableBreak => do
    let (file, line, last) ← readPlaceAnd cs
    .ok (enableBreak file line (← orBad "enable flag" (readFlag? last)))
  | .ignoreBreak => do
    let (file, line, last) ← readPlaceAnd cs
    .ok (ignoreBreak file line (← orBad "count" (readNumber? last)))
  | .setWatch => readSetWatch cs
  | .enableWatch => do
    let (condition, last) ← readConditionAnd cs
    .ok (enableWatch condition (← orBad "enable flag" (readFlag? last)))
  | .ignoreWatch => do
    let (condition, last) ← readConditionAnd cs
    .ok (ignoreWatch condition (← orBad "count" (readNumber? last)))
  | .variableList => readVariables cs
  | .expand => readExpand cs
  | .threadList => .ok threadList
  | .threadSet => (orBad "thread id" (readThread? cs)).map threadSet
  | .eval => (readFrameAnd cs).map fun (frame, text) => eval frame text
  | .exec => (readFrameAnd cs).map fun (frame, text) => exec frame text
  | .shutdown => .ok shutdown
  | .forkTo => readForkTo cs
  | .currentStack => .ok currentStack
  | .ok => .ok ping
  | _ => .error .notRequest

/-- The request that a message carries. -/
def ofMessage (message : Message) : Except Fault Request :=
  match ofPayload message.word message.payload with
  | .ok request => .ok request
  | .error reason => .error (.malformedPayload message.word reason)

end Request

end DebugLink
