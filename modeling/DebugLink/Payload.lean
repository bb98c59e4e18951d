import DebugLink.Json.Diagnosis

/-!
# Structured payloads

The data that some messages carry as JSON. A record is written as an object with its
fields in declared order and is read as `Json.Shape` says; fields that may be missing
are empty or zero then. The check of a type finds what is wrong with a text that cannot
be read.
-/

namespace DebugLink

open Json
open Json.Shape
open Json.Diagnosis

/-- One frame of a call stack. -/
structure StackFrame where
  /-- The source file. -/
  file : String
  /-- The line in the file. -/
  line : UInt32
  /-- The name of the function. -/
  function : String
  /-- The values of the arguments, as the debuggee shows them. -/
  arguments : String := ""
  deriving DecidableEq, Repr

namespace StackFrame

/-- The written form. -/
def toJson (frame : StackFrame) : Value :=
  .ofMembers [("file", .ofString frame.file), ("line", .ofUInt32 frame.line),
    ("function", .ofString frame.function), ("arguments", .ofString frame.arguments)]

/-- Read a stack frame. -/
def ofJson? (value : Value) : Option StackFrame := do
  let [file, line, function, arguments] ← fields? ["file", "line", "function", "arguments"] value
    | none
  some {
    file := ← required? text? file
    line := ← required? uint32? line
    function := ← required? text? function
    arguments := ← defaulted? "" text? arguments }

/-- Check for a stack frame. -/
def check : Check :=
  recordCheck "StackFrame" [⟨"file", textCheck, true⟩, ⟨"line", uint32Check, true⟩,
    ⟨"function", textCheck, true⟩, ⟨"arguments", textCheck, false⟩]

end StackFrame

/-- A call stack, innermost frame first. -/
abbrev Stack := List StackFrame

namespace Stack

/-- The written form. -/
def toJson (stack : Stack) : Value := .array (stack.map StackFrame.toJson)

/-- Read a stack. -/
def ofJson? : Value → Option Stack := list? StackFrame.ofJson?

/-- Check for a stack. -/
def check : Check := listCheck StackFrame.check

end Stack

/-- An exception raised in the debuggee. -/
structure ExceptionReport where
  /-- The type of the exception. -/
  type : String
  /-- Its message. -/
  message : String := ""
  /-- Where it was raised. -/
  stack : Stack := []
  deriving DecidableEq, Repr

namespace ExceptionReport

/-- The written form. -/
def toJson (report : ExceptionReport) : Value :=
  .ofMembers [("type", .ofString report.type), ("message", .ofString report.message),
    ("stack", Stack.toJson report.stack)]

/-- Read an exception report. -/
def ofJson? (value : Value) : Option ExceptionReport := do
  let [type, message, stack] ← fields? ["type", "message", "stack"] value | none
  some {
    type := ← required? text? type
    message := ← defaulted? "" text? message
    stack := ← defaulted? [] Stack.ofJson? stack }

/-- Check for an exception report. -/
def check : Check :=
  recordCheck "ExceptionReport" [⟨"type", textCheck, true⟩, ⟨"message", textCheck, false⟩,
    ⟨"stack", Stack.check, false⟩]

/-- The file that stands for the text of an evaluated expression. -/
def evaluatedFile : String := "<string>"

/-- Whether the exception was raised by an evaluated expression, so that its stack does not
point at the program. -/
def raisedInEval (report : ExceptionReport) : Bool :=
  match report.stack with
  | frame :: _ => frame.file == evaluatedFile
  | [] => false

end ExceptionReport

/-- A syntax error in the program. -/
structure SyntaxErrorInfo where
  /-- What is wrong. -/
  message : String
  /-- The source file. -/
  file : String := ""
  /-- The line in the file. -/
  line : UInt32 := 0
  /-- The column in the line. -/
  column : UInt32 := 0
  deriving DecidableEq, Repr

namespace SyntaxErrorInfo

/-- The written form. -/
def toJson (info : SyntaxErrorInfo) : Value :=
  .ofMembers [("message", .ofString info.message), ("filename", .ofString info.file),
    ("line", .ofUInt32 info.line), ("characternumber", .ofUInt32 info.column)]

/-- Read a syntax error. -/
def ofJson? (value : Value) : Option SyntaxErrorInfo := do
  let [message, file, line, column] ←
    fields? ["message", "filename", "line", "characternumber"] value | none
  some {
    message := ← required? text? message
    file := ← defaulted? "" text? file
    line := ← defaulted? 0 uint32? line
    column := ← defaulted? 0 uint32? column }

/-- Check for a syntax error. -/
def check : Check :=
  recordCheck "SyntaxErrorInfo" [⟨"message", textCheck, true⟩, ⟨"filename", textCheck, false⟩,
    ⟨"line", uint32Check, false⟩, ⟨"characternumber", uint32Check, false⟩]

end SyntaxErrorInfo

/-- What a thread is doing. -/
inductive ThreadState where
  /-- It runs. -/
  | running
  /-- It is paused. -/
  | waiting
  deriving DecidableEq, Repr

namespace ThreadState

/-- The word for a thread state. -/
def word : ThreadState → String
  | running => "running"
  | waiting => "waiting"

/-- The thread state of a word. -/
def ofWord? (s : String) : Option ThreadState :=
  if s = "running" then some running else if s = "waiting" then some waiting else none

/-- The written form. -/
def toJson (state : ThreadState) : Value := .ofString state.word

/-- Read a thread state: its word, or an object with the word as its only key and null. -/
def ofJson? : Value → Option ThreadState
  | .string word => (textOf? word).bind ofWord?
  | .object [(word, .null)] => (textOf? word).bind ofWord?
  | _ => none

/-- Check for a thread state. -/
def check : Check := wordCheck [running.word, waiting.word]

end ThreadState

/-- One thread of the debuggee. -/
structure ThreadInfo where
  /-- Its number. -/
  id : Int64
  /-- Its name. -/
  name : String
  /-- What it is doing. -/
  state : ThreadState
  deriving DecidableEq

namespace ThreadInfo

/-- The written form. -/
def toJson (info : ThreadInfo) : Value :=
  .ofMembers [("id", .ofInt info.id.toInt), ("name", .ofString info.name),
    ("state", info.state.toJson)]

/-- Read a thread. -/
def ofJson? (value : Value) : Option ThreadInfo := do
  let [id, name, state] ← fields? ["id", "name", "state"] value | none
  some {
    id := ← required? int64? id
    name := ← required? text? name
    state := ← required? ThreadState.ofJson? state }

/-- Check for a thread. -/
def check : Check :=
  recordCheck "ThreadInfo" [⟨"id", int64Check, true⟩, ⟨"name", textCheck, true⟩,
    ⟨"state", ThreadState.check, true⟩]

end ThreadInfo

/-- The threads of the debuggee. -/
structure ThreadList where
  /-- The number of the thread that the debugger looks at. -/
  current : Int64
  /-- All threads. -/
  threads : List ThreadInfo
  deriving DecidableEq

namespace ThreadList

/-- The written form. -/
def toJson (list : ThreadList) : Value :=
  .ofMembers [("current", .ofInt list.current.toInt),
    ("threads", .array (list.threads.map ThreadInfo.toJson))]

/-- Read a list of threads. -/
def ofJson? (value : Value) : Option ThreadList := do
  let [current, threads] ← fields? ["current", "threads"] value | none
  some {
    current := ← required? int64? current
    threads := ← required? (list? ThreadInfo.ofJson?) threads }

/-- Check for a list of threads. -/
def check : Check :=
  recordCheck "ThreadList" [⟨"current", int64Check, true⟩,
    ⟨"threads", listCheck ThreadInfo.check, true⟩]

end ThreadList

/-- A variable of the debuggee. -/
structure VariableInfo where
  /-- Its name. -/
  name : String
  /-- Its type. -/
  type : String
  /-- Its value, as the debuggee shows it. -/
  value : String
  deriving DecidableEq, Repr

namespace VariableInfo

/-- The written form. -/
def toJson (info : VariableInfo) : Value :=
  .ofMembers [("name", .ofString info.name), ("type", .ofString info.type),
    ("value", .ofString info.value)]

/-- Read a variable. -/
def ofJson? (value : Value) : Option VariableInfo := do
  let [name, type, shown] ← fields? ["name", "type", "value"] value | none
  some {
    name := ← required? text? name
    type := ← required? text? type
    value := ← required? text? shown }

/-- Check for a variable. -/
def check : Check :=
  recordCheck "Variable" [⟨"name", textCheck, true⟩, ⟨"type", textCheck, true⟩,
    ⟨"value", textCheck, true⟩]

end VariableInfo

/-- The names that a request for variables looks at. -/
inductive Scope where
  /-- The locals of a frame. -/
  | here
  /-- The globals of a module. -/
  | globals
  /-- Locals and globals that are the same names. -/
  | shared
  deriving DecidableEq, Repr

namespace Scope

/-- The number of a scope. -/
def code : Scope → Int
  | here => 0
  | globals => 1
  | shared => -1

/-- The scope of a number. -/
def ofCode? (code : Int8) : Option Scope :=
  if code = 0 then some here else if code = 1 then some globals
  else if code = -1 then some shared else none

/-- The written form. -/
def toJson (scope : Scope) : Value := .ofInt scope.code

/-- Read a scope. -/
def ofJson? (value : Value) : Option Scope := (int8? value).bind ofCode?

/-- Check for a scope. -/
def check : Check := do
  let code ← int8
  return if (ofCode? (Int8.ofInt code)).isSome then none else some (.invalidScope code)

end Scope

/-- The variables of one scope, or the members of one variable. -/
structure VariableList where
  /-- The scope that was looked at. -/
  scope : Scope
  /-- The variable whose members these are. -/
  parent : Option String := none
  /-- The variables. -/
  items : List VariableInfo := []
  deriving DecidableEq, Repr

namespace VariableList

/-- The written form, which leaves out a parent that there is not. -/
def toJson (list : VariableList) : Value :=
  let parent := match list.parent with
    | some name => [("variable", Value.ofString name)]
    | none => []
  .ofMembers ([("scope", list.scope.toJson)] ++ parent ++
    [("variables", .array (list.items.map VariableInfo.toJson))])

/-- Read a list of variables. -/
def ofJson? (value : Value) : Option VariableList := do
  let [scope, parent, items] ← fields? ["scope", "variable", "variables"] value | none
  some {
    scope := ← required? Scope.ofJson? scope
    parent := ← defaulted? none (optional? text?) parent
    items := ← defaulted? [] (list? VariableInfo.ofJson?) items }

/-- Check for a list of variables. -/
def check : Check :=
  recordCheck "VariableList" [⟨"scope", Scope.check, true⟩,
    ⟨"variable", optionalCheck textCheck, false⟩,
    ⟨"variables", listCheck VariableInfo.check, false⟩]

end VariableList

/-- A program that waits for a line at its console. -/
structure RawInput where
  /-- What the program asks. -/
  prompt : String
  /-- Whether the line typed is shown. -/
  echo : Bool
  deriving DecidableEq, Repr

namespace RawInput

/-- The written form. -/
def toJson (input : RawInput) : Value :=
  .ofMembers [("prompt", .ofString input.prompt), ("echo", .bool input.echo)]

/-- Read a request for input. -/
def ofJson? (value : Value) : Option RawInput := do
  let [prompt, echo] ← fields? ["prompt", "echo"] value | none
  some {
    prompt := ← required? text? prompt
    echo := ← required? bool? echo }

/-- Check for a request for input. -/
def check : Check := recordCheck "RawInput" [⟨"prompt", textCheck, true⟩, ⟨"echo", boolCheck, true⟩]

end RawInput

end DebugLink
