import DebugLink.Request

/-!
# Responses

What a debuggee sends: answers to requests, and reports of its own. Structured payloads
are JSON, the others are plain text.
-/

namespace DebugLink

open Text
open Wire (Fault PayloadFault)

/-- What a debuggee sends. -/
inductive Response where
  /-- An acknowledgement, also the sign of life. -/
  | ok
  /-- The debuggee stopped at a line. -/
  | stopped (stack : Stack)
  /-- The answer to a request for the stack. -/
  | currentStack (stack : Stack)
  /-- An exception was raised. -/
  | exception (report : ExceptionReport)
  /-- The program has a syntax error. -/
  | syntaxError (info : SyntaxErrorInfo)
  /-- The program ended. -/
  | exit (code : Int32)
  /-- The program waits for input. -/
  | raw (input : RawInput)
  /-- A temporary breakpoint was used up. -/
  | clearBreak (file : String) (line : UInt32)
  /-- The condition of a breakpoint could not be evaluated. -/
  | breakConditionError (file : String) (line : UInt32)
  /-- A temporary watchpoint was used up. -/
  | clearWatch (condition : String)
  /-- A watchpoint could not be evaluated. -/
  | watchConditionError (condition : String)
  /-- An evaluation began. -/
  | eval
  /-- The value of an expression. -/
  | evalOk (text : String)
  /-- The error of an expression. -/
  | evalError (text : String)
  /-- A statement was executed. -/
  | exec
  /-- The error of a statement. -/
  | execError (text : String)
  /-- The threads. -/
  | threadList (list : ThreadList)
  /-- The debugger looks at another thread now. -/
  | threadSet
  /-- The variables of a scope. -/
  | variableList (list : VariableList)
  /-- The members of a variable. -/
  | expand (list : VariableList)
  /-- A debuggee that came on its own is ready. -/
  | passiveStartup (file : String) (pid : Option UInt32)
  /-- The debuggee is about to fork. -/
  | forkTo
  /-- The transmission ends. -/
  | endOfTransmission
  deriving DecidableEq

namespace Response

/-- The word of a response. -/
def word : Response → Word
  | ok => .ok
  | stopped _ => .line
  | currentStack _ => .currentStack
  | exception _ => .exception
  | syntaxError _ => .syntaxError
  | exit _ => .exit
  | raw _ => .raw
  | clearBreak .. => .clearBreak
  | breakConditionError .. => .breakConditionError
  | clearWatch _ => .clearWatch
  | watchConditionError _ => .watchConditionError
  | eval => .eval
  | evalOk _ => .evalOk
  | evalError _ => .evalError
  | exec => .exec
  | execError _ => .execError
  | threadList _ => .threadList
  | threadSet => .threadSet
  | variableList _ => .variableList
  | expand _ => .expand
  | passiveStartup .. => .passiveStartup
  | forkTo => .forkTo
  | endOfTransmission => .endOfTransmission

/-- A file and a line. -/
def place (file : String) (line : UInt32) : String := file ++ "," ++ Numeral.ofUInt32 line

/-- The payload of a response. -/
def payload : Response → String
  | stopped stack | currentStack stack => (Stack.toJson stack).compact
  | exception report => report.toJson.compact
  | syntaxError info => info.toJson.compact
  | exit code => Numeral.ofInt code.toInt
  | raw input => input.toJson.compact
  | clearBreak file line | breakConditionError file line => place file line
  | clearWatch condition | watchConditionError condition => condition
  | evalOk text | evalError text | execError text => text
  | threadList list => list.toJson.compact
  | variableList list | expand list => list.toJson.compact
  | passiveStartup file (some pid) => file ++ "|" ++ Numeral.ofUInt32 pid
  | passiveStartup file none => file
  | ok | eval | exec | threadSet | forkTo | endOfTransmission => ""

/-- The message of a response. -/
def toMessage (response : Response) : Message := ⟨response.word, response.payload⟩

/-- Read a JSON payload of a given shape; the check tells what is wrong otherwise. -/
def readJson {α : Type} (shape? : Json.Value → Option α) (check : Json.Diagnosis.Check)
    (payload : String) : Except PayloadFault α :=
  match (Json.Value.ofText? payload).bind shape? with
  | some value => .ok value
  | none => .error (.json (Json.Diagnosis.problem check payload))

/-- Read an exit code; a blank payload is zero. -/
def readExit (cs : List Char) : Except PayloadFault Response :=
  let cs := Blank.trim cs
  if cs.isEmpty then .ok (exit 0)
  else
    match Numeral.readInt32 cs with
    | .ok code => .ok (exit code)
    | .error _ => .error .exitCode

/-- Read a file and a line. -/
def readPlace (cs : List Char) : Except PayloadFault (String × UInt32) := do
  let some (file, line) := Split.atLast [','] cs | .error (.expected "file,line")
  let line ← Request.orBad "line number" (Request.readNumber? line)
  .ok (String.ofList file, line)

/-- Read the file of a debuggee, and its process number behind a bar. -/
def readPassiveStartup (payload : String) : Except PayloadFault Response := do
  let some (file, pid) := Split.atLast ['|'] payload.toList
    | .ok (passiveStartup payload none)
  let pid ← Request.orBad "process id" (Request.readNumber? pid)
  .ok (passiveStartup (String.ofList file) (some pid))

/-- Read the payload of a word. Words without fields ignore it. -/
def ofPayload (word : Word) (payload : String) : Except PayloadFault Response :=
  match word with
  | .ok => .ok ok
  | .line => (readJson Stack.ofJson? Stack.check payload).map stopped
  | .currentStack => (readJson Stack.ofJson? Stack.check payload).map currentStack
  | .exception => (readJson ExceptionReport.ofJson? ExceptionReport.check payload).map exception
  | .syntaxError => (readJson SyntaxErrorInfo.ofJson? SyntaxErrorInfo.check payload).map syntaxError
  | .exit => readExit payload.toList
  | .raw => (readJson RawInput.ofJson? RawInput.check payload).map raw
  | .clearBreak => (readPlace payload.toList).map fun (file, line) => clearBreak file line
  | .breakConditionError =>
    (readPlace payload.toList).map fun (file, line) => breakConditionError file line
  | .clearWatch => .ok (clearWatch payload)
  | .watchConditionError => .ok (watchConditionError payload)
  | .eval => .ok eval
  | .evalOk => .ok (evalOk payload)
  | .evalError => .ok (evalError payload)
  | .exec => .ok exec
  | .execError => .ok (execError payload)
  | .threadList => (readJson ThreadList.ofJson? ThreadList.check payload).map threadList
  | .threadSet => .ok threadSet
  | .variableList => (readJson VariableList.ofJson? VariableList.check payload).map variableList
  | .expand => (readJson VariableList.ofJson? VariableList.check payload).map expand
  | .passiveStartup => readPassiveStartup payload
  | .forkTo => .ok forkTo
  | .endOfTransmission => .ok endOfTransmission
  | word => .error (.notResponse word)

/-- The response that a message carries. -/
def ofMessage (message : Message) : Except Fault Response :=
  match ofPayload message.word message.payload with
  | .ok response => .ok response
  | .error reason => .error (.malformedPayload message.word reason)

end Response

end DebugLink
