/-!
# The protocol vocabulary

Every message starts with one word of a closed vocabulary, written between angle
brackets. Some words travel both ways; which role a message plays is decided by who
sent it.
-/

namespace DebugLink

/-- A protocol word. The requests come first, then the replies and reports. -/
inductive Word where
  | load | resume | step | stepOver | stepOut | stepQuit
  | setBreak | enableBreak | ignoreBreak | setWatch | enableWatch | ignoreWatch
  | variableList | expand | threadList | threadSet | eval | exec | shutdown | forkTo
  | currentStack | ok | exception | syntaxError | exit | line | raw | clearBreak
  | breakConditionError | clearWatch | watchConditionError | evalOk | evalError | execError
  | passiveStartup | endOfTransmission
  deriving DecidableEq, Repr

namespace Word

/-- All words, in the order of the vocabulary. -/
def all : List Word :=
  [load, resume, step, stepOver, stepOut, stepQuit, setBreak, enableBreak, ignoreBreak, setWatch,
    enableWatch, ignoreWatch, variableList, expand, threadList, threadSet, eval, exec, shutdown,
    forkTo, currentStack, ok, exception, syntaxError, exit, line, raw, clearBreak,
    breakConditionError, clearWatch, watchConditionError, evalOk, evalError, execError,
    passiveStartup, endOfTransmission]

/-- The name of a word, without brackets. -/
def name : Word → String
  | load => "Load"
  | resume => "Continue"
  | step => "Step"
  | stepOver => "StepOver"
  | stepOut => "StepOut"
  | stepQuit => "StepQuit"
  | setBreak => "Break"
  | enableBreak => "EnableBreak"
  | ignoreBreak => "IgnoreBreak"
  | setWatch => "Watch"
  | enableWatch => "EnableWatch"
  | ignoreWatch => "IgnoreWatch"
  | variableList => "Variables"
  | expand => "Variable"
  | threadList => "ThreadList"
  | threadSet => "ThreadSet"
  | eval => "Eval"
  | exec => "Exec"
  | shutdown => "Shutdown"
  | forkTo => "ForkTo"
  | currentStack => "CurrentStack"
  | ok => "OK"
  | exception => "Exception"
  | syntaxError => "SyntaxError"
  | exit => "Exit"
  | line => "Line"
  | raw => "Raw"
  | clearBreak => "ClearBreak"
  | breakConditionError => "BPConditionError"
  | clearWatch => "ClearWatch"
  | watchConditionError => "WPConditionError"
  | evalOk => "EvalOK"
  | evalError => "EvalError"
  | execError => "ExecError"
  | passiveStartup => "PassiveStartup"
  | endOfTransmission => "EOT"

/-- The word between its brackets, as it stands on the wire. -/
def token (word : Word) : String := ">" ++ word.name ++ "<"

/-- The word of a name. -/
def ofName? (name : String) : Option Word := all.find? fun word => word.name = name

/-- A name without the brackets of a token, if it has both. -/
def bareName (s : String) : String :=
  match s.toList with
  | '>' :: rest =>
    match rest.reverse with
    | '<' :: name => String.ofList name.reverse
    | _ => s
  | _ => s

/-- The word of a name or of a token. -/
def ofText? (s : String) : Option Word := ofName? (bareName s)

/-- Place in the vocabulary. -/
def index (word : Word) : Nat := all.idxOf word

/-- Whether the debugger may send this word. -/
def isRequest : Word → Bool
  | load | resume | step | stepOver | stepOut | stepQuit | setBreak | enableBreak
  | ignoreBreak | setWatch | enableWatch | ignoreWatch | variableList | expand | threadList
  | threadSet | eval | exec | shutdown | forkTo | currentStack | ok => true
  | _ => false

/-- Whether one token serves for the request and for its reply. -/
def isSymmetric : Word → Bool
  | variableList | threadList | threadSet | currentStack | forkTo | eval | exec => true
  | _ => false

/-- Whether the debuggee may send this word. -/
def isResponse (word : Word) : Bool := !word.isRequest || word.isSymmetric || word == ok

/-- Whether the request looks at, or resumes, a paused debuggee and so needs one. -/
def requiresStopped : Word → Bool
  | variableList | expand | eval | exec | threadSet | threadList | currentStack
  | resume | step | stepOver | stepOut | stepQuit => true
  | _ => false

/-- Whether the request hands control back to the debuggee. -/
def resumes : Word → Bool
  | resume | step | stepOver | stepOut | stepQuit => true
  | _ => false

/-- A word is found by its name. -/
theorem ofName?_name (word : Word) : ofName? word.name = some word := by
  cases word <;> decide

/-- Every word is in the vocabulary. -/
theorem mem_all (word : Word) : word ∈ all := by
  cases word <;> decide

end Word

end DebugLink
