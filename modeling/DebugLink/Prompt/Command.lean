import DebugLink.Breakpoint

/-!
# Commands at the prompt

A command is one line: a word, and behind blanks an argument. Breakpoints are given by
file, line and an optional condition, with colons between them; the condition may hold
colons of its own.
-/

namespace DebugLink.Prompt

open DebugLink.Text

/-- A breakpoint as it is given by the user. -/
structure BreakpointSpec where
  /-- The source file. -/
  file : SourcePath
  /-- The line in the file. -/
  line : UInt32
  /-- What has to hold for the program to stop. -/
  condition : Option String := none
  deriving DecidableEq, Repr

/-- Why a text does not give a breakpoint. -/
inductive SpecError where
  /-- There is no line. -/
  | noLine (text : String)
  /-- There is no file. -/
  | noFile (text : String)
  /-- The line is no numeral. -/
  | badLine (text : String) (fault : Numeral.Fault)
  deriving DecidableEq, Repr

/-- The wording of such an error. -/
def SpecError.message : SpecError → String
  | noLine text => "expected file:line[:condition], got " ++ Quoted.quote text
  | noFile text => "missing file in " ++ Quoted.quote text
  | badLine text fault =>
    "invalid line number in " ++ Quoted.quote text ++ ": " ++ fault.message

namespace BreakpointSpec

/-- The condition of a text, which is none if the text is blank. -/
def condition? (text : List Char) : Option String :=
  let condition := Blank.trim text
  if condition.isEmpty then none else some (String.ofList condition)

/-- Read a breakpoint. -/
def ofText (text : List Char) : Except SpecError BreakpointSpec :=
  match Split.fieldsFirst [':'] 2 text with
  | file :: line :: rest =>
    if file.isEmpty then .error (.noFile (String.ofList text))
    else
      match Numeral.readUInt32 (Blank.trim line) with
      | .error fault => .error (.badLine (String.ofList text) fault)
      | .ok line =>
        .ok { file := .ofText (String.ofList file), line, condition := rest.head?.bind condition? }
  | _ => .error (.noLine (String.ofList text))

/-- The breakpoint that is given. -/
def toBreakpoint (spec : BreakpointSpec) : Breakpoint :=
  let breakpoint : Breakpoint := { file := spec.file, line := spec.line }
  match spec.condition with
  | some condition => breakpoint.withCondition condition
  | none => breakpoint

end BreakpointSpec

/-- A command. -/
inductive Command where
  /-- Let the program run on. -/
  | resume
  /-- Run to the next line, into calls. -/
  | step
  /-- Run to the next line of this frame. -/
  | stepOver
  /-- Run to the end of this frame. -/
  | stepOut
  /-- Leave the prompt and let the program run. -/
  | quit
  /-- Show the stack. -/
  | stack
  /-- Show the threads. -/
  | threads
  /-- Show the variables of a scope. -/
  | variableList (scope : Scope)
  /-- Evaluate an expression. -/
  | eval (expression : String)
  /-- Run a statement. -/
  | exec (statement : String)
  /-- Add a breakpoint. -/
  | setBreak (spec : BreakpointSpec)
  /-- Remove a breakpoint. -/
  | clear (file : SourcePath) (line : UInt32)
  /-- Put an exception type on the ignore list. -/
  | ignore (type : String)
  /-- Ask the program to end. -/
  | exit
  /-- Nothing. -/
  | empty
  deriving DecidableEq, Repr

/-- Why a line is no command. -/
inductive CommandError where
  /-- No command has this word. -/
  | unknown (word : String)
  /-- The variables of such a scope cannot be shown. -/
  | badScope (scope : String)
  /-- The word stands alone. -/
  | noArgument (word : String)
  /-- There is no exception type. -/
  | noType
  /-- The breakpoint cannot be read. -/
  | spec (error : SpecError)
  deriving DecidableEq, Repr

/-- The wording of such an error. -/
def CommandError.message : CommandError → String
  | unknown word => "unknown command " ++ Quoted.quote word
  | badScope scope =>
    "unknown scope " ++ Quoted.quote scope ++ ", expected local or global"
  | noArgument word => word ++ " needs an argument"
  | noType => "ignore needs an exception type"
  | spec error => error.message

namespace Command

/-- The first word of a line, and what follows it, without the blanks around both. -/
def cut (line : List Char) : List Char × List Char :=
  let line := Blank.trim line
  let isInside (c : Char) : Bool := !Blank.isBlank c
  (line.takeWhile isInside, Blank.trim (line.dropWhile isInside))

/-- The scope of an argument. -/
def readScope (argument : String) : Except CommandError Scope :=
  if argument = "" ∨ argument = "local" then .ok .here
  else if argument = "global" then .ok .globals
  else .error (.badScope argument)

/-- The breakpoint of an argument. -/
def readSpec (argument : List Char) : Except CommandError BreakpointSpec :=
  (BreakpointSpec.ofText argument).mapError .spec

/-- An argument that has to be there. -/
def readArgument (argument : String) (error : CommandError) : Except CommandError String :=
  if argument = "" then .error error else .ok argument

/-- The command of a word with its argument. -/
def ofParts (word : String) (argument : List Char) : Except CommandError Command :=
  let text := String.ofList argument
  match word with
  | "" => .ok .empty
  | "c" => .ok .resume
  | "s" => .ok .step
  | "n" => .ok .stepOver
  | "o" => .ok .stepOut
  | "q" => .ok .quit
  | "stack" => .ok .stack
  | "threads" => .ok .threads
  | "vars" => (readScope text).map .variableList
  | "eval" => (readArgument text (.noArgument word)).map .eval
  | "exec" => (readArgument text (.noArgument word)).map .exec
  | "break" => (readSpec argument).map .setBreak
  | "clear" => (readSpec argument).map fun spec => .clear spec.file spec.line
  | "ignore" => (readArgument text .noType).map .ignore
  | "exit" => .ok .exit
  | _ => .error (.unknown word)

/-- Read a line. -/
def ofLine (line : String) : Except CommandError Command :=
  let (word, argument) := cut line.toList
  ofParts (String.ofList word) argument

end Command

end DebugLink.Prompt
