import DebugLink.Prompt.Command

/-!
# Options of the command line

The arguments are read from left to right. An option that takes a value finds it behind
an equals sign, behind its letter, or in the next argument; single letters may stand
together. Behind two dashes alone everything is an address. A value is looked at when the
next option or address comes, or the arguments end.
-/

namespace DebugLink.Prompt

open DebugLink.Text

/-- What the command line asks for. -/
structure Options where
  /-- Where the debuggee is, or where to wait for it. -/
  address : String := "127.0.0.1:42424"
  /-- Whether to wait for the debuggee. -/
  listen : Bool := false
  /-- The breakpoints to set. -/
  breakpoints : List BreakpointSpec := []
  /-- The exception types to ignore. -/
  ignoredExceptions : List String := []
  /-- The settings file. -/
  config : Option String := none
  /-- The state file. -/
  state : Option String := none
  /-- The log file. -/
  logFile : String := "cdm-debug.log"
  deriving DecidableEq, Repr

/-- Why arguments are not taken. -/
inductive OptionsError where
  /-- There is no such option, or there is a second address. -/
  | unknown
  /-- An option has no value, or a file has no name. -/
  | noValue
  /-- A value cannot be read. -/
  | badValue
  /-- An option that may come once comes again. -/
  | repeated
  /-- A flag has a value. -/
  | needlessValue
  /-- Help is asked for. -/
  | help
  deriving DecidableEq, Repr

/-- The wording of such an error. -/
def OptionsError.message : OptionsError → String
  | unknown => "unexpected argument"
  | noValue => "a value is required"
  | badValue => "invalid value"
  | repeated => "an option cannot be used multiple times"
  | needlessValue => "unexpected value"
  | help => "help"

namespace Options

/-- What the program tells about its use. -/
def usage : String :=
  String.intercalate "\n"
    ["Interactive debugger front-end",
      "",
      "Usage: cdm-debug [OPTIONS] [ADDRESS]",
      "",
      "ADDRESS is where the debuggee is, or where to listen with --listen",
      "",
      "Options:",
      "  -l, --listen                   Wait for the debuggee to connect instead",
      "  -b, --breakpoint SPEC          Breakpoints as file:line[:condition]",
      "  -i, --ignore-exception TYPE    Exception types to count instead of stopping on",
      "  -c, --config FILE              Configuration file",
      "  -s, --state FILE               File that keeps breakpoints between runs",
      "      --log-file FILE            Where to write logs",
      "  -h, --help                     Print help"]

/-- The options that take a value. -/
inductive Key where
  /-- A breakpoint to set. -/
  | breakpoint
  /-- An exception type to ignore. -/
  | ignoreException
  /-- The settings file. -/
  | config
  /-- The state file. -/
  | state
  /-- The log file. -/
  | logFile
  deriving DecidableEq, Repr

/-- An option. -/
inductive Name where
  /-- An option that takes a value. -/
  | valued (key : Key)
  /-- The flag to wait for the debuggee. -/
  | listen
  /-- The flag to ask for help. -/
  | help
  deriving DecidableEq, Repr

/-- The option of a long name. -/
def Name.ofLong? : String → Option Name
  | "listen" => some .listen
  | "help" => some .help
  | "breakpoint" => some (.valued .breakpoint)
  | "ignore-exception" => some (.valued .ignoreException)
  | "config" => some (.valued .config)
  | "state" => some (.valued .state)
  | "log-file" => some (.valued .logFile)
  | _ => none

/-- The option of a letter. -/
def Name.ofLetter? : Char → Option Name
  | 'l' => some .listen
  | 'h' => some .help
  | 'b' => some (.valued .breakpoint)
  | 'i' => some (.valued .ignoreException)
  | 'c' => some (.valued .config)
  | 's' => some (.valued .state)
  | _ => none

/-- Arguments on the way to options. -/
structure Reading where
  /-- The address, if one has come. -/
  address : Option String := none
  /-- Whether the flag to wait has come. -/
  listen : Bool := false
  /-- The breakpoints that have come. -/
  breakpoints : List BreakpointSpec := []
  /-- The exception types that have come. -/
  ignoredExceptions : List String := []
  /-- The settings file, if one has come. -/
  config : Option String := none
  /-- The state file, if one has come. -/
  state : Option String := none
  /-- The log file, if one has come. -/
  logFile : Option String := none
  /-- An option whose value has not been looked at, with the value if it has come. -/
  pending : Option (Key × Option String) := none
  /-- Whether everything that comes is an address. -/
  addressOnly : Bool := false

/-- The result of reading some arguments. -/
abbrev Result := Except OptionsError Reading

namespace Reading

/-- Take the name of a file that may be given once. -/
def fileOnce (present : Option String) (value : String) : Except OptionsError (Option String) :=
  if present.isSome then .error .repeated
  else if value = "" then .error .noValue
  else .ok (some value)

/-- Look at the value of an option. -/
def store (reading : Reading) (key : Key) (value : String) : Result :=
  match key with
  | .breakpoint =>
    match BreakpointSpec.ofText value.toList with
    | .ok spec => .ok { reading with breakpoints := reading.breakpoints ++ [spec] }
    | .error _ => .error .badValue
  | .ignoreException =>
    .ok { reading with ignoredExceptions := reading.ignoredExceptions ++ [value] }
  | .config => do .ok { reading with config := ← fileOnce reading.config value }
  | .state => do .ok { reading with state := ← fileOnce reading.state value }
  | .logFile => do .ok { reading with logFile := ← fileOnce reading.logFile value }

/-- Look at the value of the option before. -/
def settle (reading : Reading) : Result :=
  match reading.pending with
  | none => .ok reading
  | some (_, none) => .error .noValue
  | some (key, some value) => { reading with pending := none }.store key value

/-- Take an option that takes a value, and its value if it comes with one. -/
def takeValued (reading : Reading) (key : Key) (value : Option String) : Result := do
  let reading ← reading.settle
  match value with
  | some value => reading.store key value
  | none => .ok { reading with pending := some (key, none) }

/-- Take a flag. -/
def takeFlag (reading : Reading) (name : Name) : Result := do
  let reading ← reading.settle
  if name = .help then .error .help
  else if reading.listen then .error .repeated
  else .ok { reading with listen := true }

/-- Take an option with a long name. -/
def takeLong (reading : Reading) (text : List Char) : Result :=
  let (name, value) := match Split.atFirst ['='] text with
    | some (name, value) => (name, some (String.ofList value))
    | none => (text, none)
  match Name.ofLong? (String.ofList name) with
  | none => .error .unknown
  | some (.valued key) => reading.takeValued key value
  | some name => if value.isSome then .error .needlessValue else reading.takeFlag name

/-- The value behind a letter; an equals sign between them does not belong to it. -/
def attached : List Char → Option String
  | [] => none
  | '=' :: rest => some (String.ofList rest)
  | rest => some (String.ofList rest)

/-- Take letters that stand together. -/
def takeLetters (reading : Reading) : List Char → Result
  | [] => .ok reading
  | letter :: rest =>
    match Name.ofLetter? letter with
    | none => .error .unknown
    | some (.valued key) => reading.takeValued key (attached rest)
    | some name => do (← reading.takeFlag name).takeLetters rest

/-- Take an address. -/
def takeAddress (reading : Reading) (address : String) : Result :=
  if reading.address.isSome then .error .unknown
  else do .ok { ← reading.settle with address := some address }

/-- Take an argument that is no option: a value that is waited for, or an address. -/
def takePlain (reading : Reading) (argument : String) : Result :=
  match reading.pending with
  | some (key, none) => .ok { reading with pending := some (key, some argument) }
  | _ => reading.takeAddress argument

/-- Take an argument. -/
def take (reading : Reading) (argument : String) : Result :=
  if reading.addressOnly then reading.takeAddress argument
  else
    match argument.toList with
    | ['-', '-'] => .ok { reading with addressOnly := true }
    | '-' :: '-' :: text => reading.takeLong text
    | '-' :: letter :: rest => reading.takeLetters (letter :: rest)
    | _ => reading.takePlain argument

/-- The options, once all arguments have come. -/
def finish (reading : Reading) : Except OptionsError Options := do
  let reading ← reading.settle
  let usual : Options := {}
  .ok {
    address := reading.address.getD usual.address
    listen := reading.listen
    breakpoints := reading.breakpoints
    ignoredExceptions := reading.ignoredExceptions
    config := reading.config
    state := reading.state
    logFile := reading.logFile.getD usual.logFile }

end Reading

/-- Read the arguments. -/
def ofArguments (arguments : List String) : Except OptionsError Options := do
  (← arguments.foldlM Reading.take {}).finish

end Options

end DebugLink.Prompt
