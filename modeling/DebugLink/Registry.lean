import DebugLink.Breakpoint
import DebugLink.LineCache
import DebugLink.Watchpoint

/-!
# The registry of points

The breakpoints of a session, ordered by path and line, its watchpoints in the order they
were added, and which of them have had a condition error reported. A breakpoint is only
taken for a line that can stop the program, as far as a provider of code can tell.
-/

namespace DebugLink

open Text

/-- Why a registry operation fails. -/
inductive RegistryError where
  /-- The line carries no code. -/
  | invalidLine (file : SourcePath) (line : UInt32)
  /-- The watchpoint has no condition. -/
  | invalidWatchpoint
  /-- A record cannot be read. -/
  | malformedRecord (record : String) (reason : Record.Fault)
  /-- A field cannot be written to a record. -/
  | unrepresentableField (field : String)
  /-- There is a watchpoint with this condition. -/
  | duplicateWatchpoint (condition : String)
  /-- There is no such breakpoint. -/
  | unknownBreakpoint (file : SourcePath) (line : UInt32)
  /-- There is no such watchpoint. -/
  | unknownWatchpoint (condition : String)
  deriving DecidableEq, Repr

/-- The wording of a registry error. -/
def RegistryError.message : RegistryError → String
  | invalidLine file line =>
    "line " ++ Numeral.ofUInt32 line ++ " of " ++ file.display ++ " is not a breakable line"
  | invalidWatchpoint => "watchpoint has no condition"
  | malformedRecord record reason =>
    "malformed record " ++ Quoted.quote record ++ ": " ++ reason.message
  | unrepresentableField field =>
    Quoted.quote field ++ " cannot be stored in a legacy record"
  | duplicateWatchpoint condition =>
    "a watchpoint for " ++ Quoted.quote condition ++ " already exists"
  | unknownBreakpoint file line => "no breakpoint at " ++ file.display ++ ":" ++
    Numeral.ofUInt32 line
  | unknownWatchpoint condition => "no watchpoint for " ++ Quoted.quote condition

/-- Where a breakpoint is: the path it means, and the line. -/
structure Place where
  /-- The path. -/
  path : SourcePath.Key
  /-- The line. -/
  line : UInt32
  deriving DecidableEq

namespace Place

/-- The place of a line of a file. -/
def ofLine (file : SourcePath) (line : UInt32) : Place := ⟨SourcePath.key file, line⟩

/-- The order of places: by path, then by line. -/
def order (a b : Place) : Ordering := (compare a.path b.path).then (compare a.line b.line)

end Place

/-- The place of a breakpoint. -/
def Breakpoint.place (breakpoint : Breakpoint) : Place := .ofLine breakpoint.file breakpoint.line

/-- Put a breakpoint into an ordered list, in place of one at the same place. -/
def Breakpoint.insertInto (breakpoint : Breakpoint) : List Breakpoint → List Breakpoint
  | [] => [breakpoint]
  | other :: rest =>
    match breakpoint.place.order other.place with
    | .lt => breakpoint :: other :: rest
    | .eq => breakpoint :: rest
    | .gt => other :: breakpoint.insertInto rest

/-- What a point is known by. -/
inductive PointKey where
  /-- A breakpoint, by its place. -/
  | breakpoint (place : Place)
  /-- A watchpoint, by its condition. -/
  | watchpoint (condition : String)
  deriving DecidableEq

/-- Answers whether a condition holds, or what is wrong with it; it may remember what it was
asked. -/
abbrev Evaluator (σ : Type) := String → σ → Except String Bool × σ

/-- What a trace event tells. -/
inductive TraceEvent where
  /-- A line is about to run. -/
  | line
  /-- A statement has run. -/
  | statement
  deriving DecidableEq, Repr

/-- What happens when the program reaches a place. -/
inductive HitOutcome where
  /-- No enabled breakpoint is there, or its condition does not hold. -/
  | pass
  /-- The breakpoint only counts; it will do so `remaining` times more. -/
  | ignored (remaining : UInt32)
  /-- The condition cannot be evaluated; `report` tells whether that is news. -/
  | conditionError (message : String) (report : Bool)
  /-- The program stops; a temporary breakpoint is gone. -/
  | stop (temporary : Bool)
  deriving DecidableEq, Repr

/-- What checking the watchpoints comes to. -/
structure WatchOutcome where
  /-- The watchpoint that stops the program. -/
  stop : Option Watchpoint := none
  /-- The conditions that could not be evaluated and had not been reported, with the errors. -/
  errors : List (String × String) := []
  deriving DecidableEq, Repr

/-- The points of a session. -/
structure Registry where
  /-- The breakpoints, ordered by place and one at a place. -/
  breakpoints : List Breakpoint := []
  /-- The watchpoints, in the order they were added. -/
  watchpoints : List Watchpoint := []
  /-- The points whose condition error has been reported. -/
  reported : List PointKey := []
  /-- Where the code of files comes from, if from anywhere. -/
  provider : Option CodeProvider := none
  /-- The breakable lines that are remembered. -/
  lineCache : LineCache := {}

namespace Registry

/-- Install a provider; remembered lines are dropped. -/
def setProvider (registry : Registry) (provider : CodeProvider) : Registry :=
  { registry with provider := some provider, lineCache := registry.lineCache.clear }

/-- Let the installed provider answer differently from now on; remembered lines stay. -/
def editProvider (registry : Registry) (provider : CodeProvider) : Registry :=
  { registry with provider := registry.provider.map fun _ => provider }

/-- Forget the remembered lines of a file. -/
def invalidate (registry : Registry) (file : SourcePath) : Registry :=
  { registry with lineCache := registry.lineCache.invalidate file }

/-- Whether a line can stop the program, as far as the provider can tell. -/
def isBreakable (registry : Registry) (file : SourcePath) (line : UInt32) : Bool × Registry :=
  match registry.provider with
  | none => (true, registry)
  | some provider =>
    let (lines, lineCache) := registry.lineCache.lines provider file
    (lines.all (·.contains line), { registry with lineCache })

/-- Forget that a condition error of a point was reported. -/
def forgetError (registry : Registry) (key : PointKey) : Registry :=
  { registry with reported := registry.reported.filter (· != key) }

/-- Note a condition error of a point; the answer tells whether it is news. -/
def noteError (registry : Registry) (key : PointKey) : Bool × Registry :=
  if registry.reported.contains key then (false, registry)
  else (true, { registry with reported := key :: registry.reported })

/-! ## Breakpoints -/

/-- Add a breakpoint, in place of one at the same place. -/
def insertBreakpoint (registry : Registry) (breakpoint : Breakpoint) :
    Except RegistryError Breakpoint × Registry :=
  match registry.isBreakable breakpoint.file breakpoint.line with
  | (false, registry) => (.error (.invalidLine breakpoint.file breakpoint.line), registry)
  | (true, registry) =>
    let registry := registry.forgetError (.breakpoint breakpoint.place)
    (.ok breakpoint,
      { registry with breakpoints := breakpoint.insertInto registry.breakpoints })

/-- Add an enabled breakpoint; a blank condition is none. -/
def addBreakpoint (registry : Registry) (file : SourcePath) (line : UInt32)
    (condition : Option String) (temporary : Bool) :
    Except RegistryError Breakpoint × Registry :=
  let breakpoint : Breakpoint := { file, line, temporary }
  registry.insertBreakpoint
    (match condition with
      | some condition => breakpoint.withCondition condition
      | none => breakpoint)

/-- Add the breakpoint of a flat record. -/
def addBreakpointRecord (registry : Registry) (record : String) :
    Except RegistryError Breakpoint × Registry :=
  match Breakpoint.ofRecord record with
  | .ok breakpoint => registry.insertBreakpoint breakpoint
  | .error reason => (.error (.malformedRecord record reason), registry)

/-- The breakpoint at a line of a file. -/
def breakpoint? (registry : Registry) (file : SourcePath) (line : UInt32) : Option Breakpoint :=
  registry.breakpoints.find? (·.place == .ofLine file line)

/-- Remove the breakpoint at a line of a file. -/
def removeBreakpoint (registry : Registry) (file : SourcePath) (line : UInt32) :
    Option Breakpoint × Registry :=
  let place := Place.ofLine file line
  let registry' := registry.forgetError (.breakpoint place)
  (registry.breakpoint? file line,
    { registry' with breakpoints := registry'.breakpoints.filter (·.place != place) })

/-- Change the breakpoint at a line of a file. -/
def modifyBreakpoint (registry : Registry) (file : SourcePath) (line : UInt32)
    (change : Breakpoint → Breakpoint) : Except RegistryError Breakpoint × Registry :=
  match registry.breakpoint? file line with
  | none => (.error (.unknownBreakpoint file line), registry)
  | some breakpoint =>
    (.ok (change breakpoint), { registry with
      breakpoints := registry.breakpoints.map fun other =>
        if other.place == .ofLine file line then change other else other })

/-- Enable or disable a breakpoint. -/
def enableBreakpoint (registry : Registry) (file : SourcePath) (line : UInt32) (enabled : Bool) :
    Except RegistryError Breakpoint × Registry :=
  registry.modifyBreakpoint file line ({ · with enabled })

/-- Let a breakpoint only count so many times. -/
def ignoreBreakpoint (registry : Registry) (file : SourcePath) (line count : UInt32) :
    Except RegistryError Breakpoint × Registry :=
  registry.modifyBreakpoint file line ({ · with ignoreCount := count })

/-- The breakpoints in a file. -/
def breakpointsIn (registry : Registry) (file : SourcePath) : List Breakpoint :=
  registry.breakpoints.filter (SourcePath.same ·.file file)

/-- Decide whether the program stops at a line of a file. -/
def hit {σ : Type} (registry : Registry) (file : SourcePath) (line : UInt32)
    (evaluate : Evaluator σ) (memory : σ) : HitOutcome × Registry × σ :=
  match registry.breakpoint? file line with
  | none => (.pass, registry, memory)
  | some breakpoint =>
    if !breakpoint.enabled then (.pass, registry, memory)
    else
      let (answer, memory) := match breakpoint.condition with
        | some condition => evaluate condition memory
        | none => (.ok true, memory)
      match answer with
      | .ok false => (.pass, registry, memory)
      | .error message =>
        let (report, registry) := registry.noteError (.breakpoint (.ofLine file line))
        (.conditionError message report, registry, memory)
      | .ok true =>
        if breakpoint.ignoreCount > 0 then
          let remaining := breakpoint.ignoreCount - 1
          (.ignored remaining, (registry.ignoreBreakpoint file line remaining).2, memory)
        else if breakpoint.temporary then
          (.stop true, (registry.removeBreakpoint file line).2, memory)
        else (.stop false, registry, memory)

/-! ## Watchpoints -/

/-- The watchpoint of a condition, which may be given as the debuggee knows it. -/
def watchpoint? (registry : Registry) (condition : String) : Option Watchpoint :=
  let condition := Watchpoint.conditionOfWire condition
  registry.watchpoints.find? (·.condition == condition)

/-- Add a watchpoint with a condition that no other one has. -/
def addWatchpoint (registry : Registry) (watchpoint : Watchpoint) :
    Except RegistryError Watchpoint × Registry :=
  if !watchpoint.isValid then (.error .invalidWatchpoint, registry)
  else if (registry.watchpoint? watchpoint.condition).isSome then
    (.error (.duplicateWatchpoint watchpoint.condition), registry)
  else
    let registry := registry.forgetError (.watchpoint watchpoint.condition)
    (.ok watchpoint, { registry with watchpoints := registry.watchpoints ++ [watchpoint] })

/-- Add the watchpoint of a flat record. -/
def addWatchpointRecord (registry : Registry) (record : String) :
    Except RegistryError Watchpoint × Registry :=
  match Watchpoint.ofRecord record with
  | .ok watchpoint => registry.addWatchpoint watchpoint
  | .error reason => (.error (.malformedRecord record reason), registry)

/-- Remove the watchpoint of a condition, which may be given as the debuggee knows it. -/
def removeWatchpoint (registry : Registry) (condition : String) : Option Watchpoint × Registry :=
  match registry.watchpoint? condition with
  | none => (none, registry)
  | some watchpoint =>
    let registry := registry.forgetError (.watchpoint watchpoint.condition)
    (some watchpoint, { registry with
      watchpoints := registry.watchpoints.eraseP (·.condition == watchpoint.condition) })

/-- Change the first watchpoint of a condition. -/
def modifyFirst (condition : String) (change : Watchpoint → Watchpoint) :
    List Watchpoint → List Watchpoint
  | [] => []
  | watchpoint :: rest =>
    if watchpoint.condition = condition then change watchpoint :: rest
    else watchpoint :: modifyFirst condition change rest

/-- Change the watchpoint of a condition, which may be given as the debuggee knows it. -/
def modifyWatchpoint (registry : Registry) (condition : String)
    (change : Watchpoint → Watchpoint) : Except RegistryError Watchpoint × Registry :=
  match registry.watchpoint? condition with
  | none => (.error (.unknownWatchpoint (Watchpoint.conditionOfWire condition)), registry)
  | some watchpoint =>
    (.ok (change watchpoint), { registry with
      watchpoints := modifyFirst watchpoint.condition change registry.watchpoints })

/-- Enable or disable a watchpoint. -/
def enableWatchpoint (registry : Registry) (condition : String) (enabled : Bool) :
    Except RegistryError Watchpoint × Registry :=
  registry.modifyWatchpoint condition ({ · with enabled })

/-- Let a watchpoint only count so many times. -/
def ignoreWatchpoint (registry : Registry) (condition : String) (count : UInt32) :
    Except RegistryError Watchpoint × Registry :=
  registry.modifyWatchpoint condition ({ · with ignoreCount := count })

/-- Whether a watchpoint is looked at on an event. -/
def applies (event : TraceEvent) (watchpoint : Watchpoint) : Bool :=
  watchpoint.enabled && (event == .statement || watchpoint.special)

/-- Check watchpoints in order, up to the first one that stops the program. `checked` holds
those passed, reversed, and `outcome` their errors, reversed. -/
def checkFrom {σ : Type} (event : TraceEvent) (evaluate : Evaluator σ) (memory : σ)
    (registry : Registry) (outcome : WatchOutcome) (checked : List Watchpoint) :
    List Watchpoint → WatchOutcome × Registry × σ
  | [] =>
    ({ outcome with errors := outcome.errors.reverse },
      { registry with watchpoints := checked.reverse }, memory)
  | watchpoint :: rest =>
    if !applies event watchpoint then
      checkFrom event evaluate memory registry outcome (watchpoint :: checked) rest
    else
      let (answer, memory) := evaluate watchpoint.condition memory
      match answer with
      | .ok false =>
        checkFrom event evaluate memory registry outcome (watchpoint :: checked) rest
      | .error message =>
        let (report, registry) := registry.noteError (.watchpoint watchpoint.condition)
        let errors :=
          if report then (watchpoint.condition, message) :: outcome.errors else outcome.errors
        checkFrom event evaluate memory registry { outcome with errors }
          (watchpoint :: checked) rest
      | .ok true =>
        if watchpoint.ignoreCount > 0 then
          let watchpoint := { watchpoint with ignoreCount := watchpoint.ignoreCount - 1 }
          checkFrom event evaluate memory registry outcome (watchpoint :: checked) rest
        else
          let kept := if watchpoint.temporary then rest else watchpoint :: rest
          ({ stop := some watchpoint, errors := outcome.errors.reverse },
            { registry with watchpoints := checked.reverse ++ kept }, memory)

/-- Decide whether the program stops for a watchpoint. -/
def checkWatchpoints {σ : Type} (registry : Registry) (event : TraceEvent)
    (evaluate : Evaluator σ) (memory : σ) : WatchOutcome × Registry × σ :=
  checkFrom event evaluate memory registry {} [] registry.watchpoints

/-! ## All points -/

/-- Whether there is no point at all. -/
def isEmpty (registry : Registry) : Bool :=
  registry.breakpoints.isEmpty && registry.watchpoints.isEmpty

/-- Remove all points. Remembered lines stay. -/
def clear (registry : Registry) : Registry :=
  { registry with breakpoints := [], watchpoints := [], reported := [] }

/-- The requests that make all points in a debuggee that has none. -/
def syncRequests (registry : Registry) : List Request :=
  registry.breakpoints.flatMap Breakpoint.syncRequests ++
    registry.watchpoints.flatMap Watchpoint.syncRequests

end Registry

end DebugLink
