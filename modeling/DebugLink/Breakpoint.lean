import DebugLink.Record
import DebugLink.Request

/-!
# Breakpoints

A breakpoint stops the program at a line, if its condition holds, and only after it has
been passed as often as its ignore count says. It is written as requests for the
debuggee, as JSON for state files, and as a flat record.
-/

namespace DebugLink

open Text

/-- A breakpoint at a line. -/
structure Breakpoint where
  /-- The source file, as it was spelled. -/
  file : SourcePath
  /-- The line in the file. -/
  line : UInt32
  /-- What has to hold for the program to stop. -/
  condition : Option String := none
  /-- Whether the breakpoint is removed when it stops the program. -/
  temporary : Bool := false
  /-- Whether the breakpoint is looked at. -/
  enabled : Bool := true
  /-- How many more times the breakpoint only counts. -/
  ignoreCount : UInt32 := 0
  deriving DecidableEq, Repr

namespace Breakpoint

/-- The breakpoint with a condition, unless that is blank. -/
def withCondition (breakpoint : Breakpoint) (condition : String) : Breakpoint :=
  { breakpoint with
    condition := if Blank.isAllBlank condition.toList then none else some condition }

/-- Whether the breakpoint is at a line of a file. -/
def isAt (breakpoint : Breakpoint) (file : SourcePath) (line : UInt32) : Bool :=
  SourcePath.same breakpoint.file file && breakpoint.line == line

/-- The text that the file is sent as. -/
def wireFile (breakpoint : Breakpoint) : String := breakpoint.file.display

/-- The request that sets or clears the breakpoint. -/
def setRequest (breakpoint : Breakpoint) (set : Bool) : Request :=
  .setBreak breakpoint.wireFile breakpoint.line breakpoint.temporary set breakpoint.condition

/-- The request that says whether the breakpoint is enabled. -/
def enableRequest (breakpoint : Breakpoint) : Request :=
  .enableBreak breakpoint.wireFile breakpoint.line breakpoint.enabled

/-- The request that says how often the breakpoint only counts. -/
def ignoreRequest (breakpoint : Breakpoint) : Request :=
  .ignoreBreak breakpoint.wireFile breakpoint.line breakpoint.ignoreCount

/-- The requests that make the breakpoint in a debuggee that does not have it. -/
def syncRequests (breakpoint : Breakpoint) : List Request :=
  [breakpoint.setRequest true] ++
    (if breakpoint.enabled then [] else [breakpoint.enableRequest]) ++
    (if breakpoint.ignoreCount > 0 then [breakpoint.ignoreRequest] else [])

/-- The JSON form, which leaves out a condition that there is not. It cannot be written if the
file is no text. -/
def toJson (breakpoint : Breakpoint) : Json.Value :=
  let condition := match breakpoint.condition with
    | some condition => [("condition", Json.Value.ofString condition)]
    | none => []
  .ofMembers ([("file", breakpoint.file.toJson), ("line", .ofUInt32 breakpoint.line)] ++
    condition ++ [("temporary", .bool breakpoint.temporary), ("enabled", .bool breakpoint.enabled),
      ("ignore_count", .ofUInt32 breakpoint.ignoreCount)])

open Json.Shape in
/-- Read the JSON form. -/
def ofJson? (value : Json.Value) : Option Breakpoint := do
  let [file, line, condition, temporary, enabled, ignoreCount] ←
    fields? ["file", "line", "condition", "temporary", "enabled", "ignore_count"] value | none
  some {
    file := ← required? SourcePath.ofJson? file
    line := ← required? uint32? line
    condition := ← defaulted? none (optional? text?) condition
    temporary := ← defaulted? false bool? temporary
    enabled := ← defaulted? true bool? enabled
    ignoreCount := ← defaulted? 0 uint32? ignoreCount }

/-- The number of fields of a record. -/
def recordFields : Nat := 6

/-- The flat record, or the first field that it cannot hold. The file is written as it is sent. -/
def toRecord (breakpoint : Breakpoint) : Except String String :=
  Record.join [breakpoint.wireFile, Numeral.ofUInt32 breakpoint.line,
    Record.ofOptional breakpoint.condition, Record.ofBool breakpoint.temporary,
    Record.ofBool breakpoint.enabled, Numeral.ofUInt32 breakpoint.ignoreCount]

/-- Read a flat record. -/
def ofRecord (record : String) : Except Record.Fault Breakpoint := do
  let fields := Record.fields record
  let [file, line, condition, temporary, enabled, ignoreCount] := fields
    | .error (.fieldCount recordFields fields.length)
  if file.isEmpty then .error .emptyFile
  let line ← Record.readLine line
  let temporary ← Record.readBool temporary
  let enabled ← Record.readBool enabled
  let ignoreCount ← Record.readCount ignoreCount
  .ok {
    file := .ofText (String.ofList file), line, condition := Record.readOptional condition,
    temporary, enabled, ignoreCount }

end Breakpoint

end DebugLink
