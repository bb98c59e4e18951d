import DebugLink.Record
import DebugLink.Request

/-!
# Watchpoints

A watchpoint stops the program when its condition holds, and only after it has been
passed as often as its ignore count says. A special watchpoint is looked at on every
line and not only behind each statement; the debuggee knows it by a mark behind its
condition.
-/

namespace DebugLink

open Text

/-- A watched condition. -/
structure Watchpoint where
  /-- What is watched; a blank text makes the watchpoint invalid. -/
  condition : String := ""
  /-- Whether the watchpoint is looked at on every line. -/
  special : Bool := false
  /-- Whether the watchpoint is removed when it stops the program. -/
  temporary : Bool := false
  /-- Whether the watchpoint is looked at at all. -/
  enabled : Bool := true
  /-- How many more times the watchpoint only counts. -/
  ignoreCount : UInt32 := 0
  deriving DecidableEq, Repr

namespace Watchpoint

/-- Whether there is a condition. -/
def isValid (watchpoint : Watchpoint) : Bool := !Blank.isAllBlank watchpoint.condition.toList

/-- The mark of a special watchpoint. -/
def specialMark : String := " ??changed??"

/-- The condition as the debuggee knows it. -/
def wireCondition (watchpoint : Watchpoint) : String :=
  if watchpoint.special then watchpoint.condition ++ specialMark else watchpoint.condition

/-- The condition of a text that may carry the mark of a special watchpoint. -/
def conditionOfWire (text : String) : String :=
  match Split.after? specialMark.toList.reverse text.toList.reverse with
  | some rest => String.ofList rest.reverse
  | none => text

/-- The request that sets or clears the watchpoint. -/
def setRequest (watchpoint : Watchpoint) (set : Bool) : Request :=
  .setWatch watchpoint.wireCondition watchpoint.temporary set

/-- The request that says whether the watchpoint is enabled. -/
def enableRequest (watchpoint : Watchpoint) : Request :=
  .enableWatch watchpoint.wireCondition watchpoint.enabled

/-- The request that says how often the watchpoint only counts. -/
def ignoreRequest (watchpoint : Watchpoint) : Request :=
  .ignoreWatch watchpoint.wireCondition watchpoint.ignoreCount

/-- The requests that make the watchpoint in a debuggee that does not have it. -/
def syncRequests (watchpoint : Watchpoint) : List Request :=
  [watchpoint.setRequest true] ++
    (if watchpoint.enabled then [] else [watchpoint.enableRequest]) ++
    (if watchpoint.ignoreCount > 0 then [watchpoint.ignoreRequest] else [])

/-- The JSON form. -/
def toJson (watchpoint : Watchpoint) : Json.Value :=
  .ofMembers [("condition", .ofString watchpoint.condition), ("special", .bool watchpoint.special),
    ("temporary", .bool watchpoint.temporary), ("enabled", .bool watchpoint.enabled),
    ("ignore_count", .ofUInt32 watchpoint.ignoreCount)]

open Json.Shape in
/-- Read the JSON form. -/
def ofJson? (value : Json.Value) : Option Watchpoint := do
  let [condition, special, temporary, enabled, ignoreCount] ←
    fields? ["condition", "special", "temporary", "enabled", "ignore_count"] value | none
  some {
    condition := ← defaulted? "" text? condition
    special := ← defaulted? false bool? special
    temporary := ← defaulted? false bool? temporary
    enabled := ← defaulted? true bool? enabled
    ignoreCount := ← defaulted? 0 uint32? ignoreCount }

/-- The number of fields of a record. -/
def recordFields : Nat := 5

/-- The flat record, or the first field that it cannot hold. -/
def toRecord (watchpoint : Watchpoint) : Except String String :=
  let condition := if watchpoint.isValid then some watchpoint.condition else none
  Record.join [Record.ofOptional condition, Record.ofBool watchpoint.special,
    Record.ofBool watchpoint.temporary, Record.ofBool watchpoint.enabled,
    Numeral.ofUInt32 watchpoint.ignoreCount]

/-- Read a flat record. -/
def ofRecord (record : String) : Except Record.Fault Watchpoint := do
  let fields := Record.fields record
  let [condition, special, temporary, enabled, ignoreCount] := fields
    | .error (.fieldCount recordFields fields.length)
  let special ← Record.readBool special
  let temporary ← Record.readBool temporary
  let enabled ← Record.readBool enabled
  let ignoreCount ← Record.readCount ignoreCount
  .ok {
    condition := (Record.readOptional condition).getD "", special, temporary, enabled,
    ignoreCount }

end Watchpoint

end DebugLink
