import DebugLink.Payload

/-!
# Exceptions the user wants to see

Reports of exception types on the ignore list are counted and not shown. Other reports
are shown, without their stack when an evaluated expression raised them.
-/

namespace DebugLink

/-- What becomes of a report. -/
inductive Delivery where
  /-- It is shown. -/
  | report (report : ExceptionReport)
  /-- It is not shown; `count` reports of its type have not been. -/
  | ignored (type : String) (count : Nat)
  deriving DecidableEq, Repr

/-- The ignore list with what it has done. -/
structure ExceptionFilter where
  /-- The types to ignore, in ascending order. -/
  ignored : List String := []
  /-- How many reports of each type have been ignored. -/
  counts : List (String × Nat) := []
  /-- The last report that was shown. -/
  last : Option ExceptionReport := none
  deriving DecidableEq, Repr

namespace ExceptionFilter

/-- Put a type into its place. -/
def insertType (type : String) : List String → List String
  | [] => [type]
  | other :: rest =>
    if type < other then type :: other :: rest
    else if type = other then other :: rest
    else other :: insertType type rest

/-- The filter that ignores the given types. -/
def ofTypes (types : List String) : ExceptionFilter :=
  { ignored := types.foldl (fun ignored type => insertType type ignored) [] }

/-- Whether a type is on the ignore list. -/
def isIgnored (filter : ExceptionFilter) (type : String) : Bool := filter.ignored.contains type

/-- Put a type on the list; the answer tells whether it was not there. -/
def setIgnored (filter : ExceptionFilter) (type : String) : Bool × ExceptionFilter :=
  (!filter.isIgnored type, { filter with ignored := insertType type filter.ignored })

/-- Take a type off the list; the answer tells whether it was there. -/
def unsetIgnored (filter : ExceptionFilter) (type : String) : Bool × ExceptionFilter :=
  (filter.isIgnored type, { filter with ignored := filter.ignored.filter (· != type) })

/-- How many reports of a type have been ignored. -/
def ignoredCount (filter : ExceptionFilter) (type : String) : Nat :=
  (filter.counts.lookup type).getD 0

/-- Replace the count of a type. -/
def setCount (type : String) (count : Nat) : List (String × Nat) → List (String × Nat)
  | [] => [(type, count)]
  | (other, n) :: rest =>
    if other = type then (type, count) :: rest else (other, n) :: setCount type count rest

/-- Route one report. -/
def receive (filter : ExceptionFilter) (report : ExceptionReport) : Delivery × ExceptionFilter :=
  if filter.isIgnored report.type then
    let count := filter.ignoredCount report.type + 1
    (.ignored report.type count,
      { filter with counts := setCount report.type count filter.counts })
  else
    let report := if report.raisedInEval then { report with stack := [] } else report
    (.report report, { filter with last := some report })

/-- Forget the last report. -/
def clearLast (filter : ExceptionFilter) : ExceptionFilter := { filter with last := none }

end ExceptionFilter

end DebugLink
