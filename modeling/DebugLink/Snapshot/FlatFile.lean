import DebugLink.Snapshot
import DebugLink.Text.Utf8

/-!
# Files of flat records

An older state file holds one record a line. The number of fields tells breakpoints and
watchpoints apart, and blank lines do not count. Each line is read on its own; one that
cannot be read is skipped, and its error kept.
-/

namespace DebugLink

open Text

namespace FlatFile

/-- What a line of the file holds. -/
inductive Entry where
  /-- A breakpoint. -/
  | breakpoint (breakpoint : Breakpoint)
  /-- A watchpoint. -/
  | watchpoint (watchpoint : Watchpoint)
  /-- Something that cannot be read. -/
  | refused (error : RegistryError)
  deriving DecidableEq, Repr

/-- Put a character in front of the first line. -/
def extend (c : Char) : List (List Char) → List (List Char)
  | [] => [[c]]
  | line :: rest => (c :: line) :: rest

/-- The lines of a text. A line ends with a line feed, which a carriage return may precede; the
end of the text ends the last line too. -/
def lines : List Char → List (List Char)
  | [] => []
  | '\r' :: '\n' :: rest => [] :: lines rest
  | '\n' :: rest => [] :: lines rest
  | c :: rest => extend c (lines rest)

/-- Take the outcome of reading a record. -/
def Entry.ofResult {α : Type} (record : String) (entry : α → Entry) :
    Except Record.Fault α → Entry
  | .ok point => entry point
  | .error reason => .refused (.malformedRecord record reason)

/-- Read a line. -/
def Entry.ofLine (line : List Char) : Entry :=
  let record := String.ofList line
  let count := (Split.fields Record.separator line).length
  if count = Breakpoint.recordFields then .ofResult record .breakpoint (Breakpoint.ofRecord record)
  else if count = Watchpoint.recordFields then
    .ofResult record .watchpoint (Watchpoint.ofRecord record)
  else .refused (.malformedRecord record (.noKind count))

/-- The entries of a text, in order. -/
def entries (text : List Char) : List Entry :=
  ((lines text).filter (!Blank.isAllBlank ·)).map Entry.ofLine

/-- The breakpoint of an entry. -/
def Entry.breakpoint? : Entry → Option Breakpoint
  | breakpoint b => some b
  | _ => none

/-- The watchpoint of an entry. -/
def Entry.watchpoint? : Entry → Option Watchpoint
  | watchpoint w => some w
  | _ => none

/-- The error of an entry. -/
def Entry.error? : Entry → Option RegistryError
  | refused error => some error
  | _ => none

end FlatFile

/-- The content of a file of flat records, by kind and in the order of the lines. -/
structure FlatFile where
  /-- The breakpoints. -/
  breakpoints : List Breakpoint := []
  /-- The watchpoints. -/
  watchpoints : List Watchpoint := []
  /-- The errors of the lines that were skipped. -/
  errors : List RegistryError := []
  deriving DecidableEq, Repr

namespace FlatFile

/-- Sort entries by kind. -/
def ofEntries (entries : List Entry) : FlatFile where
  breakpoints := entries.filterMap Entry.breakpoint?
  watchpoints := entries.filterMap Entry.watchpoint?
  errors := entries.filterMap Entry.error?

/-- Read a text. -/
def ofText (text : List Char) : FlatFile := ofEntries (entries text)

/-- Read a file, which has to be UTF-8. -/
def ofBytes? (bytes : Bytes) : Option FlatFile := (Utf8.decode? bytes).map (ofText ·.toList)

end FlatFile

/-- Add the points of a file of flat records. -/
def Snapshot.addFlatFile (snapshot : Snapshot) (file : FlatFile) : Snapshot :=
  file.watchpoints.foldl addWatchpoint (file.breakpoints.foldl addBreakpoint snapshot)

end DebugLink
