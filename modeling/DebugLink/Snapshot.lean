import DebugLink.Registry

/-!
# What is kept between sessions

A snapshot holds the points of a session and the exception types it ignores. Breakpoints
are grouped by file. It is written as indented JSON, in which only the version has to be
there when it is read again. A path that is no text has no JSON form, so that writing fails
there and leaves the front of the document behind.
-/

namespace DebugLink

/-- The breakpoints of one file. -/
structure Project where
  /-- The source file, as it was spelled. -/
  path : SourcePath
  /-- Its breakpoints. -/
  breakpoints : List Breakpoint
  deriving DecidableEq, Repr

/-- What is kept between sessions. -/
structure Snapshot where
  /-- The version of the layout. -/
  version : String := "1"
  /-- The breakpoints, by file. -/
  projects : List Project := []
  /-- The watchpoints. -/
  watchpoints : List Watchpoint := []
  /-- The exception types to ignore. -/
  ignoredExceptions : List String := []
  deriving DecidableEq, Repr

namespace Project

/-- Whether a project is that of a file. -/
def isOf (project : Project) (file : SourcePath) : Bool := SourcePath.same project.path file

/-- Add a breakpoint at the end, in place of those on its line. -/
def add (project : Project) (breakpoint : Breakpoint) : Project :=
  { project with
    breakpoints := project.breakpoints.filter (·.line != breakpoint.line) ++ [breakpoint] }

/-- Add a breakpoint to the first project of its file, or to a new one at the end. -/
def addTo (breakpoint : Breakpoint) : List Project → List Project
  | [] => [⟨breakpoint.file, [breakpoint]⟩]
  | project :: rest =>
    if project.isOf breakpoint.file then project.add breakpoint :: rest
    else project :: addTo breakpoint rest

/-- Put a breakpoint behind the others of its file; the projects are ordered by path. -/
def groupInto (breakpoint : Breakpoint) : List Project → List Project
  | [] => [⟨breakpoint.file, [breakpoint]⟩]
  | project :: rest =>
    match compare (SourcePath.key breakpoint.file) (SourcePath.key project.path) with
    | .lt => ⟨breakpoint.file, [breakpoint]⟩ :: project :: rest
    | .eq => { project with breakpoints := project.breakpoints ++ [breakpoint] } :: rest
    | .gt => project :: groupInto breakpoint rest

/-- The JSON form. -/
def toJson (project : Project) : Json.Value :=
  .ofMembers [("path", project.path.toJson),
    ("breakpoints", .array (project.breakpoints.map Breakpoint.toJson))]

open Json.Shape in
/-- Read the JSON form. -/
def ofJson? (value : Json.Value) : Option Project := do
  let [path, breakpoints] ← fields? ["path", "breakpoints"] value | none
  some {
    path := ← required? SourcePath.ofJson? path
    breakpoints := ← required? (list? Breakpoint.ofJson?) breakpoints }

end Project

namespace Snapshot

/-- All breakpoints, project by project. -/
def breakpoints (snapshot : Snapshot) : List Breakpoint :=
  snapshot.projects.flatMap Project.breakpoints

/-- Add a breakpoint, in place of one on the same line of its file. -/
def addBreakpoint (snapshot : Snapshot) (breakpoint : Breakpoint) : Snapshot :=
  { snapshot with projects := Project.addTo breakpoint snapshot.projects }

/-- Add a watchpoint, unless there is one with the same condition. -/
def addWatchpoint (snapshot : Snapshot) (watchpoint : Watchpoint) : Snapshot :=
  if snapshot.watchpoints.any (·.condition == watchpoint.condition) then snapshot
  else { snapshot with watchpoints := snapshot.watchpoints ++ [watchpoint] }

/-- Add an exception type to ignore. -/
def ignore (snapshot : Snapshot) (type : String) : Snapshot :=
  { snapshot with ignoredExceptions := snapshot.ignoredExceptions ++ [type] }

/-- The snapshot with the given content in place of its own. -/
def record (snapshot : Snapshot) (breakpoints : List Breakpoint) (watchpoints : List Watchpoint)
    (ignoredExceptions : List String) : Snapshot :=
  { snapshot with
    projects :=
      breakpoints.foldl (fun projects breakpoint => Project.groupInto breakpoint projects) []
    watchpoints, ignoredExceptions }

/-- Add points to a registry one after the other; the answer holds the errors of those that it
refuses. -/
def addAll {α : Type} (add : Registry → α → Except RegistryError α × Registry)
    (registry : Registry) : List α → List RegistryError × Registry
  | [] => ([], registry)
  | point :: rest =>
    let (result, registry) := add registry point
    let (errors, registry) := addAll add registry rest
    match result with
    | .ok _ => (errors, registry)
    | .error error => (error :: errors, registry)

/-- Add all points to a registry: the breakpoints, then the watchpoints. -/
def restoreInto (snapshot : Snapshot) (registry : Registry) : List RegistryError × Registry :=
  let (errors, registry) := addAll Registry.insertBreakpoint registry snapshot.breakpoints
  let (moreErrors, registry) := addAll Registry.addWatchpoint registry snapshot.watchpoints
  (errors ++ moreErrors, registry)

/-- The JSON form. -/
def toJson (snapshot : Snapshot) : Json.Value :=
  .ofMembers [("version", .ofString snapshot.version),
    ("projects", .array (snapshot.projects.map Project.toJson)),
    ("watchpoints", .array (snapshot.watchpoints.map Watchpoint.toJson)),
    ("ignored_exceptions", .array (snapshot.ignoredExceptions.map Json.Value.ofString))]

open Json.Shape in
/-- Read the JSON form. -/
def ofJson? (value : Json.Value) : Option Snapshot := do
  let [version, projects, watchpoints, ignoredExceptions] ←
    fields? ["version", "projects", "watchpoints", "ignored_exceptions"] value | none
  some {
    version := ← required? text? version
    projects := ← defaulted? [] (list? Project.ofJson?) projects
    watchpoints := ← defaulted? [] (list? Watchpoint.ofJson?) watchpoints
    ignoredExceptions := ← defaulted? [] (list? text?) ignoredExceptions }

/-- The text of a state file. It ends in front of the first path that is no text. -/
def toText (snapshot : Snapshot) : String := snapshot.toJson.write.1

/-- Whether a state file holds all of the snapshot. -/
def isWhole (snapshot : Snapshot) : Bool := snapshot.toJson.write.2

/-- Read a state file. -/
def ofBytes? (bytes : Bytes) : Option Snapshot := Json.Value.ofBytes? bytes >>= ofJson?

end Snapshot

end DebugLink
