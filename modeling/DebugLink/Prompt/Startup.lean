import DebugLink.Prompt.Options
import DebugLink.Prompt.Turn
import DebugLink.Snapshot.Keeper

/-!
# Before and after the prompt

What the command line, the settings and the state file make of a new session, and what
a session leaves in the state file.
-/

namespace DebugLink.Prompt

open DebugLink.Text

/-- The host that an address names, and the number behind the last colon. A host may stand in
square brackets. -/
def endpoint? (address : String) : Option (String × UInt16) := do
  let (host, number) ← Split.atLast [':'] address.toList
  let number ← (Numeral.readNat 0xFFFF number).toOption
  let host := match host with
    | '[' :: rest => if rest.getLast? = some ']' then rest.dropLast else host
    | _ => host
  some (String.ofList host, UInt16.ofNat number)

/-- How long to wait, in milliseconds, after each attempt to connect but the last. Each wait is
two hundred times as long as the one before. -/
def connectDelays (config : SessionConfig) : List Nat :=
  (List.range config.connectRetries).map fun attempt => Nat.pow 200 (attempt + 1)

/-- The limits of a session, which ignores also the exception types of the command line and of
the state file. -/
def startConfig (config : SessionConfig) (options : Options) (stored : Option Snapshot) :
    SessionConfig :=
  { config with
    ignoredExceptions := config.ignoredExceptions ++ options.ignoredExceptions ++
      (stored.map Snapshot.ignoredExceptions).getD [] }

/-- Add stored points one after the other. Those that are refused are skipped, and a line tells
about each. -/
def addStored {α : Type} (name : String) (add : Session → α → Session.Outcome Unit)
    (session : Session) : List α → List String × Session
  | [] => ([], session)
  | point :: rest =>
    match add session point with
    | (.ok (), session) => addStored name add session rest
    | (.error error, session) =>
      let (lines, session) := addStored name add session rest
      (("skipping stored " ++ name ++ ": " ++ error.message) :: lines, session)

/-- Add all stored points to a session: the breakpoints, then the watchpoints. -/
def restore (now : Nat) (session : Session) (stored : Snapshot) : List String × Session :=
  let (lines, session) :=
    addStored "breakpoint" (Session.addBreakpoint now) session stored.breakpoints
  let (moreLines, session) :=
    addStored "watchpoint" (Session.addWatchpoint now) session stored.watchpoints
  (lines ++ moreLines, session)

/-- Add the breakpoints of the command line, up to the first that is refused. -/
def addBreakpoints (now : Nat) (session : Session) : List BreakpointSpec → Session.Outcome Unit
  | [] => (.ok (), session)
  | spec :: rest =>
    match session.addBreakpoint now spec.toBreakpoint with
    | (.ok (), session) => addBreakpoints now session rest
    | (.error error, session) => (.error error, session)

/-- Put the points and the ignore list of a session into the snapshot of a keeper, and save it. -/
def leave (keeper : Keeper) (session : Session) : Except SnapshotError Unit × Keeper :=
  let registry := session.core.registry
  (keeper.modify (·.record registry.breakpoints registry.watchpoints
    session.core.exceptions.ignored)).save

end DebugLink.Prompt
