import DebugLink.Session.Basic

/-!
# Using a session

What the user of a session can ask for. Changes of points go to the registry first; a
debuggee with a program is told at once, any other one when its program starts. After
each request the session is brought to rest.
-/

namespace DebugLink.Session

/-- A result with the session it leaves behind. -/
abbrev Outcome (α : Type) := Except SessionError α × Session

/-- The answer of a session that no longer works. -/
def gone (session : Session) : SessionError :=
  if session.state.isTerminal then .terminated session.state else .notConnected

/-- Put a request into the queue; the result is its ticket. -/
def submit (session : Session) (request : Request) : Nat × Session :=
  (session.tickets, { session with
    tickets := session.tickets + 1
    commands := session.commands ++ [.send session.tickets request] })

/-- The answer to the request with a ticket. -/
def reply (session : Session) (ticket : Nat) : Except SessionError Unit :=
  match session.replies.lookup ticket with
  | some result => result
  | none => .error session.gone

/-- Have a request written. -/
def request (now : Nat) (session : Session) (request : Request) : Outcome Unit :=
  if session.ended then (.error session.gone, session)
  else
    let (ticket, session) := session.submit request
    let session := session.settle now
    (session.reply ticket, session)

/-- Have requests written in order, up to the first that fails. -/
def requestAll (now : Nat) (session : Session) : List Request → Outcome Unit
  | [] => (.ok (), session)
  | first :: rest =>
    match session.request now first with
    | (.ok (), session) => session.requestAll now rest
    | (.error error, session) => (.error error, session)

/-- The requests of a change, which only a debuggee with a program is told. -/
def requestsIfLive (session : Session) (requests : List Request) : List Request :=
  if session.state.isLive then requests else []

/-- Replace the registry. -/
def withRegistry (session : Session) (registry : Registry) : Session :=
  { session with core := { session.core with registry } }

/-- Make a change in the registry and have the debuggee told about the changed point. -/
def change {α : Type} (now : Nat) (session : Session)
    (update : Registry → Except RegistryError α × Registry) (requests : α → List Request) :
    Outcome Unit :=
  match update session.core.registry with
  | (.error error, registry) => (.error (.registry error), session.withRegistry registry)
  | (.ok point, registry) =>
    let session := session.withRegistry registry
    session.requestAll now (session.requestsIfLive (requests point))

/-- Take a point out of the registry and have the debuggee told. -/
def remove {α : Type} (now : Nat) (session : Session)
    (update : Registry → Option α × Registry) (request : α → Request) : Outcome (Option α) :=
  let (removed, registry) := update session.core.registry
  let session := session.withRegistry registry
  let requests := session.requestsIfLive (removed.toList.map request)
  match session.requestAll now requests with
  | (.ok (), session) => (.ok removed, session)
  | (.error error, session) => (.error error, session)

/-- Start a program in a debuggee that came without one. -/
def load (now : Nat) (session : Session) (workingDirectory program : SourcePath)
    (args : List String) : Outcome Unit :=
  session.request now (.load workingDirectory program args false)

/-- Let the program run on. -/
def resume (now : Nat) (session : Session) : Outcome Unit := session.request now (.resume false)

/-- Add a breakpoint. -/
def addBreakpoint (now : Nat) (session : Session) (breakpoint : Breakpoint) : Outcome Unit :=
  session.change now (·.insertBreakpoint breakpoint) Breakpoint.syncRequests

/-- Remove a breakpoint. -/
def removeBreakpoint (now : Nat) (session : Session) (file : SourcePath) (line : UInt32) :
    Outcome (Option Breakpoint) :=
  session.remove now (·.removeBreakpoint file line) (·.setRequest false)

/-- Enable or disable a breakpoint. -/
def enableBreakpoint (now : Nat) (session : Session) (file : SourcePath) (line : UInt32)
    (enabled : Bool) : Outcome Unit :=
  session.change now (·.enableBreakpoint file line enabled) ([·.enableRequest])

/-- Let a breakpoint only count so many times. -/
def ignoreBreakpoint (now : Nat) (session : Session) (file : SourcePath) (line count : UInt32) :
    Outcome Unit :=
  session.change now (·.ignoreBreakpoint file line count) ([·.ignoreRequest])

/-- Add a watchpoint. -/
def addWatchpoint (now : Nat) (session : Session) (watchpoint : Watchpoint) : Outcome Unit :=
  session.change now (·.addWatchpoint watchpoint) Watchpoint.syncRequests

/-- Remove a watchpoint. -/
def removeWatchpoint (now : Nat) (session : Session) (condition : String) :
    Outcome (Option Watchpoint) :=
  session.remove now (·.removeWatchpoint condition) (·.setRequest false)

/-- Enable or disable a watchpoint. -/
def enableWatchpoint (now : Nat) (session : Session) (condition : String) (enabled : Bool) :
    Outcome Unit :=
  session.change now (·.enableWatchpoint condition enabled) ([·.enableRequest])

/-- Let a watchpoint only count so many times. -/
def ignoreWatchpoint (now : Nat) (session : Session) (condition : String) (count : UInt32) :
    Outcome Unit :=
  session.change now (·.ignoreWatchpoint condition count) ([·.ignoreRequest])

/-- Put an exception type on the ignore list; the answer tells whether it was not there. -/
def setIgnored (session : Session) (type : String) : Bool × Session :=
  let (isNew, exceptions) := session.core.exceptions.setIgnored type
  (isNew, { session with core := { session.core with exceptions } })

/-- Take an exception type off the ignore list; the answer tells whether it was there. -/
def unsetIgnored (session : Session) (type : String) : Bool × Session :=
  let (wasThere, exceptions) := session.core.exceptions.unsetIgnored type
  (wasThere, { session with core := { session.core with exceptions } })

/-- Install a provider of code, so that breakpoints on lines without code are refused. -/
def setProvider (session : Session) (provider : CodeProvider) : Session :=
  session.withRegistry (session.core.registry.setProvider provider)

/-- Forget the remembered lines of a file. -/
def invalidate (session : Session) (file : SourcePath) : Session :=
  session.withRegistry (session.core.registry.invalidate file)

/-- Let arrivals come from the debuggee, and bring the session to rest. -/
def arrive (now : Nat) (session : Session) (arrivals : List Wire.Arrival) : Session :=
  { session with reader := { session.reader with
    source := session.reader.source ++ arrivals } }.settle now

/-- Ask the debuggee to end. -/
def shutdown (now : Nat) (session : Session) : Session :=
  if session.ended then session
  else { session with commands := session.commands ++ [Command.shutdown] }.settle now

end DebugLink.Session
