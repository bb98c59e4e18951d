import DebugLink.Prompt.Startup
import DebugLink.Settings
import Std.Async.DNS
import Std.Async.TCP

/-!
# The command line program

Files, the terminal and the network for a session and its prompt. What happens is decided
elsewhere: this module only moves bytes, lines and times.
-/

namespace DebugLink.Program

open Std.Async
open Std.Net

/-! ## Files -/

/-- What a file holds, if there is one. -/
def readFile? (path : String) : IO (Option Bytes) := do
  try return some (← IO.FS.readBinFile path).toList
  catch
    | .noFileOrDirectory .. => return none
    | error => throw error

/-- Replace what a file holds. -/
def writeFile (path : String) (bytes : Bytes) : IO Unit :=
  IO.FS.writeBinFile path ⟨bytes.toArray⟩

/-- The file of the given name among the user's settings. -/
def userFile? (name : String) : IO (Option String) := do
  let folder ← match ← IO.getEnv "XDG_CONFIG_HOME" with
    | some folder => pure (some folder)
    | none => pure ((← IO.getEnv "HOME").map (· ++ "/.config"))
  return folder.map (· ++ "/cdm-debug/" ++ name)

/-- Name the activity that an error interrupts. -/
def during {α : Type} (activity : String) (act : IO α) : IO α := do
  try act catch error => throw (IO.userError (activity ++ ": " ++ toString error))

/-- The settings of the given file, or of the user's own one. -/
def loadSettings (path : Option String) : IO SessionConfig := do
  let path := path <|> (← userFile? "config.toml")
  match Settings.ofFile? (← path.elim (pure none) readFile?) with
  | some config => return config
  | none => throw (IO.userError "malformed settings")

/-- The keeper of a state file, which is made if it is not there. -/
def openKeeper (path : String) : IO Keeper := do
  let present ← readFile? path
  match Keeper.ofFile present with
  | .error error => throw (IO.userError error.message)
  | .ok keeper =>
    if present.isNone then
      if let some (folder, _) := Text.Split.atLast ['/'] path.toList then
        IO.FS.createDirAll (String.ofList folder)
      writeFile path (keeper.file.getD [])
    return keeper

/-! ## Connections -/

/-- The network address of a text. -/
def resolve (address : String) : IO SocketAddress := do
  let some (host, number) := Prompt.endpoint? address
    | throw (IO.userError ("invalid address " ++ address))
  match (← (DNS.getAddrInfo host (toString number)).block).toList with
  | .v4 addr :: _ => return .v4 ⟨addr, number⟩
  | .v6 addr :: _ => return .v6 ⟨addr, number⟩
  | [] => throw (IO.userError ("unknown host " ++ host))

/-- Connect to a debuggee, without waiting for one. -/
def connectOnce (address : SocketAddress) : IO TCP.Socket.Client := do
  let client ← TCP.Socket.Client.mk
  (client.connect address).block
  return client

/-- Connect to a debuggee. A failure is waited out and tried again, once for each delay. -/
def connect (address : SocketAddress) : (delays : List Nat) → IO TCP.Socket.Client
  | [] => connectOnce address
  | delay :: rest => do
    try connectOnce address
    catch _ =>
      IO.sleep delay.toUInt32
      connect address rest

/-- Wait for a debuggee. -/
def accept (address : SocketAddress) : IO TCP.Socket.Client := do
  let server ← TCP.Socket.Server.mk
  server.bind address
  server.listen 1
  server.accept.block

/-! ## The running program -/

/-- A session with its connection and its terminal. -/
structure Desk where
  /-- The session. -/
  session : Session
  /-- The connection. -/
  client : TCP.Socket.Client
  /-- The read that is under way. -/
  arrival : Option (AsyncTask (Option ByteArray))
  /-- The line that is being typed. -/
  line : Task (Except IO.Error String)
  /-- How many pieces that the session has written have been sent. -/
  sent : Nat := 0
  /-- The events that have been taken from the session and not been handled. -/
  due : List Event := []
  /-- How many events have been taken from the session. -/
  taken : Nat := 0

namespace Desk

/-- Begin to read from a connection. -/
def read (client : TCP.Socket.Client) : IO (AsyncTask (Option ByteArray)) :=
  (client.recv? 8192).toIO

/-- Begin to read a line. -/
def readLine : IO (Task (Except IO.Error String)) := do
  IO.asTask (← IO.getStdin).getLine .dedicated

/-- The fault that the session sees for an error of the connection. -/
def faultOf (error : IO.Error) : Wire.IoFault :=
  let kind := match error with
    | .resourceVanished .. => Wire.IoKind.connectionReset
    | .interrupted .. => .interrupted
    | .timeExpired .. => .timedOut
    | _ => .other
  ⟨kind, toString error⟩

/-- Send what the session has written. -/
def flush (desk : Desk) : IO Desk := do
  let pieces := desk.session.sink.pieces
  let due := (pieces.since desk.sent).flatten
  if due.isEmpty then return desk
  try
    (desk.client.send ⟨due.toArray⟩).block
    return { desk with sent := pieces.size }
  catch error =>
    let sink := { desk.session.sink with broken := some (faultOf error) }
    return { desk with session := { desk.session with sink }, sent := pieces.size }

/-- Let arrivals come to the session. -/
def arrive (desk : Desk) (arrivals : List Wire.Arrival) : IO Desk := do
  let session := desk.session.arrive (← IO.monoMsNow) arrivals
  flush { desk with session }

/-- Take in what the connection has brought, or let a little time pass. -/
def poll (desk : Desk) : IO Desk := do
  match desk.arrival with
  | some task =>
    if ← IO.hasFinished task then
      match task.get with
      | .ok (some bytes) =>
        arrive { desk with arrival := some (← read desk.client) } [.data bytes.toList]
      | .ok none => arrive { desk with arrival := none } [.data []]
      | .error error => arrive { desk with arrival := none } [.fault (faultOf error)]
    else
      IO.sleep (max 1 desk.session.config.pollTimeout).toUInt32
      desk.arrive []
  | none =>
    IO.sleep (max 1 desk.session.config.pollTimeout).toUInt32
    desk.arrive []

/-- Wait for something to handle: a line that has been typed, or an event. -/
partial def await (desk : Desk) : IO (Desk × Prompt.Occasion) := do
  if ← IO.hasFinished desk.line then
    match desk.line.get with
    | .ok text =>
      if text.isEmpty then return (desk, .inputClosed)
      return ({ desk with line := ← readLine }, .line text)
    | .error _ => return (desk, .inputClosed)
  match desk.due with
  | event :: due => return ({ desk with due }, .event event)
  | [] =>
    let events := desk.session.core.events
    if desk.taken < events.size then
      await { desk with due := events.since desk.taken, taken := events.size }
    else (← desk.poll).await

/-- Print a text at once. -/
def print (text : String) : IO Unit := do
  let output ← IO.getStdout
  output.putStr text
  output.flush

/-- Take turns at the prompt until it ends. -/
partial def serve (desk : Desk) : IO Desk := do
  print (Prompt.prompt desk.session)
  let (desk, occasion) ← desk.await
  let turn := Prompt.handle (← IO.monoMsNow) desk.session occasion
  print turn.printed
  let desk ← flush { desk with session := turn.session }
  match turn.ending with
  | none => desk.serve
  | some .quit => return desk
  | some (.failed error) =>
    throw (IO.userError ("Error running command: " ++ error.message))

/-- Let the session work until it has ended. -/
partial def finish (desk : Desk) : IO Unit := do
  if !desk.session.ended then (← desk.poll).finish

end Desk

/-! ## From beginning to end -/

/-- Run the program. -/
def run (options : Prompt.Options) : IO Unit := do
  during "creating log file" (IO.FS.writeFile options.logFile "")
  let config ← during "loading configuration" (loadSettings options.config)
  let path := options.state <|> (← userFile? "state.json")
  let keeper ← during "opening state file" (path.mapM openKeeper)
  let stored := keeper.map Keeper.current
  let config := Prompt.startConfig config options stored
  let address ← during "resolving address" (resolve options.address)
  let client ←
    if options.listen then do
      Desk.print ("waiting for debuggee on " ++ options.address ++ "\n")
      during "accepting debuggee" (accept address)
    else during "connecting to debuggee" (connect address (Prompt.connectDelays config))
  let now ← IO.monoMsNow
  let session := { Session.new config with lastInbound := now }
  let (lines, session) := (stored.map (Prompt.restore now session)).getD ([], session)
  Desk.print (Prompt.printLines lines)
  let (.ok (), session) := Prompt.addBreakpoints now session options.breakpoints
    | throw (IO.userError "adding breakpoint")
  let desk ← Desk.serve {
    session, client, arrival := some (← Desk.read client), line := ← Desk.readLine }
  if let (some path, some keeper) := (path, keeper) then
    let (result, keeper) := Prompt.leave keeper desk.session
    during "saving state" (writeFile path (keeper.file.getD []))
    if let .error error := result then throw (IO.userError error.message)
  let desk ← Desk.flush { desk with session := desk.session.shutdown (← IO.monoMsNow) }
  desk.finish

end DebugLink.Program

open DebugLink in
/-- Read the arguments and run the program. -/
def main (arguments : List String) : IO UInt32 := do
  match Prompt.Options.ofArguments arguments with
  | .error .help =>
    IO.println Prompt.Options.usage
    return 0
  | .error error =>
    IO.eprintln ("error: " ++ error.message ++ "\n\n" ++ Prompt.Options.usage)
    return 2
  | .ok options =>
    try
      Program.run options
      return 0
    catch error =>
      IO.eprintln ("Error: " ++ toString error)
      return 1
