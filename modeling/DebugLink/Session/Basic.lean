import DebugLink.Session.Config
import DebugLink.Session.Core
import DebugLink.Wire.Reader
import DebugLink.Wire.Writer

/-!
# Sessions

A session joins what is known about a debuggee with the connection to it. It works in
rounds of four phases: a frame is taken in, the requests of the user are written, then
those that follow from what came in, and last the timers are looked at. A round is given
the present time; a phase that loses the connection ends the session's work.
-/

namespace DebugLink

open Wire

/-- Why a request is not carried out. -/
inductive SessionError where
  /-- The state does not allow the word. -/
  | invalidState (word : Word) (state : SessionState)
  /-- The session no longer works. -/
  | notConnected
  /-- The session is over. -/
  | terminated (state : SessionState)
  /-- The registry refuses. -/
  | registry (error : RegistryError)
  /-- The request cannot be written. -/
  | wire (fault : Fault)
  deriving DecidableEq

/-- The wording of a session error. -/
def SessionError.message : SessionError → String
  | invalidState word state =>
    "cannot send " ++ word.name ++ " while the session is " ++ state.name
  | notConnected => "session is not connected"
  | terminated state => "session has terminated (" ++ state.name ++ ")"
  | registry error => error.message
  | wire fault => fault.message

/-- What the user asks of a working session. -/
inductive Command where
  /-- Write a request; the answer is filed under the ticket. -/
  | send (ticket : Nat) (request : Request)
  /-- End the debuggee and the session. -/
  | shutdown
  deriving DecidableEq

/-- A session. -/
structure Session where
  /-- The limits. -/
  config : SessionConfig := {}
  /-- What is known about the debuggee. -/
  core : Core := {}
  /-- What comes from the debuggee. -/
  reader : Reader := ⟨[], {}⟩
  /-- Where requests are written to. -/
  sink : Sink := {}
  /-- The messages written so far. -/
  written : History Message := {}
  /-- What the user has asked for and is not yet done, oldest first. -/
  commands : List Command := []
  /-- The answers to requests of the user. -/
  replies : List (Nat × Except SessionError Unit) := []
  /-- How many requests of the user there have been. -/
  tickets : Nat := 0
  /-- Requests that follow from what came in, oldest first. -/
  followUps : List Request := []
  /-- How many frames have come. -/
  frames : Nat := 0
  /-- When the last frame came. -/
  lastInbound : Nat := 0
  /-- When a probe was sent that nothing has answered. -/
  probeSent : Option Nat := none
  /-- When a program was asked for. -/
  loadSent : Option Nat := none
  /-- When the session ends its work at the latest. -/
  deadline : Option Nat := none
  /-- Whether the session has ended its work. -/
  ended : Bool := false

namespace Session

/-- A new session. -/
def new (config : SessionConfig) : Session where
  config := config
  core := { exceptions := .ofTypes config.ignoredExceptions }
  reader := ⟨[], { limit := config.payloadLimit }⟩

/-- The state of a session. -/
def state (session : Session) : SessionState := session.core.state

/-- End the session's work because the connection is lost. -/
def lose (session : Session) (loss : Loss) : Session :=
  { session with core := session.core.disconnect loss, ended := true }

/-- Write a request, if the state allows it. -/
def send (now : Nat) (session : Session) (request : Request) :
    Except SessionError Unit × Session :=
  if session.state.isTerminal then (.error (.terminated session.state), session)
  else if !session.state.allows request.word then
    (.error (.invalidState request.word session.state), session)
  else
    match session.sink.send session.config.payloadLimit request.toMessage with
    | (.error fault, sink) => (.error (.wire fault), { session with sink })
    | (.ok (), sink) =>
      (.ok (), { session with
        sink
        written := session.written.add request.toMessage
        loadSent := if request.word = .load then some now else session.loadSent
        core := session.core.afterSent request })

/-- The first phase: take in a frame, if one is complete. -/
def receive (now : Nat) (session : Session) : Session :=
  let (poll, reader) := session.reader.poll
  let session := { session with reader }
  match poll with
  | .idle => session
  | .closed => session.lose .closed
  | .fault fault => session.lose (.ofFault fault)
  | .frame frame =>
    let (result, core) := session.core.receive frame
    let session :=
      { session with core, frames := session.frames + 1, lastInbound := now, probeSent := none }
    match result with
    | .ok requests => { session with followUps := session.followUps ++ requests }
    | .error fault => session.lose (.protocol fault)

/-- Begin to end the debuggee, unless that has begun. -/
def beginShutdown (now : Nat) (session : Session) : Session :=
  if session.deadline.isSome then session
  else if session.state.isTerminal then { session with deadline := some now }
  else
    match session.send now .shutdown with
    | (.ok (), session) =>
      { session with deadline := some (now + session.config.shutdownTimeout) }
    | (.error _, session) => { session with deadline := some now }

/-- Carry out one command. -/
def runCommand (now : Nat) (session : Session) : Command → Session
  | .shutdown => session.beginShutdown now
  | .send ticket request =>
    let (result, session) := session.send now request
    let session := { session with replies := session.replies ++ [(ticket, result)] }
    match result with
    | .error (.wire _) => session.lose .requestUnwritten
    | _ => session

/-- Carry out commands in order, as long as the session works. -/
def runCommandsOf (now : Nat) (session : Session) : List Command → Session
  | [] => { session with commands := [] }
  | command :: rest =>
    let session := session.runCommand now command
    if session.ended then { session with commands := rest } else session.runCommandsOf now rest

/-- The second phase: carry out what the user has asked for. -/
def runCommands (now : Nat) (session : Session) : Session :=
  session.runCommandsOf now session.commands

/-- Write requests in order, as long as the session works. Those that the state does not allow
are dropped. -/
def sendFollowUpsOf (now : Nat) (session : Session) : List Request → Session
  | [] => { session with followUps := [] }
  | request :: rest =>
    match session.send now request with
    | (.error (.wire fault), session) => { session with followUps := rest }.lose (.unwritten fault)
    | (_, session) => session.sendFollowUpsOf now rest

/-- The third phase: write the requests that follow from what came in. -/
def sendFollowUps (now : Nat) (session : Session) : Session :=
  session.sendFollowUpsOf now session.followUps

/-- Set the deadline once the session is over, so that the debuggee can finish its output. -/
def setDeadline (now : Nat) (session : Session) : Session :=
  if session.state.isTerminal && session.deadline.isNone then
    { session with deadline := some (now + session.config.shutdownTimeout) }
  else session

/-- Look for a sign of life: give up when a probe is not answered in time, and send one when
nothing has come for long. -/
def probe (now : Nat) (session : Session) : Session :=
  match session.probeSent with
  | some sent =>
    if now - sent ≥ session.config.pingTimeout then session.lose .probeTimeout else session
  | none =>
    if now - session.lastInbound ≥ session.config.pingInterval then
      match session.send now .ping with
      | (.ok (), session) => { session with probeSent := some now }
      | (.error (.wire fault), session) => session.lose (.unwritten fault)
      | (.error _, session) => session
    else session

/-- Since when the session waits for a program. -/
def waitingSince (session : Session) : Nat :=
  match session.loadSent with
  | some sent => max sent session.lastInbound
  | none => session.lastInbound

/-- The fourth phase: look at the timers. -/
def checkTimers (now : Nat) (session : Session) : Session :=
  let session := session.setDeadline now
  match session.deadline with
  | some deadline => if now ≥ deadline then session.lose .shutdownTimeout else session
  | none =>
    if session.state = .connecting then
      if now - session.waitingSince ≥ session.config.pingTimeout then session.lose .loadTimeout
      else session
    else if session.state.isLive then session.probe now
    else session

/-- Go on with a phase, if the session still works. -/
def andThen (session : Session) (phase : Session → Session) : Session :=
  if session.ended then session else phase session

/-- One round of work. -/
def round (now : Nat) (session : Session) : Session :=
  (((session.andThen (receive now)).andThen (runCommands now)).andThen
    (sendFollowUps now)).andThen (checkTimers now)

/-- What a round changes that calls for another one: a frame has come, a command has been
carried out, a timer has acted, or the session has ended its work. -/
def mark (session : Session) : Nat × List Bool :=
  (session.frames,
    [session.commands.isEmpty, session.probeSent.isSome, session.deadline.isSome, session.ended])

/-- Rounds until one changes nothing, but no more than the bound allows. -/
def settleWithin (now : Nat) (session : Session) : (bound : Nat) → Session
  | 0 => session
  | bound + 1 =>
    let next := session.round now
    if next.mark = session.mark then next else next.settleWithin now bound

/-- Bring a session to rest. Each round takes in a frame, which has a byte at least, except
for a few rounds at the end in which only timers act. -/
def settle (now : Nat) (session : Session) : Session :=
  session.settleWithin now
    (Arrival.totalSize session.reader.source + session.reader.decoder.buffered + 8)

end Session

end DebugLink
