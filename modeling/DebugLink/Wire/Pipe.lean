import DebugLink.Text.Utf8
import DebugLink.Wire.Fault

/-!
# A connection in memory

Two channels join the debugger and the debuggee, one in each direction. A channel keeps
what was written as separate chunks: a read returns bytes of one chunk only. Reading
from a channel that is empty fails as long as the writing half is there, and returns no
bytes once it is gone; writing fails once the reading half is gone.
-/

namespace DebugLink.Wire

/-- One direction of a connection. -/
structure Channel where
  /-- The rest of the chunk that is being read. -/
  current : Bytes := []
  /-- The chunks written and not yet begun. -/
  waiting : List Bytes := []
  /-- Whether the reading half is there. -/
  hasReader : Bool := true
  /-- Whether the writing half is there. -/
  hasWriter : Bool := true
  deriving DecidableEq

namespace Channel

/-- The error of a read from an empty channel. -/
def noData : IoFault := ⟨.wouldBlock, "no data available"⟩

/-- The error of a write that nobody can read. -/
def disconnected : IoFault := ⟨.brokenPipe, "channel disconnected"⟩

/-- Write one chunk; the result is the number of bytes written. -/
def write (channel : Channel) (bytes : Bytes) : Except IoFault Nat × Channel :=
  if channel.hasReader then
    (.ok bytes.length, { channel with waiting := channel.waiting ++ [bytes] })
  else (.error disconnected, channel)

/-- The bytes that can be read without waiting. The next chunk is begun only when the current
one is used up, and may itself be empty. -/
def available (channel : Channel) : Except IoFault Bytes × Channel :=
  match channel.current, channel.waiting with
  | [], chunk :: waiting => (.ok chunk, { channel with current := chunk, waiting })
  | [], [] => (if channel.hasWriter then .error noData else .ok [], channel)
  | bytes, _ => (.ok bytes, channel)

/-- Take bytes from the current chunk. -/
def consume (channel : Channel) (count : Nat) : Channel :=
  { channel with current := channel.current.drop count }

/-- Read at most `count` bytes. -/
def read (channel : Channel) (count : Nat) : Except IoFault Bytes × Channel :=
  match channel.available with
  | (.ok bytes, channel) => (.ok (bytes.take count), channel.consume count)
  | (.error fault, channel) => (.error fault, channel)

/-- Look at the bytes that can be read, and take some of them. -/
def peek (channel : Channel) (count : Nat) : Except IoFault Bytes × Channel :=
  match channel.available with
  | (.ok bytes, channel) => (.ok bytes, channel.consume count)
  | (.error fault, channel) => (.error fault, channel)

/-- Drop the reading half. -/
def dropReader (channel : Channel) : Channel := { channel with hasReader := false }

/-- Drop the writing half. -/
def dropWriter (channel : Channel) : Channel := { channel with hasWriter := false }

end Channel

/-- The two ends of a connection. -/
inductive Side where
  /-- The side of the debugger. -/
  | debugger
  /-- The side of the program under the debugger. -/
  | debuggee
  deriving DecidableEq, Repr

/-- The other end. -/
def Side.other : Side → Side
  | debugger => debuggee
  | debuggee => debugger

/-- A connection in memory. -/
structure Pipe where
  /-- The channel that the debugger reads. -/
  toDebugger : Channel := {}
  /-- The channel that the debuggee reads. -/
  toDebuggee : Channel := {}
  deriving DecidableEq

namespace Pipe

/-- The channel that a side reads. -/
def inbound (pipe : Pipe) : Side → Channel
  | .debugger => pipe.toDebugger
  | .debuggee => pipe.toDebuggee

/-- The channel that a side writes. -/
def outbound (pipe : Pipe) (side : Side) : Channel := pipe.inbound side.other

/-- Replace the channel that a side reads. -/
def setInbound (pipe : Pipe) (side : Side) (channel : Channel) : Pipe :=
  match side with
  | .debugger => { pipe with toDebugger := channel }
  | .debuggee => { pipe with toDebuggee := channel }

/-- Replace the channel that a side writes. -/
def setOutbound (pipe : Pipe) (side : Side) (channel : Channel) : Pipe :=
  pipe.setInbound side.other channel

/-- Write one chunk from a side. -/
def write (pipe : Pipe) (side : Side) (bytes : Bytes) : Except IoFault Nat × Pipe :=
  let (result, channel) := (pipe.outbound side).write bytes
  (result, pipe.setOutbound side channel)

/-- Read at most `count` bytes at a side. -/
def read (pipe : Pipe) (side : Side) (count : Nat) : Except IoFault Bytes × Pipe :=
  let (result, channel) := (pipe.inbound side).read count
  (result, pipe.setInbound side channel)

/-- Look at what a side can read, and take some of it. -/
def peek (pipe : Pipe) (side : Side) (count : Nat) : Except IoFault Bytes × Pipe :=
  let (result, channel) := (pipe.inbound side).peek count
  (result, pipe.setInbound side channel)

/-- Drop the reading half of a side. -/
def dropReader (pipe : Pipe) (side : Side) : Pipe :=
  pipe.setInbound side (pipe.inbound side).dropReader

/-- Drop the writing half of a side. -/
def dropWriter (pipe : Pipe) (side : Side) : Pipe :=
  pipe.setOutbound side (pipe.outbound side).dropWriter

end Pipe

end DebugLink.Wire
