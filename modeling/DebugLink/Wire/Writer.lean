import DebugLink.History
import DebugLink.Wire.Codec

/-!
# Writing messages to a sink

A message is encoded first, so that one that is too large writes nothing, and then
written whole: a sink may take it in pieces. A write that fails, or that takes no byte,
ends the attempt with the bytes taken so far on the wire.
-/

namespace DebugLink.Wire

/-- How a sink answers one low-level write. -/
inductive WriteOutcome where
  /-- All bytes are taken. -/
  | all
  /-- At most so many bytes are taken. -/
  | atMost (count : Nat)
  /-- No byte is taken, for the given reason. -/
  | fail (fault : IoFault)
  deriving DecidableEq

/-- A sink with the answers that it will give. -/
structure Sink where
  /-- The answers to the next writes. -/
  script : List WriteOutcome := []
  /-- What every later write fails with; without it, every later write succeeds. -/
  broken : Option IoFault := none
  /-- The pieces taken so far. -/
  pieces : History Bytes := {}
  deriving DecidableEq

namespace Sink

/-- The bytes taken so far. -/
def accepted (sink : Sink) : Bytes := sink.pieces.toList.flatten

/-- The error of a write that takes no byte. -/
def writeZero : IoFault := ⟨.writeZero, "failed to write whole buffer"⟩

/-- Write bytes to a sink from the given answers on, with the pieces taken before. An
interrupted write is made again. -/
def writeFrom (broken : Option IoFault) (pieces : History Bytes) :
    List WriteOutcome → Bytes → Except IoFault Unit × Sink
  | script, [] => (.ok (), ⟨script, broken, pieces⟩)
  | [], bytes =>
    match broken with
    | none => (.ok (), ⟨[], broken, pieces.add bytes⟩)
    | some fault => (.error fault, ⟨[], broken, pieces⟩)
  | .all :: script, bytes => (.ok (), ⟨script, broken, pieces.add bytes⟩)
  | .atMost 0 :: script, _ :: _ => (.error writeZero, ⟨script, broken, pieces⟩)
  | .atMost (count + 1) :: script, b :: bytes =>
    writeFrom broken (pieces.add (b :: bytes.take count)) script (bytes.drop count)
  | .fail fault :: script, b :: bytes =>
    if fault.kind = .interrupted then writeFrom broken pieces script (b :: bytes)
    else (.error fault, ⟨script, broken, pieces⟩)

/-- Write all bytes. -/
def write (sink : Sink) (bytes : Bytes) : Except IoFault Unit × Sink :=
  writeFrom sink.broken sink.pieces sink.script bytes

/-- Send one message. -/
def send (limit : Nat) (sink : Sink) (message : Message) : Except Fault Unit × Sink :=
  match encode limit message with
  | .error fault => (.error fault, sink)
  | .ok bytes =>
    match sink.write bytes with
    | (.ok (), sink) => (.ok (), sink)
    | (.error fault, sink) => (.error (.io fault), sink)

end Sink

/-- A writer of messages to a sink that is flushed without failure. -/
structure Writer where
  /-- The longest payload that is written. -/
  limit : Nat
  /-- What the last message was encoded into. -/
  buffer : Bytes := []
  /-- Where the messages go. -/
  sink : Sink := {}
  deriving DecidableEq

namespace Writer

/-- Append the bytes of a message to the buffer, unless it is too large. -/
def encode (writer : Writer) (message : Message) : Except Fault Unit × Writer :=
  match Wire.encode writer.limit message with
  | .error fault => (.error fault, writer)
  | .ok bytes => (.ok (), { writer with buffer := writer.buffer ++ bytes })

/-- Write the buffer. -/
def writeBuffer (writer : Writer) : Except Fault Unit × Writer :=
  let (result, sink) := writer.sink.write writer.buffer
  (result.mapError Fault.io, { writer with sink })

/-- Send one message. -/
def send (writer : Writer) (message : Message) : Except Fault Unit × Writer :=
  match { writer with buffer := [] }.encode message with
  | (.error fault, writer) => (.error fault, writer)
  | (.ok (), writer) => writer.writeBuffer

/-- Send messages one after the other; a failure does not keep later ones from being tried. -/
def sendAll (writer : Writer) : List Message → List (Except Fault Unit) × Writer
  | [] => ([], writer)
  | message :: rest =>
    let (result, writer) := writer.send message
    let (results, writer) := writer.sendAll rest
    (result :: results, writer)

end Writer

/-- Send messages one after the other from a new writer. -/
def Sink.sendAll (limit : Nat) (sink : Sink) (messages : List Message) :
    List (Except Fault Unit) × Sink :=
  let (results, writer) := Writer.sendAll { limit, sink } messages
  (results, writer.sink)

end DebugLink.Wire
