import DebugLink.Word

/-!
# Messages and frames

A message is a word with a payload of text. What arrives from the other side is a
sequence of frames: messages, and text that stands outside of any message, such as
program output that was on the stream before the debugger took it over.
-/

namespace DebugLink

/-- A protocol message. -/
structure Message where
  /-- The word that says what the message is. -/
  word : Word
  /-- The payload, which may be empty. -/
  payload : String
  deriving DecidableEq, Repr

namespace Message

/-- A message without a payload. -/
def bare (word : Word) : Message := ⟨word, ""⟩

/-- Whether the payload is empty. -/
def isBare (message : Message) : Bool := message.payload.isEmpty

/-- Whether this is the mark at the end of a transmission. -/
def isEndOfTransmission (message : Message) : Bool :=
  message == bare .endOfTransmission

/-- The message as it is shown to a reader. -/
def display (message : Message) : String :=
  if message.isBare then message.word.token else message.word.token ++ " " ++ message.payload

end Message

/-- One unit of what the other side sends. -/
inductive Frame where
  /-- A protocol message. -/
  | message (message : Message)
  /-- Text outside of any message. -/
  | output (text : String)
  deriving DecidableEq, Repr

end DebugLink
