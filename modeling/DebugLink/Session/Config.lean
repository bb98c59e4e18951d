import DebugLink.Wire.Codec

/-!
# Limits of a session

Times are in milliseconds.
-/

namespace DebugLink

/-- The limits of a session. -/
structure SessionConfig where
  /-- After so long without a sign of life a probe is sent. -/
  pingInterval : Nat := 5000
  /-- A probe, or the request to load a program, is given up after so long. -/
  pingTimeout : Nat := 10000
  /-- A debuggee that is to end is given up after so long. -/
  shutdownTimeout : Nat := 3000
  /-- So long the session waits for data before it looks at its requests. -/
  pollTimeout : Nat := 10
  /-- The largest payload that is allowed. -/
  payloadLimit : Nat := Wire.defaultLimit
  /-- How often a connection is tried. -/
  connectRetries : Nat := 5
  /-- The exception types to ignore. -/
  ignoredExceptions : List String := []
  deriving DecidableEq, Repr

end DebugLink
