import DebugLink.Session.Config
import DebugLink.Settings.Entry
import DebugLink.Text.Utf8

/-!
# Settings files

A settings file gives the limits of a session that differ from the usual ones. A key that
is not known, or a value of the wrong kind, makes the whole file unusable.
-/

namespace DebugLink.Settings

/-- The limits with one of them set. -/
def assign (config : SessionConfig) (entry : Entry) : Option SessionConfig :=
  match entry.key, entry.value with
  | "ping_interval_ms", .number n => some { config with pingInterval := n }
  | "ping_timeout_ms", .number n => some { config with pingTimeout := n }
  | "shutdown_timeout_ms", .number n => some { config with shutdownTimeout := n }
  | "poll_timeout_ms", .number n => some { config with pollTimeout := n }
  | "max_payload_size", .number n => some { config with payloadLimit := n }
  | "connect_retries", .number n => some { config with connectRetries := n }
  | "ignored_exceptions", .texts items => some { config with ignoredExceptions := items }
  | _, _ => none

/-- A text without the mark that may stand in front of it to tell its encoding. -/
def dropMark : List Char → List Char
  | '\uFEFF' :: rest => rest
  | text => text

/-- The limits that a text gives. -/
def ofText? (text : List Char) : Option SessionConfig := do
  let entries ← Entry.ofText? (dropMark text)
  entries.foldlM assign {}

/-- The limits that a file gives, which has to be UTF-8. Without a file they are the usual
ones. -/
def ofFile? : Option Bytes → Option SessionConfig
  | none => some {}
  | some bytes => Text.Utf8.decode? bytes >>= fun text => ofText? text.toList

end DebugLink.Settings
