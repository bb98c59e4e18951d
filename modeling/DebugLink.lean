import DebugLink.Breakpoint
import DebugLink.CodeObject
import DebugLink.ExceptionFilter
import DebugLink.History
import DebugLink.Json.Diagnosis
import DebugLink.Json.Diagnosis.Basic
import DebugLink.Json.Number
import DebugLink.Json.Problem
import DebugLink.Json.Shape
import DebugLink.Json.Token
import DebugLink.Json.Value
import DebugLink.LineCache
import DebugLink.Main
import DebugLink.Message
import DebugLink.Payload
import DebugLink.Prompt.Command
import DebugLink.Prompt.Options
import DebugLink.Prompt.Startup
import DebugLink.Prompt.Turn
import DebugLink.Proofs.Registry.Change
import DebugLink.Proofs.Registry.Points
import DebugLink.Proofs.Registry.Table
import DebugLink.Proofs.Session.Answers
import DebugLink.Proofs.Session.Debugger
import DebugLink.Proofs.Session.Effect
import DebugLink.Proofs.Session.Flow
import DebugLink.Proofs.Session.Guarded
import DebugLink.Proofs.Session.Ignored
import DebugLink.Proofs.Session.Lifecycle
import DebugLink.Proofs.Session.Matching
import DebugLink.Proofs.Session.Mirror
import DebugLink.Proofs.Session.Moves
import DebugLink.Proofs.Session.Resync
import DebugLink.Proofs.Session.Rounds
import DebugLink.Proofs.Session.Run
import DebugLink.Proofs.Session.Sending
import DebugLink.Proofs.Session.Steps
import DebugLink.Proofs.Text.Utf8
import DebugLink.Proofs.Wire.Chunking
import DebugLink.Proofs.Wire.Encoding
import DebugLink.Proofs.Wire.MixedStream
import DebugLink.Proofs.Wire.Output
import DebugLink.Proofs.Wire.Stability
import DebugLink.Proofs.Wire.Token
import DebugLink.Proofs.Wire.Writing
import DebugLink.Record
import DebugLink.Registry
import DebugLink.Request
import DebugLink.Response
import DebugLink.Session.Basic
import DebugLink.Session.Config
import DebugLink.Session.Core
import DebugLink.Session.Event
import DebugLink.Session.Handle
import DebugLink.Session.Pending
import DebugLink.Session.State
import DebugLink.Settings
import DebugLink.Settings.Entry
import DebugLink.Settings.Token
import DebugLink.Snapshot
import DebugLink.Snapshot.FlatFile
import DebugLink.Snapshot.Keeper
import DebugLink.SourcePath
import DebugLink.Text.Blank
import DebugLink.Text.Decimal
import DebugLink.Text.Numeral
import DebugLink.Text.Quoted
import DebugLink.Text.Split
import DebugLink.Text.Unprinted
import DebugLink.Text.Utf8
import DebugLink.Watchpoint
import DebugLink.Wire.Buffer
import DebugLink.Wire.Codec
import DebugLink.Wire.Decoder
import DebugLink.Wire.Fault
import DebugLink.Wire.Pipe
import DebugLink.Wire.Reader
import DebugLink.Wire.Stream
import DebugLink.Wire.Writer
import DebugLink.Word
import DebugLink.Proofs.Session.Ending
import DebugLink.Proofs.Wire.Grammar
import DebugLink.Proofs.Wire.Limit
import DebugLink.Proofs.Json.RoundTrip
import DebugLink.Proofs.Text.Split
import DebugLink.Proofs.Message.Request
import DebugLink.Proofs.Json.Record
import DebugLink.Proofs.Message.Response
import DebugLink.Proofs.Registry.Record
import DebugLink.Proofs.Registry.Respelling
import DebugLink.Proofs.Registry.Hits
import DebugLink.Proofs.Registry.Watching
import DebugLink.Proofs.Registry.Operation
import DebugLink.Proofs.Registry.Conditions
import DebugLink.Proofs.Registry.Places
import DebugLink.Proofs.Session.Exit
import DebugLink.Proofs.Session.LastStop
import DebugLink.Proofs.Registry.Listing
import DebugLink.Proofs.Wire.Polling
import DebugLink.Proofs.Wire.Framed
import DebugLink.Proofs.Json.Layout
import DebugLink.Proofs.Snapshot.ReadBack
import DebugLink.Proofs.Snapshot.Restore
import DebugLink.Proofs.Session.Exceptions
import DebugLink.Proofs.Wire.Whole
import DebugLink.Proofs.Session.TornWrite
import DebugLink.Proofs.Registry.Incidents
import DebugLink.Proofs.Lines.Walk
import DebugLink.Proofs.Lines.Remembered
import DebugLink.Proofs.Snapshot.Merge
import DebugLink.Proofs.Registry.Refusals
import DebugLink.Proofs.Snapshot.Refused
import DebugLink.Proofs.Wire.Connection
import DebugLink.Proofs.Wire.Delivery
import DebugLink.Snapshot.Import
import DebugLink.Proofs.Snapshot.Lines
import DebugLink.Proofs.Snapshot.Import
import DebugLink.Proofs.Session.Request
import DebugLink.Proofs.Prompt.Turns
import DebugLink.Proofs.Prompt.Commands
