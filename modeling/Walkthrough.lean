import Walkthrough.Config.Basic
import Walkthrough.Config.Toml
import Walkthrough.Decimal.Natural
import Walkthrough.Decimal.Shortest
import Walkthrough.Document.Basic
import Walkthrough.Document.Encoding
import Walkthrough.Document.Line
import Walkthrough.Document.Printer
import Walkthrough.Document.Reader
import Walkthrough.Json.Fault
import Walkthrough.Json.Lexical
import Walkthrough.Json.Number
import Walkthrough.Json.Printer
import Walkthrough.Json.Reader
import Walkthrough.Json.Typed
import Walkthrough.Json.Value
import Walkthrough.Playback.Clock
import Walkthrough.Playback.Duration
import Walkthrough.Playback.Journal
import Walkthrough.Playback.Lifecycle
import Walkthrough.Playback.Machine
import Walkthrough.Playback.Routine
import Walkthrough.Playback.Stage
import Walkthrough.Playback.State
import Walkthrough.Proofs.Playback.Run
import Walkthrough.Proofs.Playback.Session
import Walkthrough.Proofs.Playback.Turn
import Walkthrough.Surface.Basic
import Walkthrough.Surface.Position
import Walkthrough.Text.Blank
import Walkthrough.Text.Cut
import Walkthrough.Text.Entity
import Walkthrough.Text.Newline
import Walkthrough.Text.Printable
import Walkthrough.Text.Quoted
import Walkthrough.Toml.Lexical
import Walkthrough.Toml.Printer
import Walkthrough.Toml.Reader
import Walkthrough.Toml.Value
import Walkthrough.Tooltip.Basic
import Walkthrough.Tooltip.Content
import Walkthrough.Tooltip.View
import Walkthrough.Proofs.Playback.Settled
import Walkthrough.Proofs.Playback.Orders
import Walkthrough.Proofs.Playback.Custody
import Walkthrough.Proofs.Document.Line
import Walkthrough.Proofs.Document.RoundTrip
import Walkthrough.Proofs.Document.Ending
import Walkthrough.Proofs.Document.Grammar
import Walkthrough.Proofs.Playback.History
import Walkthrough.Proofs.Playback.Replay
import Walkthrough.Proofs.Playback.Clock
import Walkthrough.Proofs.Playback.Elapse
import Walkthrough.Proofs.Playback.Return
import Walkthrough.Proofs.Playback.Span
import Walkthrough.Proofs.Playback.Record
import Walkthrough.Proofs.Playback.Timing
import Walkthrough.Proofs.Playback.Punctual
import Walkthrough.Proofs.Playback.Agreement
import Walkthrough.Proofs.Playback.Lock
import Walkthrough.Proofs.Playback.Protocol
import Walkthrough.Proofs.Document.Structured
import Walkthrough.Proofs.Tooltip.Leaving
import Walkthrough.Proofs.Document.Script
import Walkthrough.Proofs.Document.Sections
import Walkthrough.Proofs.Document.WellFormed
import Walkthrough.Proofs.Document.Embedding
import Walkthrough.Proofs.Document.Encoding
import Walkthrough.Proofs.Tooltip.Cursor
import Walkthrough.Proofs.Playback.Again
import Walkthrough.Proofs.Playback.Loading
import Walkthrough.Proofs.Tooltip.Controls
import Walkthrough.Proofs.Playback.Arrival
import Walkthrough.Proofs.Playback.Pausing
import Walkthrough.Proofs.Text.Decoding
import Walkthrough.Proofs.Playback.Flag
import Walkthrough.Proofs.Playback.Guise
import Walkthrough.Proofs.Playback.Discarding
import Walkthrough.Proofs.Playback.Together
import Walkthrough.Proofs.Document.Source
import Walkthrough.Proofs.Surface.Position
import Walkthrough.Proofs.Tooltip.Content
import Walkthrough.Proofs.Playback.Unlock
import Walkthrough.Proofs.Playback.Rounds
import Walkthrough.Proofs.Document.Breaks
import Walkthrough.Proofs.Config.Toml
