import SymbolNav.Main
import SymbolNav.Run.Schedule
import SymbolNav.Session.Sequence
import SymbolNav.Text.LowerCase
import SymbolNav.Watch.Loop
import SymbolNav.Json.Reader
import SymbolNav.Proofs.Run.Step
import SymbolNav.Proofs.Run.Ledger
import SymbolNav.Proofs.Run.Reference
import SymbolNav.Engine.Course
import SymbolNav.Proofs.Engine.Course
import SymbolNav.Proofs.Engine.Answers
import SymbolNav.Proofs.Engine.Supersession
import SymbolNav.Proofs.Session.Part
import SymbolNav.Proofs.Session.Tickets
import SymbolNav.Proofs.Session.Watching
import SymbolNav.Proofs.Run.Settle
import SymbolNav.Proofs.Hit.Grammar
import SymbolNav.Proofs.Text.Utf8
import SymbolNav.Proofs.Hit.Streaming
import SymbolNav.Proofs.Text.Encode
import SymbolNav.Proofs.Toml.Values
import SymbolNav.Proofs.Config.Saved
import SymbolNav.Proofs.Resolve.Callee
import SymbolNav.Proofs.Engine.Lifecycle
import SymbolNav.Proofs.Item.Order
import SymbolNav.Proofs.Run.Orders
import SymbolNav.Proofs.Engine.Orders
import SymbolNav.Proofs.Engine.Renumbered
import SymbolNav.Proofs.Session.Alike
import SymbolNav.Proofs.Session.Erasure
import SymbolNav.Proofs.Session.Lookups
import SymbolNav.Proofs.Session.Interference
import SymbolNav.Proofs.Session.Openings
import SymbolNav.Proofs.Session.Notices
import SymbolNav.Proofs.Session.Switching
import SymbolNav.Proofs.Engine.Permits
import SymbolNav.Proofs.Text.Boundary
import SymbolNav.Proofs.Resolve.Span
import SymbolNav.Proofs.Resolve.Lines
import SymbolNav.Proofs.Path.Components
import SymbolNav.Proofs.Path.Relative
import SymbolNav.Proofs.Presentation.Grouping
import SymbolNav.Proofs.Presentation.Modes
import SymbolNav.Proofs.Session.WayBack
import SymbolNav.Proofs.Config.Contained
import SymbolNav.Proofs.Config.Partial
import SymbolNav.Proofs.Watch.Loop
import SymbolNav.Proofs.Watch.Filter
import SymbolNav.Proofs.Process.Agreement
import SymbolNav.Proofs.Config.Repair
import SymbolNav.Proofs.Text.Decimal
import SymbolNav.Proofs.Path.Spelling
import SymbolNav.Proofs.Presentation.Spellings
import SymbolNav.Proofs.Presentation.Places
import SymbolNav.Proofs.Presentation.PlainText
import SymbolNav.Proofs.Files.Joined
import SymbolNav.Proofs.Engine.Freshness
import SymbolNav.Proofs.Engine.Semaphore
import SymbolNav.Proofs.Json.RoundTrip
import SymbolNav.Proofs.CommandLine.Anywhere
