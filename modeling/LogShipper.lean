import LogShipper.Agent.Filter
import LogShipper.Agent.Input
import LogShipper.Agent.Line
import LogShipper.Agent.Pattern
import LogShipper.Agent.Report
import LogShipper.Agent.Session
import LogShipper.Aggregator.History
import LogShipper.Aggregator.Intake
import LogShipper.Aggregator.Notice
import LogShipper.Aggregator.Progress
import LogShipper.Aggregator.Reporting
import LogShipper.Aggregator.Run
import LogShipper.Aggregator.Schedule
import LogShipper.Aggregator.Shipper
import LogShipper.Counting
import LogShipper.Destination
import LogShipper.Dictionary
import LogShipper.Event.Record
import LogShipper.Event.Sample
import LogShipper.Event.Structured
import LogShipper.Main
import LogShipper.Number.Binary64
import LogShipper.Number.Shortest
import LogShipper.Number.Word
import LogShipper.SampleQueue
import LogShipper.Series
import LogShipper.Settings.Basic
import LogShipper.Settings.Document
import LogShipper.Settings.Environment
import LogShipper.Settings.Validation
import LogShipper.Severity
import LogShipper.Table
import LogShipper.Text.Alphanumeric
import LogShipper.Text.Base64
import LogShipper.Text.Basic
import LogShipper.Text.Blank
import LogShipper.Text.Decimal
import LogShipper.Text.Extender
import LogShipper.Text.Graphic
import LogShipper.Text.Literal
import LogShipper.Text.Runs
import LogShipper.Text.Utf8
import LogShipper.Transport.Basic
import LogShipper.Transport.Datagram
import LogShipper.Transport.Network
import LogShipper.Transport.Packing
import LogShipper.Transport.Recorded
import LogShipper.Transport.Request
import LogShipper.Transport.Scripted
import LogShipper.Transport.Stream
import LogShipper.Trigger
import LogShipper.Url.Basic
import LogShipper.Url.Domain
import LogShipper.Url.Host
import LogShipper.Url.Percent
import LogShipper.Url.Punycode
import LogShipper.Url.Reading
import LogShipper.Url.Syntax
import LogShipper.Wire.Error
import LogShipper.Wire.Line
import LogShipper.Wire.Name
import LogShipper.Wire.Tag
import LogShipper.Wire.Value
import LogShipper.Proofs.Aggregator.History
import LogShipper.Proofs.Aggregator.Intake
import LogShipper.Proofs.Aggregator.Moves
import LogShipper.Proofs.Aggregator.Recording
import LogShipper.Proofs.Aggregator.Uses
import LogShipper.Proofs.Aggregator.Shutdown
import LogShipper.Proofs.Aggregator.Counts
import LogShipper.Proofs.Aggregator.Moments
import LogShipper.Proofs.Aggregator.Samples
import LogShipper.Proofs.Aggregator.Writes
import LogShipper.Proofs.Aggregator.Task
import LogShipper.Proofs.Aggregator.Spacing
import LogShipper.Proofs.Aggregator.Attention
import LogShipper.Proofs.Aggregator.Framing
import LogShipper.Proofs.Aggregator.Totals
import LogShipper.Proofs.Aggregator.Failures
import LogShipper.Proofs.Aggregator.Delay
import LogShipper.Proofs.Aggregator.Urgency
import LogShipper.Proofs.Aggregator.Budget
import LogShipper.Proofs.Wire.Decoding
import LogShipper.Proofs.Wire.Merging
import LogShipper.Proofs.Wire.RoundTrip
import LogShipper.Proofs.Wire.Uniqueness
import LogShipper.Proofs.Wire.Framing
import LogShipper.Proofs.Wire.Folding
import LogShipper.Proofs.Number.Rounding
import LogShipper.Proofs.Number.Exactness
import LogShipper.Proofs.Thinning
import LogShipper.Proofs.TriggerSet
import LogShipper.Proofs.ForwardedCount
import LogShipper.Proofs.Observers
import LogShipper.Proofs.Cycles
import LogShipper.Proofs.Transport.Connections
import LogShipper.Proofs.Transport.Packing
import LogShipper.Proofs.SampleQueue
import LogShipper.Proofs.Text.Literal
import LogShipper.Proofs.Text.Trimming
import LogShipper.Proofs.Aggregator.Lifecycle
import LogShipper.Proofs.Aggregator.Registration
import LogShipper.Proofs.Agent.Lines
import LogShipper.Proofs.Agent.Grammar
import LogShipper.Proofs.Aggregator.Completeness
import LogShipper.Proofs.Aggregator.Alike
import LogShipper.Proofs.Aggregator.Disclosure
import LogShipper.Proofs.Agent.Session
import LogShipper.Proofs.Url.Spelling
import LogShipper.Proofs.Url.Syntax
import LogShipper.Proofs.Url.Readers
import LogShipper.Proofs.Url.Reading
import LogShipper.Proofs.Destination.Reading
import LogShipper.Proofs.Destination.Credentials
import LogShipper.Proofs.Wire.Announcement
import LogShipper.Proofs.Aggregator.Acceptance
import LogShipper.Proofs.Text.Splitting
import LogShipper.Proofs.Settings.TagList
import LogShipper.Proofs.Wire.Naming
import LogShipper.Proofs.StackDepth
import LogShipper.Proofs.Looks
