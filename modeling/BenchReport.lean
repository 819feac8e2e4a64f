import BenchReport.Action
import BenchReport.CommandLine.Arguments
import BenchReport.CommandLine.Run
import BenchReport.Counter
import BenchReport.Decimal.Layout
import BenchReport.Decimal.Shortest
import BenchReport.Engine
import BenchReport.Error
import BenchReport.Event
import BenchReport.Event.Body
import BenchReport.Event.Detail
import BenchReport.Event.Id
import BenchReport.Event.Observation
import BenchReport.Event.Timestamp
import BenchReport.Experiment.Plan
import BenchReport.Experiment.Report
import BenchReport.Files
import BenchReport.Grouped
import BenchReport.Json.Codec
import BenchReport.Json.Draft
import BenchReport.Json.Fault
import BenchReport.Json.Fields
import BenchReport.Json.Tagged
import BenchReport.Json.Token
import BenchReport.Json.Value
import BenchReport.Json.Write
import BenchReport.Main
import BenchReport.Metric.Action
import BenchReport.Metric.Custom
import BenchReport.Metric.Row
import BenchReport.Monitor
import BenchReport.Phase
import BenchReport.Pool
import BenchReport.Proofs.Acceptance
import BenchReport.Proofs.Action.Grammar
import BenchReport.Proofs.Action.Ordering
import BenchReport.Proofs.CommandLine.Rejection
import BenchReport.Proofs.Counters
import BenchReport.Proofs.Delivery.Appending
import BenchReport.Proofs.Delivery.Calls
import BenchReport.Proofs.Delivery.Categories
import BenchReport.Proofs.Delivery.Closing
import BenchReport.Proofs.Delivery.Interruptions
import BenchReport.Proofs.Delivery.Order
import BenchReport.Proofs.Delivery.Replacement
import BenchReport.Proofs.Event.Body
import BenchReport.Proofs.Event.Id
import BenchReport.Proofs.Event.Replay
import BenchReport.Proofs.Event.Rereading
import BenchReport.Proofs.ExcessShares
import BenchReport.Proofs.Experiments
import BenchReport.Proofs.Gathering
import BenchReport.Proofs.Json.Codecs
import BenchReport.Proofs.Json.Decoding
import BenchReport.Proofs.Json.Lines
import BenchReport.Proofs.Json.Numbers
import BenchReport.Proofs.Json.Numerals
import BenchReport.Proofs.Json.Rereading
import BenchReport.Proofs.Json.Scanning
import BenchReport.Proofs.Json.Schemas
import BenchReport.Proofs.Metric.Construction
import BenchReport.Proofs.Metric.Finite
import BenchReport.Proofs.Metric.Rereading
import BenchReport.Proofs.MonitorGroups
import BenchReport.Proofs.Monitors
import BenchReport.Proofs.Outcome
import BenchReport.Proofs.Overviews
import BenchReport.Proofs.Places
import BenchReport.Proofs.PoolSafety
import BenchReport.Proofs.Rates
import BenchReport.Proofs.Reconciliation
import BenchReport.Proofs.Regrouping
import BenchReport.Proofs.Session.ActionTags
import BenchReport.Proofs.Session.Admission
import BenchReport.Proofs.Session.Agreement
import BenchReport.Proofs.Session.Collecting
import BenchReport.Proofs.Session.Conservation
import BenchReport.Proofs.Session.Consistency
import BenchReport.Proofs.Session.Handover
import BenchReport.Proofs.Session.Levels
import BenchReport.Proofs.Session.Lifecycle
import BenchReport.Proofs.Session.Loading
import BenchReport.Proofs.Session.Overflows
import BenchReport.Proofs.Session.ReadOnly
import BenchReport.Proofs.Session.Routing
import BenchReport.Proofs.Session.StageHistory
import BenchReport.Proofs.Session.StageReport
import BenchReport.Proofs.Session.Stamping
import BenchReport.Proofs.Session.WorkerCounts
import BenchReport.Proofs.Session.WorkerOrder
import BenchReport.Proofs.StageTotals
import BenchReport.Proofs.Stats.DoubleNearest
import BenchReport.Proofs.Stats.DoubleOperations
import BenchReport.Proofs.Stats.DoubleOrder
import BenchReport.Proofs.Stats.DoubleRounding
import BenchReport.Proofs.Stats.DoubleValues
import BenchReport.Proofs.Stats.Exact
import BenchReport.Proofs.Stats.Extended
import BenchReport.Proofs.Stats.Hundredths
import BenchReport.Proofs.Stats.Interpolation
import BenchReport.Proofs.Stats.Ordered
import BenchReport.Proofs.Stats.Pooling
import BenchReport.Proofs.Stats.QuantileOrder
import BenchReport.Proofs.Stats.SketchAccuracy
import BenchReport.Proofs.Streams
import BenchReport.Proofs.TableBindings
import BenchReport.Proofs.Tags
import BenchReport.Proofs.Tally.Aggregation
import BenchReport.Proofs.Tally.Centre
import BenchReport.Proofs.Tally.Faithful
import BenchReport.Proofs.Tally.History
import BenchReport.Proofs.Tally.InPlace
import BenchReport.Proofs.Tally.Messages
import BenchReport.Proofs.Tally.Usage
import BenchReport.Proofs.Text.Base64
import BenchReport.Proofs.Text.Canonical
import BenchReport.Proofs.Text.Capitals
import BenchReport.Proofs.Text.Trimming
import BenchReport.Proofs.VariantShares
import BenchReport.Report.Address
import BenchReport.Report.Backend
import BenchReport.Report.Category
import BenchReport.Report.Delivery
import BenchReport.Report.Folder
import BenchReport.Report.Payload
import BenchReport.Report.Queue
import BenchReport.Report.Registry
import BenchReport.Scalar
import BenchReport.Session.Collect
import BenchReport.Session.Document
import BenchReport.Session.Source
import BenchReport.Session.StageTally
import BenchReport.Session.Stamp
import BenchReport.Settings
import BenchReport.Stage.Bins
import BenchReport.Stage.Overview
import BenchReport.Stats.Document
import BenchReport.Stats.Estimate
import BenchReport.Stats.Quantile
import BenchReport.Stats.Running
import BenchReport.Stats.Sketch
import BenchReport.Stats.Summary
import BenchReport.Stream.Overview
import BenchReport.Stream.Series
import BenchReport.Table
import BenchReport.Tag
import BenchReport.Tally
import BenchReport.Text.Base64
import BenchReport.Text.Blank
import BenchReport.Text.Quoted
import BenchReport.Text.Upper
import BenchReport.Toml.Document
import BenchReport.Toml.Scan
import BenchReport.Toml.Section
