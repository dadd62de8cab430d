import ChangeLedger.Audit.Drain
import ChangeLedger.Audit.FileTree
import ChangeLedger.Audit.Line
import ChangeLedger.Collections.SortedSet
import ChangeLedger.Failure.Cause
import ChangeLedger.Graph.Edge
import ChangeLedger.Graph.PropertyKey
import ChangeLedger.Graph.Schema
import ChangeLedger.Graph.Value
import ChangeLedger.Number.Layout
import ChangeLedger.Proofs.AuditCoverage
import ChangeLedger.Proofs.AuditTransparency
import ChangeLedger.Proofs.Cascades
import ChangeLedger.Proofs.CommitCounts
import ChangeLedger.Proofs.CommitProtocol
import ChangeLedger.Proofs.DeferredActions
import ChangeLedger.Proofs.DrainExactness
import ChangeLedger.Proofs.EdgeFolding
import ChangeLedger.Proofs.EdgePairs
import ChangeLedger.Proofs.FreshStart
import ChangeLedger.Proofs.History
import ChangeLedger.Proofs.HookCoverage
import ChangeLedger.Proofs.LogPaths
import ChangeLedger.Proofs.LogPlaces
import ChangeLedger.Proofs.LogReading
import ChangeLedger.Proofs.MapListing
import ChangeLedger.Proofs.NetDiffs
import ChangeLedger.Proofs.Openings
import ChangeLedger.Proofs.PhaseFailures
import ChangeLedger.Proofs.PhaseImages
import ChangeLedger.Proofs.PooledDrains
import ChangeLedger.Proofs.PropagationMarks
import ChangeLedger.Proofs.Readability
import ChangeLedger.Proofs.RecordNumbering
import ChangeLedger.Proofs.Reordering
import ChangeLedger.Proofs.Replay
import ChangeLedger.Proofs.ReportContents
import ChangeLedger.Proofs.SinkIndependence
import ChangeLedger.Proofs.SkippedValidation
import ChangeLedger.Proofs.StoredLogs
import ChangeLedger.Proofs.Summaries
import ChangeLedger.Proofs.SweepCap
import ChangeLedger.Proofs.SweepLoop
import ChangeLedger.Proofs.SweepSchedule
import ChangeLedger.Proofs.SyncKeys
import ChangeLedger.Proofs.Ticks
import ChangeLedger.Proofs.ValidationPrefix
import ChangeLedger.Proofs.VerbHistory
import ChangeLedger.Proofs.Verbs
import ChangeLedger.Scenario.Performance
import ChangeLedger.Settings.Config
import ChangeLedger.Settings.LogFilter
import ChangeLedger.Settings.Options
import ChangeLedger.Staging.Mutation
import ChangeLedger.Staging.Summary
import ChangeLedger.Text.Blank
import ChangeLedger.Text.JsonString
import ChangeLedger.Text.Quoted
import ChangeLedger.Toml.Document
import ChangeLedger.Transaction.Commit
import ChangeLedger.Transaction.Counters
import ChangeLedger.Transaction.Pool
