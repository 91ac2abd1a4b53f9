import RetailReport.Amount.Basic
import RetailReport.Amount.Text
import RetailReport.Binary64
import RetailReport.Cache.Basic
import RetailReport.Cache.Bloom
import RetailReport.Cache.Call
import RetailReport.Cache.Program
import RetailReport.Cache.Wire
import RetailReport.Calendar.Date
import RetailReport.Calendar.Reader
import RetailReport.Calendar.Timestamp
import RetailReport.Config.Basic
import RetailReport.Config.Fault
import RetailReport.Config.Reader
import RetailReport.Digest.Crc32
import RetailReport.Digest.SipHash
import RetailReport.Fact.Record
import RetailReport.Fact.Store
import RetailReport.Fact.Wire
import RetailReport.Json.Basic
import RetailReport.Json.Decode
import RetailReport.Json.Encode
import RetailReport.Json.Number
import RetailReport.Json.Reader
import RetailReport.Json.Writer
import RetailReport.KeyOrder
import RetailReport.Partition.Folder
import RetailReport.Partition.Manifest
import RetailReport.Partition.Migration
import RetailReport.Partition.Path
import RetailReport.Partition.Store
import RetailReport.Partition.Table
import RetailReport.Partition.Wire
import RetailReport.Proofs.Amount.Reading
import RetailReport.Proofs.Amount.Spelling
import RetailReport.Proofs.Cache.Accounting
import RetailReport.Proofs.Cache.Announcements
import RetailReport.Proofs.Cache.Epochs
import RetailReport.Proofs.Cache.Slices
import RetailReport.Proofs.Cache.Transparency
import RetailReport.Proofs.Calendar.Numbered
import RetailReport.Proofs.Calendar.Reading
import RetailReport.Proofs.Calendar.TextOrder
import RetailReport.Proofs.Calendar.Written
import RetailReport.Proofs.Fact.Admission
import RetailReport.Proofs.Fact.Consistency
import RetailReport.Proofs.Fact.History
import RetailReport.Proofs.Json.Decoding
import RetailReport.Proofs.Json.Reading
import RetailReport.Proofs.Outcomes
import RetailReport.Proofs.Partition.Calls
import RetailReport.Proofs.Partition.ContentHash
import RetailReport.Proofs.Partition.FileName
import RetailReport.Proofs.Partition.Folder
import RetailReport.Proofs.Partition.Following
import RetailReport.Proofs.Partition.History
import RetailReport.Proofs.Partition.Inventory
import RetailReport.Proofs.Partition.Layout
import RetailReport.Proofs.Partition.Migration
import RetailReport.Proofs.Partition.Mirror
import RetailReport.Proofs.Partition.PlainPath
import RetailReport.Proofs.Partition.Reading
import RetailReport.Proofs.Partition.Refresh
import RetailReport.Proofs.Partition.Repeating
import RetailReport.Proofs.Partition.Restart
import RetailReport.Proofs.Partition.RoundTrip
import RetailReport.Proofs.Partition.Saving
import RetailReport.Proofs.Partition.Settled
import RetailReport.Proofs.Partition.Store
import RetailReport.Proofs.Partition.Table
import RetailReport.Proofs.Partition.Tidy
import RetailReport.Proofs.Partition.Unfailing
import RetailReport.Proofs.Query.DayRange
import RetailReport.Proofs.Query.Differences
import RetailReport.Proofs.Query.Engines
import RetailReport.Proofs.Query.PartitionAnswer
import RetailReport.Proofs.Query.Refusals
import RetailReport.Proofs.Query.RollupAnswer
import RetailReport.Proofs.Query.Routing
import RetailReport.Proofs.Query.RowFilter
import RetailReport.Proofs.Rollup.Closure
import RetailReport.Proofs.Rollup.Coarser
import RetailReport.Proofs.Rollup.Compile
import RetailReport.Proofs.Rollup.Dependencies
import RetailReport.Proofs.Rollup.Derived
import RetailReport.Proofs.Rollup.Failures
import RetailReport.Proofs.Rollup.FeedOrder
import RetailReport.Proofs.Rollup.Independence
import RetailReport.Proofs.Rollup.Kernel
import RetailReport.Proofs.Rollup.Measures
import RetailReport.Proofs.Rollup.Projection
import RetailReport.Proofs.Rollup.Regroup
import RetailReport.Proofs.Rollup.Slices
import RetailReport.Proofs.Rollup.Unread
import RetailReport.Proofs.Rollup.Worth
import RetailReport.Proofs.Service.Purges
import RetailReport.Proofs.Service.Runs
import RetailReport.Proofs.Service.Writes
import RetailReport.Proofs.SortedMap
import RetailReport.Proofs.Sync.Alone
import RetailReport.Proofs.Sync.Coverage
import RetailReport.Proofs.Sync.FullRebuild
import RetailReport.Proofs.Sync.History
import RetailReport.Proofs.Sync.Idleness
import RetailReport.Proofs.Sync.Interleaved
import RetailReport.Proofs.Sync.Ledger
import RetailReport.Proofs.Sync.Listeners
import RetailReport.Proofs.Sync.Notices
import RetailReport.Proofs.Sync.Order
import RetailReport.Proofs.Sync.Overlap
import RetailReport.Proofs.Sync.Pool
import RetailReport.Proofs.Sync.Rebuild
import RetailReport.Proofs.Sync.Rebuilder
import RetailReport.Proofs.Sync.Retries
import RetailReport.Proofs.Sync.Steps
import RetailReport.Proofs.Sync.Tracing
import RetailReport.Query.Answer
import RetailReport.Query.Difference
import RetailReport.Query.Failure
import RetailReport.Query.Request
import RetailReport.Query.Router
import RetailReport.Query.Validity
import RetailReport.Query.Wire
import RetailReport.Rollup.Compile
import RetailReport.Rollup.Formula
import RetailReport.Rollup.Kernel
import RetailReport.Rollup.Metric
import RetailReport.Rollup.Plan
import RetailReport.Rollup.Regroup
import RetailReport.Rollup.Schema
import RetailReport.Rollup.Store
import RetailReport.Rollup.Wire
import RetailReport.Service.Basic
import RetailReport.Service.Http
import RetailReport.SortedMap
import RetailReport.Sync.Call
import RetailReport.Sync.Report
import RetailReport.Sync.Synchronizer
import RetailReport.Sync.Wire
import RetailReport.Sync.Workers
import RetailReport.Text.Blank
import RetailReport.Text.Digits
import RetailReport.Text.Hidden
import RetailReport.Text.Percent
import RetailReport.Text.Quoted
import RetailReport.Toml.Basic
import RetailReport.Toml.Number
import RetailReport.Toml.Reader
import RetailReport.Toml.Text
