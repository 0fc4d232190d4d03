import SymbolSearch.Bytes
import SymbolSearch.CommandLine.Arguments
import SymbolSearch.CommandLine.Report
import SymbolSearch.CommandLine.Run
import SymbolSearch.Config.Discovery
import SymbolSearch.Config.Format
import SymbolSearch.Config.LogFilter
import SymbolSearch.Config.Settings
import SymbolSearch.Decimal
import SymbolSearch.Digest
import SymbolSearch.Event
import SymbolSearch.Files
import SymbolSearch.Fingerprint
import SymbolSearch.Index.Cache
import SymbolSearch.Index.Codec
import SymbolSearch.Index.Find
import SymbolSearch.Index.Query
import SymbolSearch.Index.Resolve
import SymbolSearch.Index.Store
import SymbolSearch.Index.Table
import SymbolSearch.Index.Tree
import SymbolSearch.Inspection
import SymbolSearch.Job
import SymbolSearch.Json.Reader
import SymbolSearch.Json.Value
import SymbolSearch.Main
import SymbolSearch.Pattern.Distance
import SymbolSearch.Pattern.Humps
import SymbolSearch.Pattern.Score
import SymbolSearch.Project.Declaration
import SymbolSearch.Project.Format
import SymbolSearch.Project.Info
import SymbolSearch.Project.Load
import SymbolSearch.Project.Sample
import SymbolSearch.Project.Solution
import SymbolSearch.Search.Descriptor
import SymbolSearch.Search.Dispatch
import SymbolSearch.Search.Engine
import SymbolSearch.Search.Session
import SymbolSearch.Search.Worker
import SymbolSearch.Symbol.Filter
import SymbolSearch.Symbol.Key
import SymbolSearch.Symbol.Kind
import SymbolSearch.Text.Blank
import SymbolSearch.Text.CaseTable
import SymbolSearch.Text.Hidden
import SymbolSearch.Text.LowerCase
import SymbolSearch.Text.Quoted
import SymbolSearch.Text.Utf8
import SymbolSearch.Toml.Document
import SymbolSearch.Toml.Reader
import SymbolSearch.Toml.Value
import SymbolSearch.Wire.Codec
import SymbolSearch.Wire.Message
import SymbolSearch.Proofs.Forest.Places
import SymbolSearch.Proofs.Forest.Shape
import SymbolSearch.Proofs.Forest.Keys
import SymbolSearch.Proofs.Distinct
import SymbolSearch.Proofs.Merge.Effective
import SymbolSearch.Proofs.Merge.Level
import SymbolSearch.Proofs.Merge.Declarations
import SymbolSearch.Proofs.Merge.Built
import SymbolSearch.Proofs.Codec.Reader
import SymbolSearch.Proofs.Codec.Sound
import SymbolSearch.Proofs.Codec.RoundTrip
import SymbolSearch.Proofs.Resolution
import SymbolSearch.Proofs.Content
import SymbolSearch.Proofs.Cached
import SymbolSearch.Proofs.Search.Runs
import SymbolSearch.Proofs.Search.Found
import SymbolSearch.Proofs.Search.Described
import SymbolSearch.Proofs.Search.Answered
import SymbolSearch.Proofs.Search.Dispatched
import SymbolSearch.Proofs.Codec.Canonical
import SymbolSearch.Proofs.Table.Tree
import SymbolSearch.Proofs.Table.Names
import SymbolSearch.Proofs.Find.ByName
import SymbolSearch.Proofs.Table.Lookup
import SymbolSearch.Proofs.Table.Navigable
import SymbolSearch.Proofs.Find.ByPattern
import SymbolSearch.Proofs.Wire.Canonical
import SymbolSearch.Proofs.Identity
import SymbolSearch.Proofs.Cache.History
import SymbolSearch.Proofs.Cache.Queue
import SymbolSearch.Proofs.Table.Views
import SymbolSearch.Proofs.Merge.Sources
import SymbolSearch.Proofs.Find.SourceOnly
import SymbolSearch.Proofs.Cache.Invisible
import SymbolSearch.Proofs.Store.Files
import SymbolSearch.Proofs.Store.Names
import SymbolSearch.Proofs.Store.Aside
import SymbolSearch.Proofs.Store.Repaired
import SymbolSearch.Proofs.Search.Local
import SymbolSearch.Proofs.Search.Route
import SymbolSearch.Proofs.Search.Hosted
import SymbolSearch.Proofs.Checks
import SymbolSearch.Proofs.Codec.Extended
import SymbolSearch.Proofs.Solution.Edits
import SymbolSearch.Proofs.Solution.Snapshots
import SymbolSearch.Proofs.Search.Tally
import SymbolSearch.Proofs.Search.Traced
import SymbolSearch.Proofs.Search.Cancelled
import SymbolSearch.Proofs.Pattern.Spellings
import SymbolSearch.Proofs.Pattern.Alignments
import SymbolSearch.Proofs.Pattern.FilledTable
import SymbolSearch.Proofs.Pattern.Tiers
import SymbolSearch.Proofs.Pattern.Edits
import SymbolSearch.Proofs.Pattern.Distance
import SymbolSearch.Proofs.Pattern.Typos
import SymbolSearch.Proofs.Find.FullName
import SymbolSearch.Proofs.Find.LetterCase
import SymbolSearch.Proofs.Search.Batch
import SymbolSearch.Proofs.Wire.Faults
import SymbolSearch.Proofs.Search.Replied
import SymbolSearch.Proofs.Search.Served
import SymbolSearch.Proofs.Incremental
