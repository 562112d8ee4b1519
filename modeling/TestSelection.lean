import TestSelection.Ascending
import TestSelection.Candidate
import TestSelection.Change.Basic
import TestSelection.Change.Layout
import TestSelection.Change.Places
import TestSelection.CommandLine.Basic
import TestSelection.CommandLine.Candidates
import TestSelection.CommandLine.Help
import TestSelection.CommandLine.Parse
import TestSelection.CommandLine.Run
import TestSelection.Decimal.Binary64
import TestSelection.Decimal.Shortest
import TestSelection.Decision
import TestSelection.Detection.Cache
import TestSelection.Detection.Concurrent
import TestSelection.Detection.Nested
import TestSelection.Detection.Outcome
import TestSelection.Detection.Parallel
import TestSelection.Detection.Registry
import TestSelection.Detection.Requests
import TestSelection.Detection.Selector
import TestSelection.Detection.Source
import TestSelection.Document.Fault
import TestSelection.Document.Json
import TestSelection.Document.Toml.Lines
import TestSelection.Document.Toml.Number
import TestSelection.Document.Toml.Table
import TestSelection.Document.Toml.Text
import TestSelection.Document.Toml.Value
import TestSelection.Document.Tree
import TestSelection.Document.Yaml.Cursor
import TestSelection.Document.Yaml.Kind
import TestSelection.Document.Yaml.Node
import TestSelection.Document.Yaml.Scalar
import TestSelection.Document.Yaml.Scanner
import TestSelection.Document.Yaml.Stream
import TestSelection.Document.Yaml.Token
import TestSelection.Failure
import TestSelection.FileSystem.Basic
import TestSelection.FileSystem.Fault
import TestSelection.FileSystem.Path
import TestSelection.Log
import TestSelection.Log.Filter
import TestSelection.Main
import TestSelection.Module.Description
import TestSelection.Module.Format
import TestSelection.Module.Graph
import TestSelection.Module.Package
import TestSelection.Module.Reachable
import TestSelection.Module.Stored
import TestSelection.Module.Traversal
import TestSelection.Proofs.AscendingListings
import TestSelection.Proofs.BlankChoices
import TestSelection.Proofs.BoundRuns
import TestSelection.Proofs.CacheDiaries
import TestSelection.Proofs.CacheSlots
import TestSelection.Proofs.CandidateTexts
import TestSelection.Proofs.ChangedSources
import TestSelection.Proofs.ColouredReports
import TestSelection.Proofs.CommitListings
import TestSelection.Proofs.ComparedRevision
import TestSelection.Proofs.ComparedTrees
import TestSelection.Proofs.ComparedVerdicts
import TestSelection.Proofs.Cuts
import TestSelection.Proofs.DeclarationOrder
import TestSelection.Proofs.DecodedReports
import TestSelection.Proofs.EncodedTexts
import TestSelection.Proofs.ExitCodes
import TestSelection.Proofs.FallibleSteps
import TestSelection.Proofs.GivenReasons
import TestSelection.Proofs.GraphDefects
import TestSelection.Proofs.GraphDescriptions
import TestSelection.Proofs.HeldFiles
import TestSelection.Proofs.JsonTexts
import TestSelection.Proofs.KeptValues
import TestSelection.Proofs.LinkFreeWalks
import TestSelection.Proofs.ListingDifferences
import TestSelection.Proofs.LocalRepositories
import TestSelection.Proofs.LongestBase
import TestSelection.Proofs.Lookups
import TestSelection.Proofs.MarkerPlaces
import TestSelection.Proofs.ModuleOwnership
import TestSelection.Proofs.MovedFiles
import TestSelection.Proofs.NamedCandidates
import TestSelection.Proofs.NearestSettings
import TestSelection.Proofs.NestedComputation
import TestSelection.Proofs.NestedSegments
import TestSelection.Proofs.Obstacles
import TestSelection.Proofs.PackageNesting
import TestSelection.Proofs.ParallelRuns
import TestSelection.Proofs.ParallelSelection
import TestSelection.Proofs.PathGrammar
import TestSelection.Proofs.Reachability
import TestSelection.Proofs.RecordFields
import TestSelection.Proofs.RefusedDeclarations
import TestSelection.Proofs.Registrations
import TestSelection.Proofs.ReportLines
import TestSelection.Proofs.ReportTexts
import TestSelection.Proofs.SegmentBases
import TestSelection.Proofs.Segments
import TestSelection.Proofs.SettingsAround
import TestSelection.Proofs.SettingsDocuments
import TestSelection.Proofs.SettingsFields
import TestSelection.Proofs.SharedComputation
import TestSelection.Proofs.SharedReach
import TestSelection.Proofs.SharedSlots
import TestSelection.Proofs.ShownPaths
import TestSelection.Proofs.SkippedTests
import TestSelection.Proofs.SourceRoots
import TestSelection.Proofs.StagedFiles
import TestSelection.Proofs.StatedTexts
import TestSelection.Proofs.StatusListings
import TestSelection.Proofs.TrackedBranch
import TestSelection.Proofs.Traversals
import TestSelection.Proofs.TreeTables
import TestSelection.Proofs.UncommittedFiles
import TestSelection.Proofs.UnitNames
import TestSelection.Proofs.UpwardPaths
import TestSelection.Proofs.WholeTables
import TestSelection.Proofs.WorkingFiles
import TestSelection.Report.Basic
import TestSelection.Report.Counted
import TestSelection.Report.Json
import TestSelection.Report.Selection
import TestSelection.Report.Styled
import TestSelection.Report.Terminal
import TestSelection.Report.Writing
import TestSelection.Repository.Attributes
import TestSelection.Repository.Basic
import TestSelection.Repository.Changes
import TestSelection.Repository.Comparison
import TestSelection.Repository.Compression
import TestSelection.Repository.Conversion
import TestSelection.Repository.Delta
import TestSelection.Repository.Digest
import TestSelection.Repository.Discovery
import TestSelection.Repository.Fault
import TestSelection.Repository.History
import TestSelection.Repository.Ignore
import TestSelection.Repository.Index
import TestSelection.Repository.Library
import TestSelection.Repository.Local
import TestSelection.Repository.Object
import TestSelection.Repository.ObjectId
import TestSelection.Repository.Options
import TestSelection.Repository.Pack
import TestSelection.Repository.Pattern
import TestSelection.Repository.Reference
import TestSelection.Repository.Revision
import TestSelection.Repository.Status
import TestSelection.Repository.Tracking
import TestSelection.Repository.Tree
import TestSelection.Repository.Wildcard
import TestSelection.Repository.Worktree
import TestSelection.Session
import TestSelection.Settings.Config
import TestSelection.Settings.Discovery
import TestSelection.Settings.Selection
import TestSelection.Settings.Stored
import TestSelection.Text.Blank
import TestSelection.Text.Concealed
import TestSelection.Text.Pieces
import TestSelection.Text.Quoted
import TestSelection.Text.Utf8
