import TableModels.Code.Formatted
import TableModels.Code.Header
import TableModels.Code.Layout
import TableModels.Code.Plain
import TableModels.Code.Syntax
import TableModels.Code.Token
import TableModels.Code.TypeText
import TableModels.CommandLine.Arguments
import TableModels.CommandLine.Run
import TableModels.Digest.Sha256
import TableModels.Disk.Basic
import TableModels.Disk.Path
import TableModels.Document.Basic
import TableModels.Document.ColumnType
import TableModels.Document.Fetch
import TableModels.Document.Reader
import TableModels.Json.Printer
import TableModels.Json.Reader
import TableModels.Keyed
import TableModels.Log
import TableModels.Log.Color
import TableModels.Main
import TableModels.Model.Default
import TableModels.Model.Emit
import TableModels.Model.Field
import TableModels.Model.Manifest
import TableModels.Model.Relation
import TableModels.Model.Stepwise
import TableModels.Naming.Fresh
import TableModels.Naming.Identifier
import TableModels.Naming.Plural
import TableModels.Naming.Reserved
import TableModels.Naming.Words
import TableModels.Number.Binary64
import TableModels.Number.FloatText
import TableModels.Number.Shortest
import TableModels.Number.Whole
import TableModels.Proofs.Aliases
import TableModels.Proofs.Answers
import TableModels.Proofs.AtomicWrites
import TableModels.Proofs.CacheFiles
import TableModels.Proofs.CacheRefinement
import TableModels.Proofs.ColumnTypes
import TableModels.Proofs.Confinement
import TableModels.Proofs.Declarations
import TableModels.Proofs.Dependence
import TableModels.Proofs.Derivation
import TableModels.Proofs.Described
import TableModels.Proofs.DigestText
import TableModels.Proofs.Digests
import TableModels.Proofs.Disk
import TableModels.Proofs.DocText
import TableModels.Proofs.Documents
import TableModels.Proofs.Effects
import TableModels.Proofs.Execution
import TableModels.Proofs.Expansion
import TableModels.Proofs.Fallback
import TableModels.Proofs.FetchFailures
import TableModels.Proofs.FieldNames
import TableModels.Proofs.FieldOrder
import TableModels.Proofs.Files
import TableModels.Proofs.Footprint
import TableModels.Proofs.FreeNames
import TableModels.Proofs.HeaderText
import TableModels.Proofs.History
import TableModels.Proofs.Identifiers
import TableModels.Proofs.Incremental
import TableModels.Proofs.Inference
import TableModels.Proofs.JsonText
import TableModels.Proofs.Layout
import TableModels.Proofs.Legibility
import TableModels.Proofs.LowerCase
import TableModels.Proofs.ModuleText
import TableModels.Proofs.NumberText
import TableModels.Proofs.NumericDefaults
import TableModels.Proofs.Offline
import TableModels.Proofs.Overwriting
import TableModels.Proofs.Passes
import TableModels.Proofs.Payloads
import TableModels.Proofs.Persistence
import TableModels.Proofs.Placement
import TableModels.Proofs.Progress
import TableModels.Proofs.References
import TableModels.Proofs.RelationOverrides
import TableModels.Proofs.Removal
import TableModels.Proofs.Rendering
import TableModels.Proofs.Retry
import TableModels.Proofs.Rewriting
import TableModels.Proofs.Rounding
import TableModels.Proofs.SchemaText
import TableModels.Proofs.Scoping
import TableModels.Proofs.SharedNames
import TableModels.Proofs.ShortestDigits
import TableModels.Proofs.Skeleton
import TableModels.Proofs.SnakeCase
import TableModels.Proofs.Snapshot
import TableModels.Proofs.StatementText
import TableModels.Proofs.Steady
import TableModels.Proofs.Steps
import TableModels.Proofs.Stopped
import TableModels.Proofs.Stored
import TableModels.Proofs.Sync
import TableModels.Proofs.TextDefaults
import TableModels.Proofs.TokenText
import TableModels.Proofs.Trimming
import TableModels.Proofs.TypeTexts
import TableModels.Proofs.Unrendered
import TableModels.Proofs.UnsetValues
import TableModels.Proofs.Utf8
import TableModels.Report
import TableModels.Run.Cache
import TableModels.Run.Failure
import TableModels.Run.Files
import TableModels.Run.Load
import TableModels.Run.Sync
import TableModels.Run.World
import TableModels.Schema.Column
import TableModels.Schema.Digest
import TableModels.Schema.Inference
import TableModels.Schema.Snapshot
import TableModels.Schema.Stored
import TableModels.Schema.Table
import TableModels.Settings.Basic
import TableModels.Settings.FetchMode
import TableModels.Settings.Issue
import TableModels.Settings.Relations
import TableModels.Settings.Variables
import TableModels.Settings.VariablesFile
import TableModels.Text.Case
import TableModels.Text.CaseTable
import TableModels.Text.Class
import TableModels.Text.IdentifierTable
import TableModels.Text.PrintableTable
import TableModels.Text.Quoted
import TableModels.Text.Ranges
import TableModels.Text.Scan
import TableModels.Text.Utf8
import TableModels.Text.Width
import TableModels.Text.WidthTable
import TableModels.Text.WordTable
import TableModels.Typing.Catalog
import TableModels.Typing.Enums
import TableModels.Typing.FieldType
import TableModels.Typing.Import
import TableModels.Typing.SourceType
import TableModels.Value
import TableModels.Yaml.Block
import TableModels.Yaml.Cursor
import TableModels.Yaml.Node
import TableModels.Yaml.Plain
import TableModels.Yaml.Quoted
import TableModels.Yaml.Reader
import TableModels.Yaml.Scalar
import TableModels.Yaml.Timestamp
import TableModels.Yaml.Token
