import Assay.Advisory.Score
import Assay.Analyzer.Analysis
import Assay.Analyzer.Arguments
import Assay.Analyzer.Availability
import Assay.Analyzer.Basic
import Assay.Analyzer.CargoAudit
import Assay.Analyzer.Clang
import Assay.Analyzer.Clippy
import Assay.Analyzer.Gosec
import Assay.Analyzer.Lifecycle
import Assay.Analyzer.Mypy
import Assay.Analyzer.Toolchain
import Assay.Analyzer.Pylint
import Assay.Registry
import Assay.Registry.Tables
import Assay.Analyzer.Operands
import Assay.Analyzer.Staticcheck
import Assay.Analyzer.Valgrind
import Assay.Discover
import Assay.CommandLine.Arguments
import Assay.CommandLine.Request
import Assay.Configuration
import Assay.Correlate
import Assay.Datum
import Assay.Datum.Display
import Assay.Datum.Number
import Assay.Datum.Operand
import Assay.Decimal.Shortest
import Assay.Decimal.Numeral
import Assay.Decimal.Text
import Assay.Digest
import Assay.Draft.Assembly
import Assay.Draft.Basic
import Assay.Files.Guard
import Assay.Files.Listing
import Assay.Files.Path
import Assay.Files.Resolve
import Assay.Files.Snapshot
import Assay.Files.Sound
import Assay.Files.System
import Assay.Files.Tree
import Assay.Floors
import Assay.Issue
import Assay.Json.Grammar
import Assay.Json.Reader
import Assay.Json.Writer
import Assay.Labels
import Assay.Language
import Assay.Main
import Assay.Markup.Document
import Assay.Markup.DocumentType
import Assay.Markup.Element
import Assay.Markup.Mark
import Assay.Markup.Reference
import Assay.Markup.Token
import Assay.Moment
import Assay.Moment.Iso
import Assay.Normalize
import Assay.Options
import Assay.ProbeCache
import Assay.Problem
import Assay.Proofs.Acceptance
import Assay.Proofs.Analyzer.Analysis
import Assay.Proofs.Analyzer.Lifecycle
import Assay.Proofs.Analyzer.Rules
import Assay.Proofs.Candidates
import Assay.Proofs.Configuration
import Assay.Proofs.Correlate
import Assay.Proofs.Detection
import Assay.Proofs.Digest
import Assay.Proofs.Discover
import Assay.Proofs.Distinct
import Assay.Proofs.Draft
import Assay.Proofs.Emission
import Assay.Proofs.Entries
import Assay.Proofs.Files.Acyclic
import Assay.Proofs.Files.Check
import Assay.Proofs.Files.Content
import Assay.Proofs.Files.Follow
import Assay.Proofs.Files.Guard
import Assay.Proofs.Files.Listing
import Assay.Proofs.Files.Lookup
import Assay.Proofs.Files.Path
import Assay.Proofs.Files.Relative
import Assay.Proofs.Files.Resolve
import Assay.Proofs.Files.Root
import Assay.Proofs.Files.Visit
import Assay.Proofs.Files.Walk
import Assay.Proofs.Identifiers
import Assay.Proofs.Json.Grammar
import Assay.Proofs.Json.Reader
import Assay.Proofs.Keys
import Assay.Proofs.ModuleRoot
import Assay.Proofs.Normalize
import Assay.Proofs.Outcome
import Assay.Proofs.PropertyList
import Assay.Proofs.Readers.Clang
import Assay.Proofs.Readers.Code
import Assay.Proofs.Readers.Field
import Assay.Proofs.Readers.Harvest
import Assay.Proofs.Readers.Infinite
import Assay.Proofs.Readers.Lines
import Assay.Proofs.Readers.Records
import Assay.Proofs.Readers.Rules
import Assay.Proofs.Sandbox.Capture
import Assay.Proofs.Sandbox.Environment
import Assay.Proofs.Scan
import Assay.Proofs.Schedule
import Assay.Proofs.Survey
import Assay.Proofs.Totals
import Assay.Proofs.Text.Lines
import Assay.Proofs.Text.Split
import Assay.PropertyList
import Assay.Readers.CargoAudit
import Assay.Readers.Clang
import Assay.Readers.Clippy
import Assay.Readers.Code
import Assay.Readers.Field
import Assay.Readers.Gosec
import Assay.Readers.Harvest
import Assay.Readers.Mypy
import Assay.Readers.Output
import Assay.Readers.Pylint
import Assay.Readers.Staticcheck
import Assay.Readers.Valgrind
import Assay.Report
import Assay.Sandbox.Capture
import Assay.Sandbox.Policy
import Assay.Sandbox.Execution
import Assay.Sandbox.Lookup
import Assay.Sandbox.Runner
import Assay.Sandbox.Watch
import Assay.Scan
import Assay.Schedule
import Assay.Schema.Checked
import Assay.Schema.Issues
import Assay.Schema.Models
import Assay.Schema.Record
import Assay.Schema.Reports
import Assay.Schema.Scalar
import Assay.Schema.Settings
import Assay.Severity
import Assay.Sha256
import Assay.Shell.Action
import Assay.Shell.Arithmetic
import Assay.Shell.Expand
import Assay.Shell.Format
import Assay.Shell.Pattern
import Assay.Shell.Program
import Assay.Shell.Reader
import Assay.Shell.Run
import Assay.Shell.Script
import Assay.Shell.Utility
import Assay.Survey
import Assay.Text.Blank
import Assay.Text.Case
import Assay.Text.Classes
import Assay.Text.Split
import Assay.Text.Quoted
import Assay.Text.Utf8
import Assay.Toml.Document
import Assay.Toml.Key
import Assay.Toml.Nest
import Assay.Toml.Value
import Assay.Version
import Assay.Vocabulary
import Assay.Proofs.Analyzer.RuleFlags
import Assay.Proofs.Attribution
import Assay.Proofs.ProbeCache
import Assay.Proofs.Plan
import Assay.Proofs.Datum
import Assay.Proofs.Decimal.Text
import Assay.Proofs.Json.Limits
import Assay.Proofs.Json.Writer
import Assay.Proofs.Moment
import Assay.Proofs.Schema.Issues
import Assay.Proofs.Schema.Reports
import Assay.Proofs.Recognition
import Assay.Proofs.Sandbox.Policy
import Assay.Proofs.Analyzer.Arguments
import Assay.Proofs.Analyzer.Settings
import Assay.Proofs.Selection
import Assay.Proofs.Files.Decision
import Assay.Proofs.Analyzer.Sources
import Assay.Proofs.Readers.Valgrind
import Assay.Proofs.Filters
import Assay.Proofs.Floors
import Assay.Proofs.Readers.Join
import Assay.Proofs.Readers.Mypy
import Assay.Proofs.Advisory
import Assay.Proofs.Analyzer.History
import Assay.Proofs.PropertyList.Spelling
import Assay.Proofs.Schema.Settings
import Assay.Proofs.Readers.Clippy
import Assay.Proofs.Analyzer.Batches
import Assay.Proofs.Registry
import Assay.Proofs.Analyzer.Operands
