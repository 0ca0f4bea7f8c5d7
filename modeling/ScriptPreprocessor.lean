import ScriptPreprocessor.Calendar.Format
import ScriptPreprocessor.Calendar.Instant
import ScriptPreprocessor.CommandLine.Arguments
import ScriptPreprocessor.CommandLine.Command
import ScriptPreprocessor.CommandLine.Execution
import ScriptPreprocessor.CommandLine.Grammar
import ScriptPreprocessor.CommandLine.Outcome
import ScriptPreprocessor.CommandLine.Report
import ScriptPreprocessor.CommandLine.Script
import ScriptPreprocessor.CompilerMessage
import ScriptPreprocessor.Condition.Defined
import ScriptPreprocessor.Condition.Evaluation
import ScriptPreprocessor.Condition.Operator
import ScriptPreprocessor.Condition.Token
import ScriptPreprocessor.Condition.Value
import ScriptPreprocessor.Configuration.Basic
import ScriptPreprocessor.Configuration.File
import ScriptPreprocessor.Configuration.Form
import ScriptPreprocessor.Configuration.Setting
import ScriptPreprocessor.Diagnostic.Basic
import ScriptPreprocessor.Diagnostic.Rendering
import ScriptPreprocessor.Directive.Line
import ScriptPreprocessor.Directive.Pragma
import ScriptPreprocessor.Document.Escape
import ScriptPreprocessor.Document.Form
import ScriptPreprocessor.Document.Legacy
import ScriptPreprocessor.Failure
import ScriptPreprocessor.FileTree
import ScriptPreprocessor.Include.Fetch
import ScriptPreprocessor.Include.FileSource
import ScriptPreprocessor.Include.Folder
import ScriptPreprocessor.Include.Path
import ScriptPreprocessor.Include.Request
import ScriptPreprocessor.Include.Sources
import ScriptPreprocessor.Include.Store
import ScriptPreprocessor.Include.Target
import ScriptPreprocessor.Json.Basic
import ScriptPreprocessor.Json.Reading
import ScriptPreprocessor.Json.Token
import ScriptPreprocessor.LineMap
import ScriptPreprocessor.LiveSession
import ScriptPreprocessor.Macro.Call
import ScriptPreprocessor.Macro.Environment
import ScriptPreprocessor.Macro.Expansion
import ScriptPreprocessor.Macro.Piece
import ScriptPreprocessor.Macro.Table
import ScriptPreprocessor.Main
import ScriptPreprocessor.Number.Binary64
import ScriptPreprocessor.Number.Decimal
import ScriptPreprocessor.Proofs.Document.Escaping
import ScriptPreprocessor.Proofs.Document.Including
import ScriptPreprocessor.Proofs.Document.Loading
import ScriptPreprocessor.Proofs.Document.Saving
import ScriptPreprocessor.Proofs.Document.Stripping
import ScriptPreprocessor.Proofs.Include.Library
import ScriptPreprocessor.Proofs.Macro.Breaks
import ScriptPreprocessor.Proofs.Macro.Columns
import ScriptPreprocessor.Proofs.Macro.Segments
import ScriptPreprocessor.Proofs.Run.Alignment
import ScriptPreprocessor.Proofs.Run.Course
import ScriptPreprocessor.Proofs.Run.Effects
import ScriptPreprocessor.Proofs.Run.Units
import ScriptPreprocessor.Proofs.Session.Calls
import ScriptPreprocessor.Proofs.Session.Coherence
import ScriptPreprocessor.Proofs.Session.Ending
import ScriptPreprocessor.Proofs.Session.History
import ScriptPreprocessor.Proofs.Session.Lines
import ScriptPreprocessor.Proofs.Session.EntrySearch
import ScriptPreprocessor.Proofs.Session.Positions
import ScriptPreprocessor.Proofs.Session.Saving
import ScriptPreprocessor.Proofs.Session.Schedules
import ScriptPreprocessor.Proofs.Session.Shortcut
import ScriptPreprocessor.Proofs.Text.Lines
import ScriptPreprocessor.Proofs.Text.Parts
import ScriptPreprocessor.Proofs.Text.Search
import ScriptPreprocessor.Run.Block
import ScriptPreprocessor.Run.Frame
import ScriptPreprocessor.Run.Line
import ScriptPreprocessor.Run.Preprocessor
import ScriptPreprocessor.Run.Problem
import ScriptPreprocessor.Run.Targets
import ScriptPreprocessor.Session
import ScriptPreprocessor.SourceUnit
import ScriptPreprocessor.Text.Basic
import ScriptPreprocessor.Text.Blank
import ScriptPreprocessor.Text.Lines
import ScriptPreprocessor.Text.Names
import ScriptPreprocessor.Text.Search
import ScriptPreprocessor.Text.Utf8
import ScriptPreprocessor.Text.Word
import ScriptPreprocessor.Text.WordClass
import ScriptPreprocessor.Toml.Basic
import ScriptPreprocessor.Toml.Quoted
import ScriptPreprocessor.Toml.Reading
import ScriptPreprocessor.Toml.Scalar
import ScriptPreprocessor.Toml.Tree
import ScriptPreprocessor.Proofs.Run.Passage
import ScriptPreprocessor.Proofs.Run.BlockTree
import ScriptPreprocessor.Proofs.Run.BlockReading
import ScriptPreprocessor.Proofs.Run.Splices
import ScriptPreprocessor.Proofs.Session.Editor
import ScriptPreprocessor.Proofs.Macro.Origins
import ScriptPreprocessor.Proofs.Condition.Tests
import ScriptPreprocessor.Proofs.Run.Inlining
import ScriptPreprocessor.Proofs.Run.Surroundings
import ScriptPreprocessor.Proofs.Run.InlinedRuns
import ScriptPreprocessor.Proofs.Include.Places
import ScriptPreprocessor.Proofs.Macro.Endings
import ScriptPreprocessor.Proofs.Run.Returns
import ScriptPreprocessor.Proofs.Session.Reports
import ScriptPreprocessor.Proofs.Session.SplicedUnits
import ScriptPreprocessor.Proofs.Text.Returns
import ScriptPreprocessor.Proofs.Macro.Spans
import ScriptPreprocessor.Proofs.Document.Resaving
import ScriptPreprocessor.Proofs.Run.Verbatim
import ScriptPreprocessor.Proofs.Run.Conversation
import ScriptPreprocessor.Proofs.Run.FailedIncludes
import ScriptPreprocessor.Proofs.Macro.Answers
import ScriptPreprocessor.Proofs.Macro.Edits
import ScriptPreprocessor.Proofs.Macro.Pieces
import ScriptPreprocessor.Proofs.Macro.LineFeeds
import ScriptPreprocessor.Proofs.Macro.Cycles
import ScriptPreprocessor.Proofs.Macro.Rescanning
import ScriptPreprocessor.Proofs.Text.ByteColumns
import ScriptPreprocessor.Proofs.Text.LineRanges
import ScriptPreprocessor.Proofs.Macro.ByteReaders
import ScriptPreprocessor.Proofs.Macro.ByteScan
import ScriptPreprocessor.Proofs.Macro.Arguments
import ScriptPreprocessor.Proofs.Condition.Arithmetic
import ScriptPreprocessor.Proofs.Condition.Lexemes
import ScriptPreprocessor.Proofs.Condition.Literals
import ScriptPreprocessor.Proofs.Condition.Acceptance
import ScriptPreprocessor.Proofs.Condition.Connectives
import ScriptPreprocessor.Proofs.Condition.TestPieces
import ScriptPreprocessor.Proofs.Condition.WholeTests
import ScriptPreprocessor.Proofs.Text.Entries
import ScriptPreprocessor.Proofs.Macro.Bindings
import ScriptPreprocessor.Proofs.Document.Barring
import ScriptPreprocessor.Proofs.Include.Walks
import ScriptPreprocessor.Proofs.Include.Items
import ScriptPreprocessor.Proofs.Include.NameChecks
import ScriptPreprocessor.Proofs.Run.Openings
import ScriptPreprocessor.Proofs.Include.Directories
import ScriptPreprocessor.Proofs.Include.Precedence
import ScriptPreprocessor.Proofs.Include.Nesting
import ScriptPreprocessor.Proofs.Session.Recording
import ScriptPreprocessor.Proofs.Session.Untouched
