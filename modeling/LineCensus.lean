import LineCensus.Analysis
import LineCensus.Calendar
import LineCensus.Command.Analyze
import LineCensus.Command.Arguments
import LineCensus.Command.Options
import LineCensus.Command.Outcome
import LineCensus.Command.Run
import LineCensus.Command.Usage
import LineCensus.Config
import LineCensus.Extensions
import LineCensus.Failure
import LineCensus.Ignore
import LineCensus.Json.Basic
import LineCensus.Json.Parser
import LineCensus.Json.Printer
import LineCensus.Keyed
import LineCensus.Language.Builtin
import LineCensus.Language.CommentLines
import LineCensus.Language.Registry
import LineCensus.Log
import LineCensus.Main
import LineCensus.Markdown
import LineCensus.Numeric.Binary64
import LineCensus.Numeric.Decimal
import LineCensus.Numeric.Notation
import LineCensus.Paint
import LineCensus.Path
import LineCensus.Report.Console
import LineCensus.Report.Document
import LineCensus.Report.Extensions
import LineCensus.Report.Figures
import LineCensus.Report.TreeDrawing
import LineCensus.Scan
import LineCensus.Script.Analysis
import LineCensus.Script.Comments
import LineCensus.Script.Directives
import LineCensus.Script.Fault
import LineCensus.Script.Grammar.Basic
import LineCensus.Script.Grammar.Classes
import LineCensus.Script.Grammar.Expressions
import LineCensus.Script.Grammar.Lists
import LineCensus.Script.Grammar.Markup
import LineCensus.Script.Grammar.Modules
import LineCensus.Script.Grammar.Names
import LineCensus.Script.Grammar.Signatures
import LineCensus.Script.Grammar.SourceFile
import LineCensus.Script.Grammar.Starts
import LineCensus.Script.Grammar.Statements
import LineCensus.Script.Grammar.Types
import LineCensus.Script.Identifier
import LineCensus.Script.IdentifierTable
import LineCensus.Script.Kind
import LineCensus.Script.Lexeme
import LineCensus.Script.Source
import LineCensus.Script.Structure
import LineCensus.Script.Token
import LineCensus.Script.Tree
import LineCensus.Script.Trivia
import LineCensus.Script.Untyped
import LineCensus.Stats.Count
import LineCensus.Stats.Directory
import LineCensus.Stats.File
import LineCensus.Store
import LineCensus.Store.Change
import LineCensus.Text.Blank
import LineCensus.Text.Casing
import LineCensus.Text.CasingTable
import LineCensus.Text.Collation
import LineCensus.Text.CollationTable
import LineCensus.Text.Distance
import LineCensus.Text.Find
import LineCensus.Text.Lines
import LineCensus.Text.Ranges
import LineCensus.Text.Units
import LineCensus.Text.Utf8
import LineCensus.Proofs.Apart
import LineCensus.Proofs.Breakdown
import LineCensus.Proofs.Casing
import LineCensus.Proofs.Census
import LineCensus.Proofs.CleanFigures
import LineCensus.Proofs.Codes
import LineCensus.Proofs.CollectedNames
import LineCensus.Proofs.Colours
import LineCensus.Proofs.CommentLines
import LineCensus.Proofs.Comments
import LineCensus.Proofs.Configuration
import LineCensus.Proofs.Counting
import LineCensus.Proofs.Decoding
import LineCensus.Proofs.Determined
import LineCensus.Proofs.Dividers
import LineCensus.Proofs.Documents
import LineCensus.Proofs.DrawnTrees
import LineCensus.Proofs.Edits
import LineCensus.Proofs.Exactness
import LineCensus.Proofs.ExtensionRows
import LineCensus.Proofs.FaultIsolation
import LineCensus.Proofs.Figures
import LineCensus.Proofs.Following
import LineCensus.Proofs.IgnoreNames
import LineCensus.Proofs.Interchange
import LineCensus.Proofs.Intervals
import LineCensus.Proofs.Items
import LineCensus.Proofs.JsonRun
import LineCensus.Proofs.JsonText
import LineCensus.Proofs.Keyed
import LineCensus.Proofs.Labels
import LineCensus.Proofs.LineStarts
import LineCensus.Proofs.LineTotal
import LineCensus.Proofs.Lines
import LineCensus.Proofs.ListingOrder
import LineCensus.Proofs.ModuleDocs
import LineCensus.Proofs.NameOrder
import LineCensus.Proofs.Nodes
import LineCensus.Proofs.NumberText
import LineCensus.Proofs.Numerals
import LineCensus.Proofs.Path
import LineCensus.Proofs.Patterns
import LineCensus.Proofs.Places
import LineCensus.Proofs.References
import LineCensus.Proofs.Regions
import LineCensus.Proofs.Reordering
import LineCensus.Proofs.Restriction
import LineCensus.Proofs.RootFaults
import LineCensus.Proofs.Rounding
import LineCensus.Proofs.Sections
import LineCensus.Proofs.Selection
import LineCensus.Proofs.Shortest
import LineCensus.Proofs.SizeOrder
import LineCensus.Proofs.Sorting
import LineCensus.Proofs.Subprojects
import LineCensus.Proofs.TextOrder
import LineCensus.Proofs.Totals
import LineCensus.Proofs.Trimming
import LineCensus.Proofs.Walk
import LineCensus.Proofs.Warnings
import LineCensus.Proofs.WholeCounts
import LineCensus.Proofs.WrittenLines
