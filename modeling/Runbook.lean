import Runbook.Catalog
import Runbook.Catalog.Listing
import Runbook.ControlFile.Binding
import Runbook.ControlFile.Error
import Runbook.ControlFile.Literal
import Runbook.Decimal.Double
import Runbook.Decimal.Notation
import Runbook.Decimal.Reading
import Runbook.Decimal.Shortest
import Runbook.Group
import Runbook.Invocation
import Runbook.Library
import Runbook.Main
import Runbook.Matrix
import Runbook.NameIndex
import Runbook.Pipeline
import Runbook.Pipeline.Text
import Runbook.Program
import Runbook.Program.FileTree
import Runbook.Report.Digits
import Runbook.Report.Directive
import Runbook.Report.Event
import Runbook.Report.Filter
import Runbook.Report.Level
import Runbook.Report.Line
import Runbook.Report.Pattern
import Runbook.Report.Pattern.Bracket
import Runbook.Report.Pattern.Depth
import Runbook.Report.Pattern.Escape
import Runbook.Run.Action
import Runbook.Run.Execution
import Runbook.Run.Fault
import Runbook.Settings
import Runbook.Settings.Config
import Runbook.Settings.Entry
import Runbook.Settings.Path
import Runbook.Standard.Agenda
import Runbook.Standard.Arithmetic
import Runbook.Standard.Assignment
import Runbook.Standard.Grid
import Runbook.Standard.Printing
import Runbook.Standard.Sets
import Runbook.Text.Alphanumeric
import Runbook.Text.Blank
import Runbook.Text.Combining
import Runbook.Text.Hexadecimal
import Runbook.Text.Quoted
import Runbook.Text.Ranges
import Runbook.Text.Unassigned
import Runbook.Token
import Runbook.Token.Number
import Runbook.Token.Scan
import Runbook.Value
import Runbook.Value.Text
import Runbook.Workspace
import Runbook.Proofs.Decimal.Bits
import Runbook.Proofs.Decimal.Rounding
import Runbook.Proofs.Decimal.ReadBack
import Runbook.Proofs.Decimal.Nearest
import Runbook.Proofs.Decimal.Arithmetic
import Runbook.Proofs.Decimal.Correct
import Runbook.Proofs.Spelling.Digits
import Runbook.Proofs.Spelling.Numbers
import Runbook.Proofs.Spelling.Tokens
import Runbook.Proofs.Spelling.NumberGrammar
import Runbook.Proofs.Spelling.Joined
import Runbook.Proofs.Spelling.Lexemes
import Runbook.Proofs.Spelling.Positions
import Runbook.Proofs.Registry.Index
import Runbook.Proofs.Registry.WellFormed
import Runbook.Proofs.Registry.Standard
import Runbook.Proofs.Registry.Registration
import Runbook.Proofs.Registry.Refusal
import Runbook.Proofs.Grammar.Literals
import Runbook.Proofs.Grammar.Tasks
import Runbook.Proofs.Grammar.Phrases
import Runbook.Proofs.Grammar.Files
import Runbook.Proofs.Grammar.Places
import Runbook.Proofs.Grammar.Truncation
import Runbook.Proofs.Grammar.Positions
import Runbook.Proofs.Grammar.Joined
import Runbook.Proofs.Pipeline.Occurrence
import Runbook.Proofs.Roundtrip.Literals
import Runbook.Proofs.Roundtrip.Expressible
import Runbook.Proofs.Roundtrip.Display
import Runbook.Proofs.Run.History
import Runbook.Proofs.Run.Contract
import Runbook.Proofs.Standard.Footprint
import Runbook.Proofs.Standard.Confinement
import Runbook.Proofs.Run.Definedness
import Runbook.Proofs.Run.StaticCheck
import Runbook.Proofs.Matrix.Rows
import Runbook.Proofs.Matrix.Entries
import Runbook.Proofs.Typing.Coercion
import Runbook.Proofs.Typing.WellTyped
import Runbook.Proofs.Typing.Standard
import Runbook.Proofs.Pipeline.Lookups
import Runbook.Proofs.Pipeline.Bound
import Runbook.Proofs.Run.Bounds
import Runbook.Proofs.Run.Dependence
import Runbook.Proofs.Run.Blame
import Runbook.Proofs.Run.Machine
import Runbook.Proofs.Run.Orderly
import Runbook.Proofs.Run.DepthLimit
import Runbook.Proofs.Run.Nesting
import Runbook.Proofs.Run.Silence
import Runbook.Proofs.Standard.Termination
import Runbook.Proofs.Run.Growth
import Runbook.Proofs.Run.Numbering
import Runbook.Proofs.Run.Sequence
import Runbook.Proofs.Run.Inlining
import Runbook.Proofs.Standard.Progression
import Runbook.Proofs.Standard.Isolation
import Runbook.Proofs.Standard.Atomicity
import Runbook.Proofs.Standard.Storing
import Runbook.Proofs.Standard.Spacing
import Runbook.Proofs.Standard.Filling
import Runbook.Proofs.Settings.ReportPath
import Runbook.Proofs.Program.Elsewhere
import Runbook.Proofs.Program.Sources
