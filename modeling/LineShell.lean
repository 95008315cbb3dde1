import LineShell.Character
import LineShell.CommandLine
import LineShell.Delimiters
import LineShell.Entry
import LineShell.Environment
import LineShell.Error
import LineShell.Evaluation
import LineShell.Lexeme
import LineShell.Literal.Fault
import LineShell.Literal.Lexer
import LineShell.Literal.Parser
import LineShell.Literal.Token
import LineShell.Machine
import LineShell.Main
import LineShell.NameMap
import LineShell.Number.Decimal
import LineShell.Number.Double
import LineShell.Number.Layout
import LineShell.Number.Numeral
import LineShell.Number.Shortest
import LineShell.Operator
import LineShell.Pending
import LineShell.Proofs.Assignment
import LineShell.Proofs.Balance
import LineShell.Proofs.Blanks
import LineShell.Proofs.Capture
import LineShell.Proofs.Coherence
import LineShell.Proofs.Collecting
import LineShell.Proofs.Coverage
import LineShell.Proofs.DecimalPoint
import LineShell.Proofs.Decision
import LineShell.Proofs.DottedPath
import LineShell.Proofs.Effects
import LineShell.Proofs.Enclosure
import LineShell.Proofs.ErrorPositions
import LineShell.Proofs.Grounding
import LineShell.Proofs.LastWriter
import LineShell.Proofs.LexemeOrder
import LineShell.Proofs.LexemeShape
import LineShell.Proofs.LiteralDenotation
import LineShell.Proofs.LiteralGrammar
import LineShell.Proofs.LiteralParsing
import LineShell.Proofs.LiteralReading
import LineShell.Proofs.LiteralSyntax
import LineShell.Proofs.LongestToken
import LineShell.Proofs.Losslessness
import LineShell.Proofs.MemberLookup
import LineShell.Proofs.NameLookup
import LineShell.Proofs.NameOrder
import LineShell.Proofs.NestedLiteral
import LineShell.Proofs.Nesting
import LineShell.Proofs.NormalForm
import LineShell.Proofs.NumberPatterns
import LineShell.Proofs.NumberReaders
import LineShell.Proofs.NumeralReading
import LineShell.Proofs.Offsets
import LineShell.Proofs.OpenDelimiters
import LineShell.Proofs.OperatorRuns
import LineShell.Proofs.Pushing
import LineShell.Proofs.QuotedText
import LineShell.Proofs.Quoting
import LineShell.Proofs.Reduction
import LineShell.Proofs.Relocation
import LineShell.Proofs.Rendering
import LineShell.Proofs.RoundTrip
import LineShell.Proofs.ScanFailure
import LineShell.Proofs.ScanStates
import LineShell.Proofs.Script
import LineShell.Proofs.ScriptLines
import LineShell.Proofs.Simulation
import LineShell.Proofs.Spelling
import LineShell.Proofs.Splitting
import LineShell.Proofs.StringLiteral
import LineShell.Proofs.TokenBreaks
import LineShell.Proofs.TokenPatterns
import LineShell.Proofs.TokenSpacing
import LineShell.Proofs.Trace
import LineShell.Proofs.UncalledTuple
import LineShell.Proofs.ValueNames
import LineShell.Proofs.Wording
import LineShell.Reducer
import LineShell.Scanner
import LineShell.Session
import LineShell.Text.Blank
import LineShell.Text.Escape
import LineShell.Text.Extending
import LineShell.Text.Quoted
import LineShell.Text.Ranges
import LineShell.Text.Unprintable
import LineShell.Token
import LineShell.Value.Basic
import LineShell.Value.Printer
