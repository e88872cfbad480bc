import Scriptlet.Batch
import Scriptlet.Grammar.Derivation
import Scriptlet.Grammar.Terminal
import Scriptlet.Program
import Scriptlet.Proofs.Lexeme.Chain
import Scriptlet.Proofs.Lexeme.Origin
import Scriptlet.Proofs.Piece.Basic
import Scriptlet.Proofs.Piece.Boundaries
import Scriptlet.Proofs.Piece.Echoes
import Scriptlet.Proofs.Piece.Faults
import Scriptlet.Proofs.Piece.Grouping
import Scriptlet.Proofs.Piece.Item
import Scriptlet.Proofs.Piece.Lexed
import Scriptlet.Proofs.Piece.LineFeed
import Scriptlet.Proofs.Piece.Places
import Scriptlet.Proofs.Piece.Reading
import Scriptlet.Proofs.Piece.Recovery
import Scriptlet.Proofs.Piece.Slice
import Scriptlet.Proofs.Program.Acceptance
import Scriptlet.Proofs.Program.Balance
import Scriptlet.Proofs.Program.LineFeed
import Scriptlet.Proofs.Program.Longest
import Scriptlet.Proofs.Program.Rendering
import Scriptlet.Proofs.Program.Visits
import Scriptlet.Proofs.Recognition.Exact
import Scriptlet.Proofs.Recognition.Failure
import Scriptlet.Proofs.Recognition.Greedy
import Scriptlet.Proofs.Recognition.Language
import Scriptlet.Proofs.Recognition.Once
import Scriptlet.Proofs.Recognition.Outcome
import Scriptlet.Proofs.Recognition.Takes
import Scriptlet.Proofs.Recognition.Trace
import Scriptlet.Proofs.Recognition.Visits
import Scriptlet.Proofs.RewindLog.Ledger
import Scriptlet.Proofs.RewindLog.Order
import Scriptlet.Proofs.Rule.Applies
import Scriptlet.Proofs.Rule.Beginnings
import Scriptlet.Proofs.Rule.Cuts
import Scriptlet.Proofs.Rule.Decimal
import Scriptlet.Proofs.Rule.Extent
import Scriptlet.Proofs.Rule.Nesting
import Scriptlet.Proofs.Rule.Priority
import Scriptlet.Proofs.Rule.StringEnd
import Scriptlet.Proofs.Session.Backtracking
import Scriptlet.Proofs.Session.Coverage
import Scriptlet.Proofs.Session.Index
import Scriptlet.Proofs.Session.Lookahead
import Scriptlet.Proofs.Session.ModeSwitch
import Scriptlet.Proofs.Session.Peeking
import Scriptlet.Proofs.Session.Progress
import Scriptlet.Proofs.Session.Run
import Scriptlet.Proofs.Session.Spans
import Scriptlet.Proofs.Session.Staying
import Scriptlet.Proofs.Session.Stream
import Scriptlet.Proofs.Source.Lines
import Scriptlet.Proofs.Source.Literal
import Scriptlet.Proofs.Source.Reading
import Scriptlet.Proofs.Source.Walk
import Scriptlet.Proofs.Text.Quoted
import Scriptlet.Proofs.Text.Run
import Scriptlet.Proofs.Token.Display
import Scriptlet.Recognition.Machine
import Scriptlet.Recognition.Pattern
import Scriptlet.Recognition.Runs
import Scriptlet.Recognition.Significant
import Scriptlet.RewindLog
import Scriptlet.Rule.Basic
import Scriptlet.Rule.Blank
import Scriptlet.Rule.Comment
import Scriptlet.Rule.Literal
import Scriptlet.Rule.Punctuation
import Scriptlet.Rule.Scanned
import Scriptlet.Rule.Symbol
import Scriptlet.Session
import Scriptlet.Source.Cursor
import Scriptlet.Source.Position
import Scriptlet.Source.Span
import Scriptlet.Source.Walk
import Scriptlet.Text.Alphabetic
import Scriptlet.Text.Blank
import Scriptlet.Text.CodeRange
import Scriptlet.Text.GraphemeExtend
import Scriptlet.Text.Ignorable
import Scriptlet.Text.Numeric
import Scriptlet.Text.Printable
import Scriptlet.Text.Quoted
import Scriptlet.Token.Basic
import Scriptlet.Token.Display
import Scriptlet.Tokenization
