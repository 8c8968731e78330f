import AngleLexer.Main
import AngleLexer.Reader.Session
import AngleLexer.Report.Stream
import AngleLexer.Scanner.Context
import AngleLexer.Scanner.Session
import AngleLexer.Trace
import AngleLexer.Proofs.Binary64.Nearest
import AngleLexer.Proofs.Binary64.Rounding
import AngleLexer.Proofs.Checked.Lexeme
import AngleLexer.Proofs.Checked.Number
import AngleLexer.Proofs.Checked.Reader
import AngleLexer.Proofs.Checked.Scanner
import AngleLexer.Proofs.Checked.StringLiteral
import AngleLexer.Proofs.CommandLine.Agreement
import AngleLexer.Proofs.CommandLine.Lines
import AngleLexer.Proofs.Escape
import AngleLexer.Proofs.Fault.ByteOffset
import AngleLexer.Proofs.Fault.Causes
import AngleLexer.Proofs.Fault.Extent
import AngleLexer.Proofs.Fault.Within
import AngleLexer.Proofs.GenericCall.Outermost
import AngleLexer.Proofs.Lexeme.Behind
import AngleLexer.Proofs.Lexeme.Delimited
import AngleLexer.Proofs.Lexeme.LineEnds
import AngleLexer.Proofs.Lexeme.Rules
import AngleLexer.Proofs.LongestPrefix
import AngleLexer.Proofs.Lookahead
import AngleLexer.Proofs.Number.Denotation
import AngleLexer.Proofs.Number.Extent
import AngleLexer.Proofs.Number.Grammar
import AngleLexer.Proofs.Number.Reading
import AngleLexer.Proofs.Number.Rounded
import AngleLexer.Proofs.Number.Value
import AngleLexer.Proofs.Numeral
import AngleLexer.Proofs.Position
import AngleLexer.Proofs.Reader.Ahead
import AngleLexer.Proofs.Reader.Comments
import AngleLexer.Proofs.Reader.Pieces
import AngleLexer.Proofs.Reader.Prefixes
import AngleLexer.Proofs.Reader.Tokens
import AngleLexer.Proofs.Reader.Trivia
import AngleLexer.Proofs.Report.Columns
import AngleLexer.Proofs.Report.Unbroken
import AngleLexer.Proofs.Scanner.Coherence
import AngleLexer.Proofs.Scanner.EndOfInput
import AngleLexer.Proofs.Scanner.Joined
import AngleLexer.Proofs.Scanner.Labels
import AngleLexer.Proofs.Scanner.LineEnds
import AngleLexer.Proofs.Scanner.Pointer
import AngleLexer.Proofs.Scanner.RawCharacters
import AngleLexer.Proofs.StringLiteral.Behind
import AngleLexer.Proofs.StringLiteral.Braces
import AngleLexer.Proofs.StringLiteral.Broken
import AngleLexer.Proofs.StringLiteral.Closing
import AngleLexer.Proofs.StringLiteral.Decoding
import AngleLexer.Proofs.StringLiteral.Faults
import AngleLexer.Proofs.StringLiteral.Grammar
import AngleLexer.Proofs.StringLiteral.Written
import AngleLexer.Proofs.Text.Bytes
import AngleLexer.Proofs.Text.Collapse
