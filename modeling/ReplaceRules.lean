import ReplaceRules.Alphabet
import ReplaceRules.CommandLine
import ReplaceRules.CommandLine.Arguments
import ReplaceRules.Edge
import ReplaceRules.Fallback
import ReplaceRules.Journal
import ReplaceRules.Main
import ReplaceRules.Pattern
import ReplaceRules.Proofs.Accepted
import ReplaceRules.Proofs.Agreement
import ReplaceRules.Proofs.Alphabets
import ReplaceRules.Proofs.Boundaries
import ReplaceRules.Proofs.Carry
import ReplaceRules.Proofs.CarryStates
import ReplaceRules.Proofs.Cascade
import ReplaceRules.Proofs.Closing
import ReplaceRules.Proofs.ClosingRounds
import ReplaceRules.Proofs.Construction
import ReplaceRules.Proofs.ContextTexts
import ReplaceRules.Proofs.FailureLinks
import ReplaceRules.Proofs.FallbackTable
import ReplaceRules.Proofs.Gaps
import ReplaceRules.Proofs.Moves
import ReplaceRules.Proofs.NormalForm
import ReplaceRules.Proofs.Numbering
import ReplaceRules.Proofs.Occurrence
import ReplaceRules.Proofs.Online
import ReplaceRules.Proofs.PairTexts
import ReplaceRules.Proofs.Paths
import ReplaceRules.Proofs.Precedence
import ReplaceRules.Proofs.Reachability
import ReplaceRules.Proofs.Reading
import ReplaceRules.Proofs.Rearrangement
import ReplaceRules.Proofs.Releases
import ReplaceRules.Proofs.Runs
import ReplaceRules.Proofs.Scanning
import ReplaceRules.Proofs.TestFiles
import ReplaceRules.Proofs.Tokens
import ReplaceRules.Proofs.Totality
import ReplaceRules.Proofs.UnknownSymbols
import ReplaceRules.Proofs.Verdicts
import ReplaceRules.Proofs.Written
import ReplaceRules.Reference
import ReplaceRules.Report
import ReplaceRules.Report.Grid
import ReplaceRules.Rule.Context
import ReplaceRules.Rule.Error
import ReplaceRules.Rule.Pair
import ReplaceRules.Rule.Set
import ReplaceRules.State
import ReplaceRules.State.Endings
import ReplaceRules.Suite
import ReplaceRules.Suite.Check
import ReplaceRules.Suite.Grammar
import ReplaceRules.Suite.ReadError
import ReplaceRules.Suite.Reader
import ReplaceRules.Suite.Reader.Item
import ReplaceRules.Suite.Reader.Rules
import ReplaceRules.Suite.Reader.Tests
import ReplaceRules.Suite.Writer
import ReplaceRules.Symbol
import ReplaceRules.Symbol.Tokens
import ReplaceRules.Table
import ReplaceRules.Text.Blank
import ReplaceRules.Text.Columns
import ReplaceRules.Text.Emoji
import ReplaceRules.Text.Emoji.Sequence
import ReplaceRules.Text.Extending
import ReplaceRules.Text.Ligature
import ReplaceRules.Text.Quoted
import ReplaceRules.Text.Ranges
import ReplaceRules.Text.Unprintable
import ReplaceRules.Text.Width
import ReplaceRules.Transducer
import ReplaceRules.Transducer.Run
import ReplaceRules.Yaml.Cursor
import ReplaceRules.Yaml.Encoding
import ReplaceRules.Yaml.Event
import ReplaceRules.Yaml.Event.OfTokens
import ReplaceRules.Yaml.Property
import ReplaceRules.Yaml.Scalar
import ReplaceRules.Yaml.Token
import ReplaceRules.Yaml.Token.Scan
