import Precedence.Text.Bytes
import Precedence.Text.Alphabetic
import Precedence.Text.Blank
import Precedence.Text.Visible
import Precedence.Text.Case
import Precedence.Text.Quoted
import Precedence.Source.Range
import Precedence.Symbol.Basic
import Precedence.Punctuator
import Precedence.Token
import Precedence.Literal
import Precedence.Arena.Dump
import Precedence.Diagnostic.Terminal
import Precedence.Lexer.Lexicon
import Precedence.Escape
import Precedence.Numeral
import Precedence.Grammar.Declaration
import Precedence.Grammar.Parse
import Precedence.Lexer.Basic
import Precedence.Recipe
import Precedence.Grammar.Sample
import Precedence.Proofs.Engine.Equations
import Precedence.Proofs.Engine.Run
import Precedence.Proofs.Expression.Tree
import Precedence.Proofs.Grammar.Orderly
import Precedence.Proofs.Expression.Reading
import Precedence.Proofs.Expression.RoundTrip
import Precedence.Proofs.Expression.Soundness
import Precedence.Proofs.Engine.Termination
import Precedence.Proofs.Grammar.CleanParse
import Precedence.Proofs.Assembly.Coverage
import Precedence.Proofs.Assembly.Failure
import Precedence.Proofs.Assembly.Characters
import Precedence.Proofs.Likeness.Separation
import Precedence.Proofs.Assembly.Nesting
import Precedence.Proofs.Assembly.Positions
import Precedence.Proofs.Session.Requests
import Precedence.Proofs.Session.Filling
import Precedence.Proofs.Diagnostic.Lines
import Precedence.Proofs.Isolation.Spacing
import Precedence.Proofs.Numeral.Value
import Precedence.Proofs.Lexer.Strings
import Precedence.Proofs.Recovery.Policy
import Precedence.Proofs.Lexer.Faults
import Precedence.Proofs.Assembly.Messages
import Precedence.Proofs.Lexer.Exhaustion
import Precedence.Proofs.Lexer.Movement
import Precedence.Proofs.Lexer.Shadowing
import Precedence.Proofs.Numeral.Longest
import Precedence.Proofs.Numeral.Acceptance
import Precedence.Proofs.Escape.Acceptance
import Precedence.Proofs.Escape.Places
import Precedence.Proofs.Lexer.TruthValues
import Precedence.Proofs.Separators.Blocks
import Precedence.Proofs.Separators.Lists
import Precedence.Proofs.Lexer.Strays
import Precedence.Proofs.Arena.Parentage
import Precedence.Proofs.Symbol.Numbering
import Precedence.Proofs.Lexer.Vocabulary
import Precedence.Proofs.Diagnostic.Underline
import Precedence.Proofs.Punctuator.Insertion
import Precedence.Proofs.Source.Parts
