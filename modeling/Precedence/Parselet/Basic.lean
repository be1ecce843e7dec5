import Precedence.Parse.Block
import Precedence.Parselet.Group
import Precedence.Parselet.Lambda
import Precedence.Parselet.Leaf
import Precedence.Parselet.Operator

/-!
Parselets: what a grammar registers for a symbol. A prefix parselet parses what starts with a token
of the symbol, an infix parselet what goes on from an operand with it, and a statement parselet what
stands in the place of a statement. In each case the token has been consumed. A grammar may add
parselets of its own, which ask the engine for everything nested in them.
-/
namespace Precedence

/-- What starts with a token. -/
inductive PrefixParselet where
  | name
  | number (separators : Separators)
  | boolean
  | string (escape : Option Char)
  | operator (power : BindingPower)
  | group (closing : Symbol) (separator : Option Symbol) (wrapped : Bool)
  | block (separator : Option Symbol) (terminator : Symbol) (wrap : Bool)
  | custom (parse : Engine → Token → Parse NodeId)

/-- What goes on from an operand with a token. -/
inductive InfixForm where
  | postfixed
  | binary (associativity : Associativity)
  | ternary (second : Symbol)
  | call (closing separator : Symbol)
  | lambda
  | custom (parse : Engine → NodeId → Token → Parse NodeId)

/-- What goes on from an operand, and how tightly it binds. -/
structure InfixParselet where
  power : BindingPower
  form : InfixForm

/-- What stands in the place of a statement. -/
structure StatementParselet where
  parse : Engine → Token → Parse NodeId

/-- Whether the parselet is one of the library's. -/
def PrefixParselet.isBuiltIn : PrefixParselet → Bool
  | .custom _ => false
  | _ => true

/-- Whether the parselet is one of the library's. -/
def InfixForm.isBuiltIn : InfixForm → Bool
  | .custom _ => false
  | _ => true

namespace Engine

/-- The node of what starts with a token. -/
def parsePrefix (e : Engine) (parselet : PrefixParselet) (token : Token) : Parse NodeId :=
  fun s =>
    match parselet with
    | .name => s.nameNode token
    | .number separators => e.number separators token s
    | .boolean => boolean token s
    | .string escape => e.string escape token s
    | .operator power => e.prefixOperator power token s
    | .group closing separator wrapped => e.group closing separator wrapped token s
    | .block separator terminator wrap => e.block token.range separator terminator wrap s
    | .custom parse => parse e token s

/-- The node of what goes on from an operand with a token. -/
def parseInfix (e : Engine) (parselet : InfixParselet) (left : NodeId) (token : Token) :
    Parse NodeId :=
  fun s =>
    match parselet.form with
    | .postfixed => postfixOperator left token s
    | .binary associativity => e.binaryOperator associativity parselet.power left token s
    | .ternary second => e.ternary second parselet.power left s
    | .call closing separator => e.call closing separator left s
    | .lambda => e.lambda parselet.power left s
    | .custom parse => parse e left token s

end Engine

end Precedence
