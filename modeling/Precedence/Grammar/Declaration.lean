import Precedence.Grammar.Basic

/-!
Grammars as lists of declarations. Those about the lexicon come first, then those about parselets;
at last the lexicon learns every spelling that the parselets use. Declarations are applied in order,
which decides the numbers of symbols, the first of several rules that apply, and the last of several
parselets for one symbol.
-/
namespace Precedence

/-- A declaration about the lexicon. -/
inductive LexicalDeclaration where
  | ignore (rule : IgnoreRule)
  | literal (rule : LiteralRule)
  /-- A rule for literals that has to know the symbol of a spelling. -/
  | literalOf (spelling : String) (rule : Symbol → LiteralRule)
  | spelling (spelling : String)
  /-- A spelling in any case of its letters. -/
  | keyword (spelling : String)
  | names (policy : NamePolicy)

/-- A declaration about parselets. Symbols are named by their spellings, which the lexicon will
learn unless they are names of abstract kinds. -/
inductive Declaration where
  | spelling (spelling : String)
  /-- A symbol of this or another table, whose name is used as a spelling. -/
  | handle (symbol : Symbol)
  | name (symbol : String)
  | number (symbol : String) (separators : Separators)
  | boolean (symbol : String)
  | string (symbol : String) (escape : Option Char)
  | prefixOperator (symbol : String) (power : BindingPower)
  | postfixOperator (symbol : String) (power : BindingPower)
  | infixOperator (symbol : String) (associativity : Associativity) (power : BindingPower)
  | ternary (first second : String) (power : BindingPower)
  | group (opening closing : String) (separator : Option String) (wrapped : Bool)
  | call (opening closing separator : String) (power : BindingPower)
  | lambda (arrow : String) (power : BindingPower)
  | block (opening terminator : String) (separator : Option String) (wrap : Bool)
  | customPrefix (symbol : String) (parse : Engine → Token → Parse NodeId)
  | customInfix (symbol : String) (power : BindingPower)
      (parse : Engine → NodeId → Token → Parse NodeId)
  | customStatement (symbol : String) (parse : Engine → Token → Parse NodeId)

namespace Declaration

/-- Identifiers as expressions. -/
def names : List Declaration := [.name "#name"]

/-- The literals in their standard forms. -/
def literals : List Declaration :=
  [.number "#number" .standard, .boolean "#boolean", .string "#string" (some '\\')]

/-- Signs, groups in parentheses, sums and products. -/
def arithmetic : List Declaration :=
  [.prefixOperator "+" .prefixed, .prefixOperator "-" .prefixed, .group "(" ")" none false,
    .infixOperator "+" .left .sum, .infixOperator "-" .left .sum,
    .infixOperator "*" .left .product, .infixOperator "/" .left .product]

/-- Negation, conjunction and disjunction. -/
def logic : List Declaration :=
  [.prefixOperator "!" .prefixed, .infixOperator "&&" .left .product,
    .infixOperator "||" .left .sum]

/-- Operators on bits. -/
def bits : List Declaration :=
  [.prefixOperator "~" .prefixed, .infixOperator "&" .left .product,
    .infixOperator "<<" .left .product, .infixOperator ">>" .left .product,
    .infixOperator "|" .left .sum]

/-- Assignments, and the operators that count up and down. -/
def assignment : List Declaration :=
  (["=", "+=", "-=", "*=", "/="].map fun op => .infixOperator op .right .assignment)
    ++ ["++", "--"].flatMap fun op =>
      [.prefixOperator op .prefixed, .postfixOperator op .postfixed]

end Declaration

/-- The rules of a language, before any symbol has a number. -/
structure Rules where
  lexical : List LexicalDeclaration
  declarations : List Declaration

instance : Inhabited Rules := ⟨⟨[], []⟩⟩

namespace Grammar

/-- The grammar after a declaration about its lexicon. -/
def declareLexical (g : Grammar) : LexicalDeclaration → Except InternError Grammar
  | .ignore rule =>
    return { g with lexicon := { g.lexicon with ignores := g.lexicon.ignores ++ [rule] } }
  | .literal rule =>
    return { g with lexicon := { g.lexicon with literals := g.lexicon.literals ++ [rule] } }
  | .literalOf spelling rule => do
    let (symbol, symbols) ← g.symbols.intern spelling
    let literals := g.lexicon.literals ++ [rule symbol]
    return { g with symbols, lexicon := { g.lexicon with literals } }
  | .spelling spelling => return (← g.addSpelling spelling false).2
  | .keyword spelling => return (← g.addSpelling spelling true).2
  | .names policy => return { g with lexicon := { g.lexicon with names := policy } }

/-- The symbol of a spelling that may be missing, which is kept for the lexicon. -/
def useSpelling? (g : Grammar) : Option String → Except InternError (Option Symbol × Grammar)
  | none => return (none, g)
  | some spelling => do
    let (symbol, g) ← g.useSpelling spelling
    return (some symbol, g)

/-- The grammar with a parselet for what starts with a spelling. -/
def registerPrefix (g : Grammar) (spelling : String) (parselet : PrefixParselet) :
    Except InternError Grammar := do
  let (symbol, g) ← g.useSpelling spelling
  return g.setPrefix symbol parselet

/-- The grammar with a parselet for what goes on with a spelling. -/
def registerInfix (g : Grammar) (spelling : String) (power : BindingPower) (form : InfixForm) :
    Except InternError Grammar := do
  let (symbol, g) ← g.useSpelling spelling
  return g.setInfix symbol ⟨power, form⟩

/-- The grammar after a declaration about its parselets. The spellings inside a construct are used
before the one that opens it, from its end to its start. -/
def declare (g : Grammar) : Declaration → Except InternError Grammar
  | .spelling spelling => return (← g.useSpelling spelling).2
  | .handle symbol => return g.noteSpelling (g.symbols.name symbol)
  | .name symbol => g.registerPrefix symbol .name
  | .number symbol separators => g.registerPrefix symbol (.number separators)
  | .boolean symbol => g.registerPrefix symbol .boolean
  | .string symbol escape => g.registerPrefix symbol (.string escape)
  | .prefixOperator symbol power => g.registerPrefix symbol (.operator power)
  | .postfixOperator symbol power => g.registerInfix symbol power .postfixed
  | .infixOperator symbol associativity power =>
    g.registerInfix symbol power (.binary associativity)
  | .ternary first second power => do
    let (second, g) ← g.useSpelling second
    g.registerInfix first power (.ternary second)
  | .group opening closing separator wrapped => do
    let (closing, g) ← g.useSpelling closing
    let (separator, g) ← g.useSpelling? separator
    g.registerPrefix opening (.group closing separator wrapped)
  | .call opening closing separator power => do
    let (closing, g) ← g.useSpelling closing
    let (separator, g) ← g.useSpelling separator
    g.registerInfix opening power (.call closing separator)
  | .lambda arrow power => g.registerInfix arrow power .lambda
  | .block opening terminator separator wrap => do
    let (terminator, g) ← g.useSpelling terminator
    let (separator, g) ← g.useSpelling? separator
    g.registerPrefix opening (.block separator terminator wrap)
  | .customPrefix symbol parse => g.registerPrefix symbol (.custom parse)
  | .customInfix symbol power parse => g.registerInfix symbol power (.custom parse)
  | .customStatement symbol parse => do
    let (symbol, g) ← g.useSpelling symbol
    return g.setStatement symbol ⟨parse⟩

/-- The grammar whose lexicon knows the spellings that its parselets use. -/
def learnSpellings (g : Grammar) : Except InternError Grammar :=
  g.spellings.foldlM (fun g spelling => return (← g.addSpelling spelling false).2) g

end Grammar

/-- The grammar of some rules. It fails only where a symbol would have no name. -/
def Rules.grammar (rules : Rules) (options : Options) : Except InternError Grammar := do
  let g ← rules.lexical.foldlM Grammar.declareLexical (.empty options)
  let g ← rules.declarations.foldlM Grammar.declare g
  g.learnSpellings

end Precedence
