import Precedence.Parselet.Basic

/-!
Grammars: a lexicon, and for each symbol at most one parselet of each kind. Registering a parselet
replaces the one that the symbol had. The spellings that parselets mention are kept in the order of
registration; the lexicon learns them when the grammar is complete.
-/
namespace Precedence

/-- How a grammar wants its sources to be parsed. -/
structure Options where
  /-- Whether a source is a sequence of statements, and not one expression. It does not matter for
  a grammar that registers a parselet for the start of the input. -/
  statementsAtTopLevel : Bool
  /-- Whether input that is left over is reported. -/
  enforceEnd : Bool
  recovery : RecoveryPolicy
deriving DecidableEq

/-- Statements at the top level, up to the end, and skipping after errors. -/
def Options.standard : Options := ⟨true, true, .skipToBoundary⟩

instance : Inhabited Options := ⟨.standard⟩

/-- The rules of a language. -/
structure Grammar where
  symbols : SymbolTable
  lexicon : Lexicon
  prefixes : List (Symbol × PrefixParselet)
  infixes : List (Symbol × InfixParselet)
  statements : List (Symbol × StatementParselet)
  spellings : List String
  options : Options

namespace Grammar

/-- The grammar without rules. -/
def empty (options : Options) : Grammar := ⟨.initial, .empty, [], [], [], [], options⟩

instance : Inhabited Grammar := ⟨empty .standard⟩

/-- The parselet for what starts with a symbol. -/
def prefixFor? (g : Grammar) (symbol : Symbol) : Option PrefixParselet := g.prefixes.lookup symbol

/-- The parselet for what goes on with a symbol. -/
def infixFor? (g : Grammar) (symbol : Symbol) : Option InfixParselet := g.infixes.lookup symbol

/-- The parselet for statements that start with a symbol. -/
def statementFor? (g : Grammar) (symbol : Symbol) : Option StatementParselet :=
  g.statements.lookup symbol

/-- The power with which an operand goes on with a symbol, the lowest if it does not. -/
def power (g : Grammar) (symbol : Symbol) : BindingPower :=
  ((g.infixFor? symbol).map (·.power)).getD .lowest

/-- A list with a value for a key, in the place of any that the key had. -/
def replaceEntry {α : Type} (key : Symbol) (value : α) (entries : List (Symbol × α)) :
    List (Symbol × α) :=
  (key, value) :: entries.filter fun entry => entry.1 != key

/-- The grammar with another parselet for what starts with a symbol. -/
def setPrefix (g : Grammar) (symbol : Symbol) (parselet : PrefixParselet) : Grammar :=
  { g with prefixes := replaceEntry symbol parselet g.prefixes }

/-- The grammar with another parselet for what goes on with a symbol. -/
def setInfix (g : Grammar) (symbol : Symbol) (parselet : InfixParselet) : Grammar :=
  { g with infixes := replaceEntry symbol parselet g.infixes }

/-- The grammar with another parselet for statements that start with a symbol. -/
def setStatement (g : Grammar) (symbol : Symbol) (parselet : StatementParselet) : Grammar :=
  { g with statements := replaceEntry symbol parselet g.statements }

/-- The grammar that keeps a spelling for its lexicon. The names of abstract kinds are none. -/
def noteSpelling (g : Grammar) (spelling : String) : Grammar :=
  if spelling.isEmpty ∨ spelling.toList.head? = some '#' ∨ spelling ∈ g.spellings then g
  else { g with spellings := g.spellings ++ [spelling] }

/-- The symbol of a spelling, which is kept for the lexicon. -/
def useSpelling (g : Grammar) (spelling : String) : Except InternError (Symbol × Grammar) := do
  let (symbol, symbols) ← g.symbols.intern spelling
  return (symbol, { g with symbols }.noteSpelling spelling)

/-- The symbol of a spelling, which the lexicon learns at once. A symbol that the lexicon knows
keeps its first spelling. -/
def addSpelling (g : Grammar) (spelling : String) (ignoreCase : Bool) :
    Except InternError (Symbol × Grammar) := do
  let (symbol, symbols) ← g.symbols.intern spelling
  let punctuators := g.lexicon.punctuators.insert symbol spelling.toList ignoreCase
  return (symbol, { g with symbols, lexicon := { g.lexicon with punctuators } })

/-- The parselets in numbers. -/
def parseletSummary (g : Grammar) : String :=
  "ParserDefinition \x7b prefix: " ++ toString g.prefixes.length ++ ", infix: "
    ++ toString g.infixes.length ++ ", statements: " ++ toString g.statements.length ++ ", .. \x7d"

/-- The lexicon in numbers. -/
def lexiconSummary (g : Grammar) : String :=
  "LexerConfig \x7b punctuators: " ++ toString g.lexicon.punctuators.size ++ ", matchers: "
    ++ toString g.lexicon.literals.length ++ ", ignores: "
    ++ toString g.lexicon.ignores.length ++ ", .. \x7d"

end Grammar

end Precedence
