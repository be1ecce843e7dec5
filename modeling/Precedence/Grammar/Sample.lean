import Precedence.Grammar.Declaration
import Precedence.Recipe

/-!
Rules of some small languages. Between them they show every kind of declaration: `arithmetic` has
the bundles alone, `operators` adds calls, conditionals and blocks, `bindings` and `functions` have
statements and operands of their own, and `keywords` chooses its own separators, escapes, names and
powers throughout.
-/
namespace Precedence.Sample

/-- Numbers of every form but negative ones. -/
def unsignedNumbers (separators : Separators) : NumberFormat :=
  ⟨true, true, true, true, false, separators⟩

/-- Numbers of every form. -/
def allNumbers : NumberFormat := ⟨true, true, true, true, true, .standard⟩

/-- A name that is bound to an expression, after the keyword. -/
def binding : Recipe := ⟨[.name, .expect "=", .expression .lowest], .tagged⟩

/-- Sums and products of names and literals. -/
def arithmetic : Rules where
  lexical := [.ignore .blanks, .literal (.number (unsignedNumbers .standard))]
  declarations := Declaration.names ++ Declaration.literals ++ Declaration.arithmetic

/-- Operators of every kind, in statements that semicolons separate. -/
def operators : Rules where
  lexical := [.ignore .blanks, .literal (.boolean true),
    .literal (.string ['\''] ['\''] (some '\\')), .literal (.number allNumbers),
    .ignore (.lineComment ['/', '/']), .ignore (.blockComment ['/', '*'] ['*', '/'])]
  declarations := Declaration.names ++ [.call "(" ")" "," .call, .ternary "?" ":" .conditional]
    ++ Declaration.arithmetic ++ Declaration.bits ++ Declaration.logic ++ Declaration.literals
    ++ Declaration.assignment
    ++ [.prefixOperator "not" .prefixed, .postfixOperator "!" .postfixed,
      .postfixOperator "." .postfixed, .infixOperator "^" .right .exponent,
      .infixOperator "->" .left .product, .block "\x7b" "\x7d" (some ";") true,
      .block "#sof" "#eof" (some ";") false]

/-- Bindings, lists, functions, and a question mark that reports what it follows. -/
def bindings : Rules where
  lexical := [.ignore .blanks, .literal (.number allNumbers)]
  declarations := Declaration.names ++ Declaration.literals ++ Declaration.arithmetic
    ++ [.group "(" ")" (some ",") false, .lambda "=>" .assignment, .spelling "=",
      .customStatement "let" binding.fromToken, .spelling "]",
      .customPrefix "[" (Recipe.fromToken ⟨[.juxtaposed .lowest ["]"], .expect "]"], .tagged⟩),
      .customInfix "?" .postfixed
        (Recipe.fromOperand ⟨[.report .warning "questionable"], .last⟩),
      .block "#sof" "#eof" (some ";") true]

/-- Functions, calls, and names that may hold an apostrophe. -/
def functions : Rules where
  lexical := [.ignore .blanks, .ignore (.lineComment ['#']),
    .literal (.number ⟨false, false, true, false, false, .standard⟩),
    .literal (.string ['"'] ['"'] (some '\\')), .literal (.boolean false),
    .names (.classes (fun c => Text.isAlphabetic c || c == '_')
      (fun c => Text.isAlphanumeric c || c == '_' || c == '\'')),
    .spelling "()"]
  declarations := Declaration.names ++ Declaration.literals ++ Declaration.arithmetic
    ++ [.group "(" ")" (some ",") false, .call "(" ")" "," .call,
      .postfixOperator "!" .postfixed, .lambda "->" .assignment, .spelling "=",
      .customStatement "let" binding.fromToken,
      .customPrefix "import" (Recipe.fromToken ⟨[.expression .call], .tagged⟩),
      .customPrefix "()" (Recipe.fromToken ⟨[], .tagged⟩),
      .block "\x7b" "\x7d" (some ";") false, .block "#sof" "#eof" (some ";") false]

/-- Keywords in any case, a decimal comma, and groups and tuples that stay visible. -/
def keywords : Rules where
  lexical := [.ignore .blanks, .literal (.number (unsignedNumbers ⟨',', some '\''⟩)),
    .literal (.string ['"'] ['"'] (some '^')), .literal (.string ['`'] ['`'] none),
    .literal (.string ['<', '<', '<'] ['>', '>', '>'] (some '\\')), .literal (.boolean false),
    .ignore (.blockComment ['(', '*'] ['*', ')']),
    .keyword "AND", .keyword "Begin", .keyword "END",
    .names (.classes Text.isAlphabetic (fun c => Text.isAlphanumeric c || c == '-' || c == '_'))]
  declarations := Declaration.names
    ++ [.number "#number" ⟨',', some '\''⟩, .boolean "#boolean", .string "#string" (some '^'),
      .group "(" ")" none true, .group "[" "]" (some ";") true, .lambda "=>" 15,
      .infixOperator "AND" .left 20, .infixOperator "OR" .left 19,
      .infixOperator "**" .right .exponent, .infixOperator "+" .left .sum,
      .infixOperator "-" .left .sum, .prefixOperator "-" 35, .prefixOperator "!" .lowest,
      .call "\x7b" "\x7d" "," 45, .postfixOperator "~" 5, .block "Begin" "END" none true,
      .block "do" "done" (some "then") false, .block "#sof" "#eof" (some ".") true]

end Precedence.Sample
