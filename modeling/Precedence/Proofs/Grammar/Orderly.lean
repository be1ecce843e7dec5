import Precedence.Proofs.Grammar.Parselets

/-!
Grammars whose operators can be told apart from one another and from what delimits their operands.
The conditions are on the entries of a grammar, so they are decided for a grammar that is given.
-/
namespace Precedence

/-- Whether a symbol is an abstract kind and not a spelling. -/
def SymbolTable.isAbstract (t : SymbolTable) (s : Symbol) : Bool :=
  (t.name s).toList.head? == some '#'

theorem SymbolTable.isAbstract_eof (t : SymbolTable) : t.isAbstract .eof = true := by
  rw [isAbstract, t.name_eq_of_lt (by decide)]
  decide

theorem SymbolTable.isAbstract_invalid (t : SymbolTable) : t.isAbstract .invalid = true := by
  rw [isAbstract, t.name_eq_of_lt (by decide)]
  decide

/-- Whether the parselet is an operator, or a group that leaves a node of its own. -/
def PrefixParselet.isOperator : PrefixParselet → Bool
  | .operator _ | .group _ none true => true
  | _ => false

/-- The symbols that end a part of the construct. -/
def PrefixParselet.delimiters : PrefixParselet → List Symbol
  | .group closing none true => [closing]
  | _ => []

/-- The symbols that end a part of the construct. -/
def InfixForm.delimiters : InfixForm → List Symbol
  | .ternary second => [second]
  | .call closing separator => [closing, separator]
  | _ => []

/-- Whether the end of a call can be told from its separator and from an argument. -/
def InfixForm.isClear (g : Grammar) : InfixForm → Bool
  | .call closing separator => closing != separator && (g.prefixFor? closing).isNone
  | _ => true

/-- A grammar whose operators can be told apart: those that start an expression have spellings,
those that go on from an operand have a power, and no delimiter is an operator itself. -/
structure Grammar.IsOrderly (g : Grammar) : Prop where
  spelled : ∀ entry ∈ g.prefixes, entry.2.isOperator = true → g.symbols.isAbstract entry.1 = false
  positive : ∀ entry ∈ g.infixes, 0 < entry.2.power
  closings : ∀ entry ∈ g.prefixes, ∀ symbol ∈ entry.2.delimiters, (g.infixFor? symbol).isNone
  delimiters : ∀ entry ∈ g.infixes, ∀ symbol ∈ entry.2.form.delimiters,
    (g.infixFor? symbol).isNone
  calls : ∀ entry ∈ g.infixes, entry.2.form.isClear g = true

namespace Grammar

variable {g : Grammar} {symbol : Symbol}

theorem IsOrderly.ne_of_isOperator (hg : g.IsOrderly) {parselet : PrefixParselet}
    (h : g.prefixFor? symbol = some parselet) (hOperator : parselet.isOperator = true) :
    symbol ≠ .eof ∧ symbol ≠ .invalid := by
  have hSpelled := hg.spelled _ (mem_of_prefixFor? h) hOperator
  constructor
  · rintro rfl
    rw [g.symbols.isAbstract_eof] at hSpelled
    cases hSpelled
  · rintro rfl
    rw [g.symbols.isAbstract_invalid] at hSpelled
    cases hSpelled

theorem IsOrderly.power_closing (hg : g.IsOrderly) {closing : Symbol}
    (h : g.prefixFor? symbol = some (.group closing none true)) : g.power closing = .lowest :=
  power_of_infixFor?_eq_none (Option.isNone_iff_eq_none.mp
    (hg.closings _ (mem_of_prefixFor? h) closing (by simp [PrefixParselet.delimiters])))

theorem IsOrderly.power_delimiter (hg : g.IsOrderly) {form : InfixForm} {delimiter : Symbol}
    (h : g.formFor? symbol = some form) (hMem : delimiter ∈ form.delimiters) :
    g.power delimiter = .lowest :=
  power_of_infixFor?_eq_none (Option.isNone_iff_eq_none.mp
    (hg.delimiters _ (mem_of_infixFor? (infixFor?_of_formFor? h)) delimiter hMem))

theorem IsOrderly.power_pos (hg : g.IsOrderly) {form : InfixForm}
    (h : g.formFor? symbol = some form) : 0 < g.power symbol :=
  hg.positive _ (mem_of_infixFor? (infixFor?_of_formFor? h))

theorem IsOrderly.call (hg : g.IsOrderly) {closing separator : Symbol}
    (h : g.formFor? symbol = some (.call closing separator)) :
    closing ≠ separator ∧ g.prefixFor? closing = none := by
  have hClear := hg.calls _ (mem_of_infixFor? (infixFor?_of_formFor? h))
  simpa [InfixForm.isClear] using hClear

end Grammar

end Precedence
