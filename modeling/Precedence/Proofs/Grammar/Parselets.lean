import Precedence.Grammar.Basic

/-!
What a grammar says of its symbols: what it finds for them, and at which thresholds its operators
ask for their operands.
-/
namespace Precedence

/-- The threshold for the operand behind an operator that goes on from another operand. -/
def InfixParselet.threshold (p : InfixParselet) : BindingPower :=
  match p.form with
  | .binary associativity => associativity.threshold p.power
  | .ternary _ => p.power.below
  | _ => p.power

/-- What a block is made of: its separator, its end, and whether its statements are wrapped. -/
def PrefixParselet.block? : PrefixParselet → Option (Option Symbol × Symbol × Bool)
  | .block separator terminator wrap => some (separator, terminator, wrap)
  | _ => none

theorem PrefixParselet.eq_block_of_block? {parselet : PrefixParselet} {separator : Option Symbol}
    {terminator : Symbol} {wrap : Bool}
    (h : parselet.block? = some (separator, terminator, wrap)) :
    parselet = .block separator terminator wrap := by
  cases parselet with
  | block => cases h; rfl
  | _ => cases h

namespace Grammar

variable {g : Grammar} {symbol : Symbol}

/-- What a look-up finds is on the list. -/
theorem mem_of_lookup {α : Type} {entries : List (Symbol × α)} {value : α}
    (h : entries.lookup symbol = some value) : (symbol, value) ∈ entries := by
  obtain ⟨before, after, hEntries, _⟩ := List.lookup_eq_some_iff.mp h
  simp [hEntries]

theorem mem_of_prefixFor? {parselet : PrefixParselet} (h : g.prefixFor? symbol = some parselet) :
    (symbol, parselet) ∈ g.prefixes :=
  mem_of_lookup h

theorem mem_of_infixFor? {parselet : InfixParselet} (h : g.infixFor? symbol = some parselet) :
    (symbol, parselet) ∈ g.infixes :=
  mem_of_lookup h

/-! ### The library's own parselets -/

/-- Every construct of a grammar is one of the library's. The library has none for statements. -/
def hasBuiltInParselets (g : Grammar) : Bool :=
  g.prefixes.all (·.2.isBuiltIn) && g.infixes.all (·.2.form.isBuiltIn) && g.statements.isEmpty

theorem isBuiltIn_of_prefixFor? {parselet : PrefixParselet}
    (hBuiltIn : g.hasBuiltInParselets = true) (h : g.prefixFor? symbol = some parselet) :
    parselet.isBuiltIn = true := by
  simp only [hasBuiltInParselets, Bool.and_eq_true, List.all_eq_true] at hBuiltIn
  exact hBuiltIn.1.1 _ (mem_of_prefixFor? h)

theorem isBuiltIn_of_infixFor? {parselet : InfixParselet}
    (hBuiltIn : g.hasBuiltInParselets = true) (h : g.infixFor? symbol = some parselet) :
    parselet.form.isBuiltIn = true := by
  simp only [hasBuiltInParselets, Bool.and_eq_true, List.all_eq_true] at hBuiltIn
  exact hBuiltIn.1.2 _ (mem_of_infixFor? h)

theorem statementFor?_eq_none (hBuiltIn : g.hasBuiltInParselets = true) (symbol : Symbol) :
    g.statementFor? symbol = none := by
  simp only [hasBuiltInParselets, Bool.and_eq_true, List.isEmpty_iff] at hBuiltIn
  rw [statementFor?, hBuiltIn.2, List.lookup_nil]

/-! ### Powers and thresholds -/

/-- How a symbol goes on from an operand, if it does. -/
def formFor? (g : Grammar) (symbol : Symbol) : Option InfixForm :=
  (g.infixFor? symbol).map (·.form)

/-- The threshold for the operand behind an operator between operands. -/
def threshold (g : Grammar) (symbol : Symbol) : BindingPower :=
  ((g.infixFor? symbol).map (·.threshold)).getD .lowest

/-- The threshold for the operand behind an operator that starts an expression. -/
def operandPower (g : Grammar) (symbol : Symbol) : BindingPower :=
  match g.prefixFor? symbol with
  | some (.operator power) => power
  | _ => .lowest

theorem infixFor?_of_formFor? {form : InfixForm}
    (h : g.formFor? symbol = some form) : g.infixFor? symbol = some ⟨g.power symbol, form⟩ := by
  obtain ⟨parselet, hParselet, rfl⟩ := Option.map_eq_some_iff.mp h
  simp [power, hParselet]

theorem formFor?_of_infixFor? {parselet : InfixParselet}
    (h : g.infixFor? symbol = some parselet) : g.formFor? symbol = some parselet.form := by
  rw [formFor?, h, Option.map_some]

theorem power_of_infixFor? {parselet : InfixParselet}
    (h : g.infixFor? symbol = some parselet) : g.power symbol = parselet.power := by
  rw [power, h, Option.map_some, Option.getD_some]

theorem power_of_infixFor?_eq_none {g : Grammar} {symbol : Symbol}
    (h : g.infixFor? symbol = none) : g.power symbol = .lowest := by
  rw [power, h, Option.map_none, Option.getD_none]

theorem threshold_of_formFor? {form : InfixForm}
    (h : g.formFor? symbol = some form) :
    g.threshold symbol = InfixParselet.threshold ⟨g.power symbol, form⟩ := by
  rw [threshold, infixFor?_of_formFor? h, Option.map_some, Option.getD_some]

theorem operandPower_of_prefixFor? {power : BindingPower}
    (h : g.prefixFor? symbol = some (.operator power)) : g.operandPower symbol = power := by
  rw [operandPower, h]

end Grammar

end Precedence
