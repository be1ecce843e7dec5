import Precedence.Symbol.Interning

/-!
Symbols: the kinds of tokens. A symbol is a number in a symbol table, so two symbols of one table
are equal exactly when their names are. A name that starts with `#` is an abstract kind, which no
text can spell; every other name is the spelling of an operator, a delimiter or a keyword.
-/
namespace Precedence

/-- The kind of a token, as its number in a symbol table. -/
structure Symbol where
  id : Nat
deriving DecidableEq, Inhabited

namespace Symbol

/-- The start of the input, found once and without width. -/
def sof : Symbol := ⟨0⟩

/-- The end of the input, found without width and as often as it is asked for. -/
def eof : Symbol := ⟨1⟩

/-- An identifier that is no registered spelling. -/
def name : Symbol := ⟨2⟩

/-- A number literal. -/
def number : Symbol := ⟨3⟩

/-- A string literal. -/
def string : Symbol := ⟨4⟩

/-- A truth value. -/
def boolean : Symbol := ⟨5⟩

/-- A character that starts no token, or the stand-in for a token that is missing. -/
def invalid : Symbol := ⟨6⟩

/-- A number that no table hands out, since it is the largest of 32 bits. -/
def foreign : Symbol := ⟨4294967295⟩

/-- The names that every table starts with, in the order of the symbols above. -/
def predefinedNames : List String :=
  ["#sof", "#eof", "#name", "#number", "#string", "#boolean", "#invalid"]

/-- Whether a symbol is one of the kinds that every table knows. -/
def isPredefined (s : Symbol) : Bool := s.id < predefinedNames.length

/-- The symbol without its table: by name if it is predefined, by number otherwise. -/
def text (s : Symbol) : String :=
  "Symbol(" ++ predefinedNames[s.id]?.getD (toString s.id) ++ ")"

end Symbol

/-- Why a name cannot become a symbol. -/
inductive InternError where
  | emptyName
deriving DecidableEq

/-- The wording of a refused name. -/
def InternError.message : InternError → String
  | .emptyName => "symbol name must not be empty"

/-- The names of the symbols handed out so far. The predefined ones come first in every table. -/
structure SymbolTable where
  names : Interning
  predefined : Symbol.predefinedNames <+: names.entries

namespace SymbolTable

/-- The table that knows the predefined symbols alone. -/
def initial : SymbolTable := ⟨.ofList Symbol.predefinedNames, by decide⟩

instance : Inhabited SymbolTable := ⟨initial⟩

/-- The number of symbols. -/
def size (t : SymbolTable) : Nat := t.names.size

/-- The symbol of a name, if it has one. -/
def find? (t : SymbolTable) (name : String) : Option Symbol := (t.names.find? name).map .mk

theorem find?_eq_some_iff {t : SymbolTable} {name : String} {symbol : Symbol} :
    t.find? name = some symbol ↔ t.names.text? symbol.id = some name := by
  obtain ⟨id⟩ := symbol
  rw [← Interning.find?_eq_some_iff]
  simp [find?]

/-- The symbol of a name, a new one if need be. The empty name has none. -/
def intern (t : SymbolTable) (name : String) : Except InternError (Symbol × SymbolTable) :=
  if name.isEmpty then .error .emptyName
  else
    .ok (⟨(t.names.intern name).1⟩,
      ⟨(t.names.intern name).2, t.predefined.trans (t.names.entries_prefix_intern name)⟩)

/-- The name of a symbol. A symbol of another table may have none here. -/
def name (t : SymbolTable) (s : Symbol) : String := (t.names.text? s.id).getD "#unknown"

/-- The predefined symbols have their names in every table. -/
theorem name_eq_of_lt (t : SymbolTable) {s : Symbol}
    (h : s.id < Symbol.predefinedNames.length) : t.name s = Symbol.predefinedNames[s.id] := by
  obtain ⟨later, hLater⟩ := t.predefined
  rw [name, Interning.text?, ← hLater, List.getElem?_append_left h, List.getElem?_eq_getElem h,
    Option.getD_some]

/-- A symbol as messages name it: a spelling in quotation marks, an abstract kind without its
mark. -/
def describe (t : SymbolTable) (s : Symbol) : String :=
  match (t.name s).toList with
  | '#' :: kind => String.ofList kind
  | spelling => "'" ++ String.ofList spelling ++ "'"

/-- The table in short, by its size alone. -/
def text (t : SymbolTable) : String := "SymbolTable \x7b len: " ++ toString t.size ++ " \x7d"

end SymbolTable

end Precedence
