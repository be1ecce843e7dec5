/-!
Lines and columns. Both count from one, and a column counts characters, not bytes. A line ends with
a line feed, with a carriage return, or with the two together; inside such a pair nothing moves, so
a position is a function of the text read only when the text does not end between the two.

Numbers have no end here, and positions are kept in counters of 32 bits. So texts are taken to be of
less than `2 ^ 32 - 2` bytes, for in these no line and no column comes to the limit of a counter;
counting that stops there is `advance?`.
-/
namespace Precedence

/-- A place in a text, as a reader would name it. -/
structure Position where
  line : Nat
  column : Nat
deriving DecidableEq, Inhabited

namespace Position

/-- Where every text starts. -/
def origin : Position := ⟨1, 1⟩

/-- The position after reading `c` when `rest` follows it. What follows matters only for a carriage
return, which moves nothing when a line feed is still to come. -/
def after (p : Position) (c : Char) (rest : List Char) : Position :=
  if c = '\r' ∧ rest.head? = some '\n' then p
  else if c = '\n' ∨ c = '\r' then ⟨p.line + 1, 1⟩
  else ⟨p.line, p.column + 1⟩

/-- The position after reading a text, whatever comes after it. -/
def advance (p : Position) : List Char → Position
  | [] => p
  | c :: rest => (p.after c rest).advance rest

/-- The largest line or column that a 32-bit counter holds. -/
def counterLimit : Nat := 4294967295

/-- The position after reading a text, provided no counter passes its limit on the way. -/
def advance? (p : Position) : List Char → Option Position
  | [] => some p
  | c :: rest =>
    let next := p.after c rest
    if next.line ≤ counterLimit ∧ next.column ≤ counterLimit then next.advance? rest else none

/-- Whether one position comes before another in reading order. -/
def isBefore (p q : Position) : Bool :=
  p.line < q.line || (p.line == q.line && p.column < q.column)

/-- The position in the form `line:column`. -/
def text (p : Position) : String := toString p.line ++ ":" ++ toString p.column

@[simp] theorem advance_nil (p : Position) : p.advance [] = p := rfl

@[simp] theorem advance_cons (p : Position) (c : Char) (rest : List Char) :
    p.advance (c :: rest) = (p.after c rest).advance rest := rfl

/-- Counting within limits reaches the same place as counting without. -/
theorem advance_of_advance?_eq_some {p q : Position} {cs : List Char}
    (h : p.advance? cs = some q) : p.advance cs = q := by
  induction cs generalizing p with
  | nil => simpa [advance?] using h
  | cons c rest ih =>
    rw [advance?] at h
    split at h
    · exact ih h
    · cases h

end Position

end Precedence
