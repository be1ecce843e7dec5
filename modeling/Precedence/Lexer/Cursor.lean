import Precedence.Token

/-!
The place up to which a source has been read. A cursor only ever moves forward, one character at a
time, so every reading is a number of characters; its offset and position follow from the text that
was read. Reading on past the end changes nothing.

Offset, line and column have no limit here. Kept in 32 bits, an offset stays at the limit once it is
reached, and a line or a column cannot be counted past it; so sources are taken to be of less than
`2 ^ 32 - 2` bytes, in which no cursor comes to the limit of any of the three.
-/
namespace Precedence

/-- What is still unread, and the place where it starts. -/
structure Cursor where
  rest : List Char
  offset : Nat
  position : Position
deriving DecidableEq, Inhabited

namespace Cursor

/-- The start of a source. -/
def ofSource (source : List Char) : Cursor := ⟨source, 0, .origin⟩

/-- Whether everything has been read. -/
def atEnd (c : Cursor) : Bool := c.rest.isEmpty

/-- The character `n` places after the cursor, which past the end is NUL. -/
def peek (c : Cursor) (n : Nat) : Char := c.rest[n]?.getD '\x00'

/-- The character under the cursor, which at the end is NUL. -/
def current (c : Cursor) : Char := c.peek 0

/-- The cursor after one more character. -/
def advance (c : Cursor) : Cursor :=
  match c.rest with
  | [] => c
  | x :: rest => ⟨rest, c.offset + x.utf8Size, c.position.after x rest⟩

/-- The cursor after `n` more characters, or at the end if there are fewer. -/
def advanceBy (c : Cursor) : Nat → Cursor
  | 0 => c
  | n + 1 => if c.rest.isEmpty then c else c.advance.advanceBy n

/-- How many characters in a row satisfy a test. -/
def countWhile (c : Cursor) (p : Char → Bool) : Nat := (c.rest.takeWhile p).length

/-- Whether the unread text starts with a text. -/
def startsWith (c : Cursor) (text : List Char) : Bool := text.isPrefixOf c.rest

/-- The range from one cursor to a later one. -/
def rangeTo (c stop : Cursor) : SourceRange :=
  ⟨⟨c.offset, stop.offset⟩, c.position, stop.position⟩

/-- The token that covers everything from one cursor to a later one. -/
def tokenTo (c stop : Cursor) (symbol : Symbol) : Token := .covering symbol (c.rangeTo stop)

/-- The token of no width at the cursor. -/
def emptyToken (c : Cursor) (symbol : Symbol) : Token := .empty symbol c.offset c.position

@[simp] theorem rest_advance (c : Cursor) : c.advance.rest = c.rest.drop 1 := by
  unfold advance
  split <;> simp_all

@[simp] theorem rest_advanceBy (c : Cursor) (n : Nat) : (c.advanceBy n).rest = c.rest.drop n := by
  induction n generalizing c with
  | zero => simp [advanceBy]
  | succ n ih =>
    rw [advanceBy]
    split
    · simp_all
    · rw [ih, rest_advance, List.drop_drop, Nat.add_comm]

/-- Stepping over one character is reading it. -/
theorem advanceBy_one (c : Cursor) : c.advanceBy 1 = c.advance := by
  cases hRest : c.rest with
  | nil => simp [advanceBy, advance, hRest]
  | cons x rest => simp [advanceBy, hRest]

/-- Where something is left, one step goes over the character there. -/
theorem advance_of_ne_nil {c : Cursor} (h : c.rest ≠ []) :
    c.advance = ⟨c.rest.tail, c.offset + c.current.utf8Size,
      c.position.after c.current c.rest.tail⟩ := by
  obtain ⟨x, rest, hRest⟩ := List.exists_cons_of_ne_nil h
  simp [advance, current, peek, hRest]

/-- Reading `m` characters and then `n` is reading `m + n`. -/
theorem advanceBy_advanceBy (c : Cursor) (m n : Nat) :
    (c.advanceBy m).advanceBy n = c.advanceBy (m + n) := by
  induction m generalizing c with
  | zero => simp [advanceBy]
  | succ m ih =>
    rw [Nat.add_right_comm, advanceBy, advanceBy]
    split
    · cases n <;> simp_all [advanceBy]
    · exact ih _

end Cursor

end Precedence
