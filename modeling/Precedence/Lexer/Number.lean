import Precedence.Lexer.Fault

/-!
The form of number literals. A literal is an optional minus sign, and then either a base mark with
digits of that base, or a decimal with an optional fraction and an optional exponent. Digits may be
separated, but a run of digits starts with a digit. What is read is the longest literal: a point or
an exponent mark that no digit follows is left alone, while a base mark is read even without
digits, which is the one fault a literal can have.
-/
namespace Precedence

/-- The characters that separate the parts of a number. -/
structure Separators where
  fraction : Char
  digit : Option Char
deriving DecidableEq, Inhabited

/-- A point before the fraction, and underscores between digits. -/
def Separators.standard : Separators := ⟨'.', some '_'⟩

/-- Which forms of number literals there are beyond plain decimal digits. -/
structure NumberFormat where
  hexadecimal : Bool
  binary : Bool
  fraction : Bool
  exponent : Bool
  negative : Bool
  separators : Separators
deriving DecidableEq, Inhabited

/-- The extent of a number literal, in characters, and the base whose digits are missing. -/
structure NumberExtent where
  width : Nat
  missing : Option Radix
deriving DecidableEq

namespace NumberFormat

/-- Whether a number literal starts here. A minus sign belongs to it only before a digit. -/
def starts (f : NumberFormat) : List Char → Bool
  | c :: rest => c.isDigit || (c == '-' && f.negative && (rest.head?.any Char.isDigit))
  | [] => false

/-- The digits at the front, with separators among and behind them. Without a digit in front there
are none. -/
def digitRun (f : NumberFormat) (isDigit : Char → Bool) (cs : List Char) : List Char :=
  if cs.head?.any isDigit then
    cs.takeWhile fun c => isDigit c || f.separators.digit == some c
  else []

/-- The base that is marked at the front. -/
def radix? (f : NumberFormat) : List Char → Option Radix
  | '0' :: mark :: _ =>
    if f.hexadecimal && (mark == 'x' || mark == 'X') then some .hexadecimal
    else if f.binary && (mark == 'b' || mark == 'B') then some .binary
    else none
  | _ => none

/-- The length of the fraction at the front, its separator included. -/
def fractionLength (f : NumberFormat) : List Char → Nat
  | point :: rest =>
    let digits := f.digitRun Char.isDigit rest
    if f.fraction && point == f.separators.fraction && !digits.isEmpty then 1 + digits.length
    else 0
  | [] => 0

/-- The length of the exponent at the front, its mark and sign included. -/
def exponentLength (f : NumberFormat) : List Char → Nat
  | mark :: rest =>
    let sign := if rest.head? = some '+' ∨ rest.head? = some '-' then 1 else 0
    let digits := f.digitRun Char.isDigit (rest.drop sign)
    if f.exponent && (mark == 'e' || mark == 'E') && !digits.isEmpty then
      1 + sign + digits.length
    else 0
  | [] => 0

/-- The length of the unsigned decimal at the front. -/
def decimalLength (f : NumberFormat) (cs : List Char) : Nat :=
  let whole := (f.digitRun Char.isDigit cs).length
  let fraction := f.fractionLength (cs.drop whole)
  whole + fraction + f.exponentLength (cs.drop (whole + fraction))

/-- The extent of the literal that starts here. -/
def extent (f : NumberFormat) (cs : List Char) : NumberExtent :=
  let sign := if cs.head? = some '-' then 1 else 0
  let body := cs.drop sign
  match f.radix? body with
  | some radix =>
    let digits := f.digitRun radix.isDigit (body.drop 2)
    ⟨sign + 2 + digits.length, if digits.isEmpty then some radix else none⟩
  | none => ⟨sign + f.decimalLength body, none⟩

end NumberFormat

end Precedence
