import Precedence.Text.Bytes
import Precedence.Text.Radix

/-!
Escape sequences in the content of string literals. An escape character makes something else of
what follows it: of itself, of one of seven letters and signs, or of a code point in hexadecimal
after `u`, which has four digits or any number of them in braces. Whatever else follows, or
nothing, makes a bad escape; it reads as U+FFFD and is listed with its place.
-/
namespace Precedence

/-- A bad escape, by its place in the content, in bytes, and its text. -/
structure InvalidEscape where
  offset : Nat
  sequence : List Char
deriving DecidableEq, Inhabited

/-- The length of a bad escape, in bytes. -/
def InvalidEscape.length (e : InvalidEscape) : Nat := Text.byteLength e.sequence

/-- What a content denotes, and the bad escapes in it, in order. -/
structure Unescaped where
  value : List Char
  errors : List InvalidEscape
deriving DecidableEq, Inhabited

namespace Escape

/-- The meaning of the letters and signs that stand for one character after any escape
character. -/
def simple? : Char → Option Char
  | 'n' => some '\n'
  | 't' => some '\t'
  | 'r' => some '\r'
  | '0' => some '\x00'
  | '\\' => some '\\'
  | '"' => some '"'
  | '\'' => some '\''
  | _ => none

/-- What reads as the character that a bad escape leaves behind. -/
def replacement : Char := '\uFFFD'

/-- The character of a code point in hexadecimal. A surrogate is no character. -/
def codePoint? (digits : List Char) : Option Char :=
  (Radix.hexadecimal.read? digits).bind fun n =>
    if n.isValidChar then some (Char.ofNat n) else none

/-- A sequence after the escape character: how many characters belong to it, and what it stands
for. -/
structure Reading where
  width : Nat
  value : Option Char
deriving DecidableEq

/-- The code point after `u`. In braces it goes up to the closing brace, or to the end of the
content without one; otherwise it has exactly four digits, and fewer belong to a bad escape. -/
def readCodePoint : List Char → Reading
  | '\x7b' :: rest =>
    let digits := rest.takeWhile (· != '\x7d')
    let closing := if digits.length < rest.length then 1 else 0
    ⟨1 + digits.length + closing, codePoint? digits⟩
  | rest =>
    let digits := (rest.take 4).takeWhile Radix.hexadecimal.isDigit
    ⟨digits.length, if digits.length = 4 then codePoint? digits else none⟩

/-- The sequence that follows an escape character. -/
def read (escape : Char) : List Char → Reading
  | [] => ⟨0, none⟩
  | c :: rest =>
    if c = escape then ⟨1, some escape⟩
    else match simple? c with
      | some value => ⟨1, some value⟩
      | none =>
        if c = 'u' then
          let point := readCodePoint rest
          ⟨1 + point.width, point.value⟩
        else ⟨1, none⟩

/-- What a content denotes, when it starts at an offset of the whole. -/
def resolveFrom (escape : Char) (offset : Nat) : List Char → Unescaped
  | [] => ⟨[], []⟩
  | c :: rest =>
    if c = escape then
      let reading := read escape rest
      let sequence := c :: rest.take reading.width
      let later :=
        resolveFrom escape (offset + Text.byteLength sequence) (rest.drop reading.width)
      match reading.value with
      | some value => { later with value := value :: later.value }
      | none => ⟨replacement :: later.value, ⟨offset, sequence⟩ :: later.errors⟩
    else
      let later := resolveFrom escape (offset + c.utf8Size) rest
      { later with value := c :: later.value }
termination_by cs => cs.length
decreasing_by
  · simp only [List.length_drop, List.length_cons]
    omega
  · simp

end Escape

/-- What a content denotes under an escape character. -/
def unescape (escape : Char) (content : List Char) : Unescaped :=
  Escape.resolveFrom escape 0 content

end Precedence
