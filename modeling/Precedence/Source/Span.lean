import Precedence.Text.Bytes

/-!
Byte ranges. A span is two offsets and nothing else: it may run backwards or past the end of any
text, and then it has no length, or no text.
-/
namespace Precedence

/-- A range of byte offsets, its end excluded. -/
structure Span where
  start : Nat
  stop : Nat
deriving DecidableEq, Inhabited

/-- Why two offsets make no span: an offset has to fit 32 bits. -/
inductive SpanError where
  | startTooLarge (offset : Nat)
  | endTooLarge (offset : Nat)
deriving DecidableEq

namespace Span

/-- The largest offset. -/
def offsetLimit : Nat := 4294967295

/-- The span between two offsets, each of which has to fit 32 bits. The start is examined first. -/
def ofOffsets (start stop : Nat) : Except SpanError Span :=
  if offsetLimit < start then .error (.startTooLarge start)
  else if offsetLimit < stop then .error (.endTooLarge stop)
  else .ok ⟨start, stop⟩

/-- The empty span at an offset. -/
def point (offset : Nat) : Span := ⟨offset, offset⟩

/-- The number of bytes, for a span that does not run backwards. -/
def length? (s : Span) : Option Nat := if s.start ≤ s.stop then some (s.stop - s.start) else none

/-- Whether both ends coincide. A span that runs backwards is not empty. -/
def isEmpty (s : Span) : Bool := s.start == s.stop

/-- Whether an offset lies in the span. -/
def contains (s : Span) (offset : Nat) : Bool := s.start ≤ offset && offset < s.stop

/-- The smallest span that covers two spans. -/
def merge (s t : Span) : Span := ⟨min s.start t.start, max s.stop t.stop⟩

/-- The characters that a span covers. They are none when the span does not fit the text. -/
def slice (s : Span) (source : List Char) : List Char :=
  (Text.slice? s.start s.stop source).getD []

/-- The span in the form `start..stop`. -/
def text (s : Span) : String := toString s.start ++ ".." ++ toString s.stop

end Span

namespace SpanError

/-- An offset in decimal and, in brackets, in upper-case hexadecimal. -/
private def offsetText (n : Nat) : String :=
  toString n ++ " (0x" ++ (String.ofList (Nat.toDigits 16 n)).toUpper ++ ")"

/-- The wording of a rejected offset. -/
def message : SpanError → String
  | .startTooLarge n => "span start " ++ offsetText n ++ " exceeds u32::MAX"
  | .endTooLarge n => "span end " ++ offsetText n ++ " exceeds u32::MAX"

end SpanError

end Precedence
