import Precedence.Proofs.Escape
import Precedence.Proofs.Lexer.Tokens
import Precedence.Source.Range

/-!
Positions and offsets. The position at an offset is found by reading the text up to there. Reading
it in parts leads to the same place, unless a part ends between a carriage return and its line feed;
so that is the one place where a position that was carried along can differ.
-/
namespace Precedence

namespace Position

/-- The position after a text when `rest` follows it. -/
def reading (p : Position) : List Char → List Char → Position
  | [], _ => p
  | c :: text, rest => (p.after c (text ++ rest)).reading text rest

/-- Reading a text is reading its front, with the rest in view, and then the rest. -/
theorem advance_append (p : Position) (text rest : List Char) :
    p.advance (text ++ rest) = (p.reading text rest).advance rest := by
  induction text generalizing p with
  | nil => rfl
  | cons c text ih => exact ih _

theorem reading_append (p : Position) (text more rest : List Char) :
    p.reading (text ++ more) rest = (p.reading text (more ++ rest)).reading more rest := by
  induction text generalizing p with
  | nil => rfl
  | cons c text ih =>
      rw [List.cons_append, reading, List.append_assoc, ih]
      rfl

/-- What follows a text does not matter unless the two cut a line break. -/
theorem reading_eq_advance (p : Position) {text rest : List Char}
    (hWhole : text.getLast? = some '\r' → rest.head? ≠ some '\n') :
    p.reading text rest = p.advance text := by
  induction text generalizing p with
  | nil => rfl
  | cons c text ih =>
      cases text with
      | nil =>
          have hAlone : p.after c ([] ++ rest) = p.after c [] := by
            by_cases hReturn : c = '\r'
            · subst hReturn
              simp [after, hWhole rfl]
            · simp [after, hReturn]
          rw [reading, hAlone]
          rfl
      | cons d text => exact ih _ fun hLast => hWhole (by rwa [List.getLast?_cons_cons])

/-- A text that ends no line in the middle of a line break is read on from its end. -/
theorem advance_advance (p : Position) {text rest : List Char}
    (hWhole : text.getLast? = some '\r' → rest.head? ≠ some '\n') :
    (p.advance text).advance rest = p.advance (text ++ rest) := by
  rw [advance_append, p.reading_eq_advance hWhole]

/-- The offset names a place in the source, and reading up to there leads to the position. -/
def IsOf (source : List Char) (offset : Nat) (p : Position) : Prop :=
  (Text.takeBytes? offset source).map origin.advance = some p

theorem isOf_append (text rest : List Char) :
    IsOf (text ++ rest) (Text.byteLength text) (origin.advance text) := by
  rw [IsOf, Text.takeBytes?_byteLength_append, Option.map_some]

theorem isOf_of_prefix {text source : List Char} (h : text <+: source) :
    IsOf source (Text.byteLength text) (origin.advance text) := by
  obtain ⟨rest, rfl⟩ := h
  exact isOf_append text rest

theorem isOf_origin (source : List Char) : IsOf source 0 origin := isOf_append [] source

end Position

/-- An offset is between a carriage return and the line feed that follows it. -/
def Text.SplitsPair (source : List Char) (offset : Nat) : Prop :=
  Text.slice? (offset - 1) (offset + 1) source = some ['\r', '\n']
deriving Decidable

theorem Text.splitsPair_of_append {text rest : List Char} (hReturn : text.getLast? = some '\r')
    (hFeed : rest.head? = some '\n') : Text.SplitsPair (text ++ rest) (Text.byteLength text) := by
  obtain ⟨before, rfl⟩ := List.getLast?_eq_some_iff.mp hReturn
  obtain ⟨after, rfl⟩ := List.head?_eq_some_iff.mp hFeed
  have hSlice := Text.slice?_append before ['\r', '\n'] after
  have hReturnSize : '\r'.utf8Size = 1 := by decide
  have hPairSize : Text.byteLength ['\r', '\n'] = 2 := by decide
  rw [hPairSize] at hSlice
  simpa [SplitsPair, hReturnSize] using hSlice

theorem Text.not_splitsPair_zero (source : List Char) : ¬ Text.SplitsPair source 0 := by
  intro hSplits
  rw [SplitsPair, slice?, if_pos (Nat.zero_le _)] at hSplits
  obtain ⟨rest, -, hTake⟩ := Option.bind_eq_some_iff.mp hSplits
  have hLength := byteLength_of_takeBytes? hTake
  revert hLength
  decide

/-! ### Ranges -/

/-- The positions of both ends of a range are those of their offsets in a source. -/
structure SourceRange.AgreesWith (r : SourceRange) (source : List Char) : Prop where
  start : r.start.IsOf source r.span.start
  stop : r.stop.IsOf source r.span.stop

namespace SourceRange

variable {r t : SourceRange} {source : List Char}

theorem agreesWith_synthetic (source : List Char) : synthetic.AgreesWith source :=
  ⟨Position.isOf_origin source, Position.isOf_origin source⟩

/-- Each end of a merged range is an end of one of the two. -/
theorem AgreesWith.merge (h : r.AgreesWith source) (h' : t.AgreesWith source) :
    (r.merge t).AgreesWith source := by
  unfold SourceRange.merge
  constructor
  · by_cases hFirst : t.span.start < r.span.start
    · simpa [hFirst] using h'.start
    · simpa [hFirst] using h.start
  · by_cases hLast : r.span.stop < t.span.stop
    · simpa [hLast] using h'.stop
    · simpa [hLast] using h.stop

end SourceRange

end Precedence
