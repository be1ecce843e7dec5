import Precedence.Proofs.Diagnostic.Lines
import Precedence.Proofs.Lexer.Partition

/-!
Where a lexer can be moved to. It is moved over characters, or on to the end of its next token, in
any order. The places that it gets to in this way are boundaries between characters of its source,
and the offset of such a place says what the line and the column are: they are those of reading the
source up to there, and between a carriage return and its line feed those of reading it up to the
carriage return. A step over a character adds one to a column or to a line or to none, so neither
outgrows a counter on a source that is not much longer than the counter can count.
-/
namespace Precedence

/-! ### Offsets -/

namespace Text

/-- Every character takes a byte at least. -/
theorem length_le_byteLength (cs : List Char) : cs.length ≤ byteLength cs := by
  induction cs with
  | nil => simp
  | cons c cs ih =>
      have hPos := Char.utf8Size_pos c
      simp only [List.length_cons, byteLength_cons]
      omega

/-- What stands behind the first bytes of a text is an end of it, and they are the bytes of what is
in front. -/
theorem exists_append_of_dropBytes? {n : Nat} {cs rest : List Char}
    (h : dropBytes? n cs = some rest) : ∃ front, cs = front ++ rest ∧ byteLength front = n := by
  fun_induction dropBytes? n cs with
  | case1 cs =>
      cases h
      exact ⟨[], by simp⟩
  | case2 => cases h
  | case3 n c cs hFits ih =>
      obtain ⟨front, rfl, hFront⟩ := ih h
      refine ⟨c :: front, by simp, ?_⟩
      rw [byteLength_cons, hFront]
      omega
  | case4 => cases h

/-- Fronts of one text that are equally long in bytes are equal. -/
theorem eq_of_append_eq {front front' rest rest' : List Char}
    (h : front ++ rest = front' ++ rest') (hLength : byteLength front = byteLength front') :
    front = front' ∧ rest = rest' := by
  induction front generalizing front' with
  | nil =>
      cases front' with
      | nil => simpa using h
      | cons c front' =>
          have hPos := Char.utf8Size_pos c
          simp only [byteLength_nil, byteLength_cons] at hLength
          omega
  | cons c front ih =>
      cases front' with
      | nil =>
          have hPos := Char.utf8Size_pos c
          simp only [byteLength_nil, byteLength_cons] at hLength
          omega
      | cons d front' =>
          simp only [List.cons_append, List.cons.injEq] at h
          obtain ⟨rfl, hRest⟩ := h
          simpa using ih hRest (by simpa using hLength)

/-- An offset is inside a line break exactly if the text ends there with a carriage return and goes
on with a line feed. -/
theorem splitsPair_append_iff {text rest : List Char} :
    SplitsPair (text ++ rest) (byteLength text) ↔
      text.getLast? = some '\r' ∧ rest.head? = some '\n' := by
  constructor
  · intro h
    have hSome : byteLength text ≠ 0 := by
      intro hNone
      rw [hNone] at h
      exact not_splitsPair_zero _ h
    have hReturn : byteLength ['\r'] = 1 := by decide
    simp only [SplitsPair, slice?] at h
    split at h
    · obtain ⟨tail, hDrop, hTake⟩ := Option.bind_eq_some_iff.mp h
      obtain ⟨front, hFront, hLength⟩ := exists_append_of_dropBytes? hDrop
      obtain ⟨after, rfl⟩ := prefix_of_takeBytes? hTake
      have hEnds : byteLength text = byteLength (front ++ ['\r']) := by
        rw [byteLength_append, hLength, hReturn]
        omega
      have hSplit : text ++ rest = front ++ ['\r'] ++ '\n' :: after := by simp [hFront]
      obtain ⟨rfl, rfl⟩ := eq_of_append_eq hSplit hEnds
      simp
    · cases h
  · rintro ⟨hReturn, hFeed⟩
    exact splitsPair_of_append hReturn hFeed

end Text

/-! ### Positions -/

namespace Position

/-- A step over one character adds at most one to the line or to the column. -/
theorem after_le (p : Position) (c : Char) (rest : List Char) (h : 1 ≤ p.column) :
    1 ≤ (p.after c rest).column ∧ p.line ≤ (p.after c rest).line ∧
      (p.after c rest).line + (p.after c rest).column ≤ p.line + p.column + 1 := by
  unfold after
  split
  · omega
  · split
    · simp only
      omega
    · simp only
      omega

/-- So does a text for each of its characters. -/
theorem reading_le (p : Position) (text rest : List Char) (h : 1 ≤ p.column) :
    1 ≤ (p.reading text rest).column ∧ p.line ≤ (p.reading text rest).line ∧
      (p.reading text rest).line + (p.reading text rest).column ≤
        p.line + p.column + text.length := by
  induction text generalizing p with
  | nil => simp [reading, h]
  | cons c text ih =>
      have hStep := p.after_le c (text ++ rest) h
      have hRest := ih (p.after c (text ++ rest)) hStep.1
      simp only [reading, List.length_cons]
      omega

/-- A text that is short enough is read within the limits of the counters. -/
theorem advance?_eq_some {p : Position} {text : List Char} (h : 1 ≤ p.column)
    (hShort : p.line + p.column + text.length ≤ counterLimit) :
    p.advance? text = some (p.advance text) := by
  induction text generalizing p with
  | nil => rfl
  | cons c text ih =>
      have hStep := p.after_le c text h
      rw [List.length_cons] at hShort
      rw [advance?, if_pos (by omega), advance_cons]
      exact ih hStep.1 (by omega)

/-- Between a carriage return and its line feed the position is the one in front of both. -/
theorem reading_of_splitsPair (p : Position) {text rest : List Char}
    (hReturn : text.getLast? = some '\r') (hFeed : rest.head? = some '\n') :
    p.reading text rest = p.advance text.dropLast := by
  obtain ⟨before, rfl⟩ := List.getLast?_eq_some_iff.mp hReturn
  have hApart : before.getLast? = some '\r' → (['\r'] ++ rest).head? ≠ some '\n' := by simp
  have hStill : (p.advance before).reading ['\r'] rest = p.advance before := by
    simp [reading, after, hFeed]
  rw [reading_append, p.reading_eq_advance hApart, hStill, List.dropLast_concat]

end Position

/-! ### Calls -/

namespace Lexer

/-- Something that moves a lexer: over characters, or on to the end of the next token. -/
inductive Call where
  | advance
  | advanceBy (count : Nat)
  | advanceWhile (test : Char → Bool)
  | advanceIf (text : List Char)
  | skipInvalid
  | next

/-- The lexer after a call. -/
def perform (l : Lexer) : Call → Lexer
  | .advance => l.advance.2
  | .advanceBy count => l.advanceBy count
  | .advanceWhile test => (l.advanceWhile test).2
  | .advanceIf text => (l.advanceIf text).2
  | .skipInvalid => l.skipInvalid
  | .next => l.next.2

/-- The lexer after calls one behind the other. -/
def performAll (l : Lexer) (calls : List Call) : Lexer := calls.foldl perform l

variable {l : Lexer} {source : List Char}

theorem isPlaced_next (h : l.cursor.IsPlaced source) : l.next.2.cursor.IsPlaced source := by
  have hSkipped := (l.lexicon.skips_skip l.cursor).isPlaced h
  unfold next
  split
  · simp only [Lexicon.next]
    split
    · exact hSkipped
    · exact hSkipped.advanceBy _
  · exact h

/-- Every call leads from one place that was reached by reading the source to another. -/
theorem isPlaced_perform (h : l.cursor.IsPlaced source) (call : Call) :
    (l.perform call).cursor.IsPlaced source := by
  cases call with
  | advance | skipInvalid => exact h.advance
  | advanceBy | advanceWhile => exact h.advanceBy _
  | advanceIf text =>
      simp only [perform, advanceIf]
      split
      · exact h.advanceBy _
      · exact h
  | next => exact isPlaced_next h

theorem isPlaced_performAll (h : l.cursor.IsPlaced source) (calls : List Call) :
    (l.performAll calls).cursor.IsPlaced source := by
  induction calls generalizing l with
  | nil => exact h
  | cons call calls ih => exact ih (isPlaced_perform h call)

/-- Whatever calls are made of a lexer at the start of a source, its offset is a boundary of the
source and determines the position. That is the position of the text up to there, or up to the
carriage return if the offset is between one and its line feed. Beyond the first line and column the
position counts no more than the characters of that text; so on a source of less than `2 ^ 32 - 2`
bytes every counter keeps its limit, also one column further, where the end of a character that
starts no token is reckoned to be. -/
theorem position_of_calls (lx : Lexicon) (source : List Char) (calls : List Call) :
    let c := ((ofSource lx source).performAll calls).cursor
    ∃ text, Text.takeBytes? c.offset source = some text ∧ c.offset ≤ Text.byteLength source ∧
      c.position = Position.origin.advance
        (if Text.SplitsPair source c.offset then text.dropLast else text) ∧
      1 ≤ c.position.line ∧ 1 ≤ c.position.column ∧
      (c.position.line - 1) + (c.position.column - 1) ≤ text.length ∧
      (Text.byteLength source < 4294967294 →
        c.offset ≤ Span.offsetLimit ∧ c.position.line ≤ Position.counterLimit ∧
          c.position.column + 1 ≤ Position.counterLimit ∧
          Position.origin.advance? text = some (Position.origin.advance text)) := by
  intro c
  obtain ⟨text, hSource, hOffset, hPosition⟩ :=
    isPlaced_performAll (l := ofSource lx source) (Cursor.isPlaced_ofSource source) calls
  change source = text ++ c.rest at hSource
  change c.offset = Text.byteLength text at hOffset
  change c.position = Position.origin.reading text c.rest at hPosition
  have hBound := Position.origin.reading_le text c.rest (Nat.le_refl 1)
  rw [← hPosition] at hBound
  have hOrigin : Position.origin.line = 1 ∧ Position.origin.column = 1 := ⟨rfl, rfl⟩
  have hChars := Text.length_le_byteLength text
  have hBytes : Text.byteLength source = Text.byteLength text + Text.byteLength c.rest := by
    rw [hSource, Text.byteLength_append]
  refine ⟨text, ?_, by omega, ?_, by omega, by omega, by omega, fun hShort => ?_⟩
  · rw [hOffset, hSource]
    exact Text.takeBytes?_byteLength_append text c.rest
  · rw [hPosition, hOffset, hSource]
    split
    · next hSplits =>
      obtain ⟨hReturn, hFeed⟩ := Text.splitsPair_append_iff.mp hSplits
      exact Position.origin.reading_of_splitsPair hReturn hFeed
    · next hWhole =>
      exact Position.origin.reading_eq_advance fun hReturn hFeed =>
        hWhole (Text.splitsPair_of_append hReturn hFeed)
  · have hLimit : Position.counterLimit = 4294967295 := rfl
    have hOffsetLimit : Span.offsetLimit = 4294967295 := rfl
    refine ⟨by omega, by omega, by omega, ?_⟩
    exact Position.advance?_eq_some (Nat.le_refl 1) (by omega)

/-- Between a carriage return and its line feed the line has not ended yet. -/
example :
    ((ofSource .empty "a\r\nb".toList).performAll [.advanceBy 2]).cursor.position = ⟨1, 2⟩ := by
  decide +kernel

end Lexer

end Precedence
