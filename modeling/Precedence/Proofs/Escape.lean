import Precedence.Escape
import Precedence.Token

/-!
Where the bad escapes of a content are: each covers some of the content, and none goes past its end.
-/
namespace Precedence

namespace Text

theorem byteLength_take_add_drop (cs : List Char) (n : Nat) :
    byteLength (cs.take n) + byteLength (cs.drop n) = byteLength cs := by
  rw [← byteLength_append, List.take_append_drop]

theorem byteLength_of_takeBytes? {n : Nat} {cs text : List Char}
    (h : takeBytes? n cs = some text) : byteLength text = n := by
  fun_induction takeBytes? n cs generalizing text with
  | case1 => cases h; rfl
  | case2 => cases h
  | case3 n c cs hFits ih =>
      obtain ⟨rest, hRest, rfl⟩ := Option.map_eq_some_iff.mp h
      rw [byteLength_cons, ih hRest]
      omega
  | case4 => cases h

/-- The text that a span covers is as long as the span, if there is any. -/
theorem byteLength_slice {span : Span} {source : List Char} (h : span.slice source ≠ []) :
    span.start + byteLength (span.slice source) = span.stop := by
  rw [Span.slice] at h ⊢
  cases hSlice : slice? span.start span.stop source with
  | none =>
      rw [hSlice] at h
      exact absurd rfl h
  | some text =>
      rw [slice?] at hSlice
      split at hSlice
      · next hLe =>
        obtain ⟨rest, -, hTake⟩ := Option.bind_eq_some_iff.mp hSlice
        rw [Option.getD_some, byteLength_of_takeBytes? hTake]
        omega
      · cases hSlice

end Text

namespace Escape

/-- A bad escape covers some of the content that it was found in. -/
theorem within_of_mem_errors {escape : Char} {offset : Nat} {content : List Char}
    {error : InvalidEscape} (h : error ∈ (resolveFrom escape offset content).errors) :
    0 < error.length ∧ offset ≤ error.offset ∧
      error.offset + error.length ≤ offset + Text.byteLength content := by
  fun_induction resolveFrom escape offset content with
  | case1 => cases h
  | case2 offset rest reading value hValue sequence later ih =>
      have hRest := Text.byteLength_take_add_drop rest reading.width
      obtain ⟨hSome, hStart, hStop⟩ := ih h
      simp only [sequence, Text.byteLength_cons] at hStart hStop ⊢
      omega
  | case3 offset rest reading hValue sequence later ih =>
      have hRest := Text.byteLength_take_add_drop rest reading.width
      have hWide := Char.utf8Size_pos escape
      rcases List.mem_cons.mp h with rfl | hLater
      · simp only [InvalidEscape.length, sequence, Text.byteLength_cons]
        omega
      · obtain ⟨hSome, hStart, hStop⟩ := ih hLater
        simp only [sequence, Text.byteLength_cons] at hStart hStop ⊢
        omega
  | case4 offset c rest hEscape later ih =>
      obtain ⟨hSome, hStart, hStop⟩ := ih h
      rw [Text.byteLength_cons]
      omega

/-- A bad escape is what stands at its offset, and starts with the escape character. -/
theorem exists_of_mem_errors {escape : Char} {offset : Nat} {content : List Char}
    {error : InvalidEscape} (h : error ∈ (resolveFrom escape offset content).errors) :
    ∃ before after, content = before ++ (error.sequence ++ after) ∧
      error.offset = offset + Text.byteLength before ∧ error.sequence.head? = some escape := by
  fun_induction resolveFrom escape offset content with
  | case1 => cases h
  | case2 offset rest reading value hValue sequence later ih =>
      obtain ⟨before, after, hContent, hOffset, hHead⟩ := ih h
      refine ⟨sequence ++ before, after, ?_, ?_, hHead⟩
      · rw [List.append_assoc, ← hContent, List.cons_append, List.take_append_drop]
      · rw [hOffset, Text.byteLength_append, Nat.add_assoc]
  | case3 offset rest reading hValue sequence later ih =>
      rcases List.mem_cons.mp h with rfl | hLater
      · refine ⟨[], rest.drop reading.width, ?_, rfl, rfl⟩
        rw [List.nil_append, List.cons_append, List.take_append_drop]
      · obtain ⟨before, after, hContent, hOffset, hHead⟩ := ih hLater
        refine ⟨sequence ++ before, after, ?_, ?_, hHead⟩
        · rw [List.append_assoc, ← hContent, List.cons_append, List.take_append_drop]
        · rw [hOffset, Text.byteLength_append, Nat.add_assoc]
  | case4 offset c rest hEscape later ih =>
      obtain ⟨before, after, rfl, hOffset, hHead⟩ := ih h
      refine ⟨c :: before, after, rfl, ?_, hHead⟩
      rw [hOffset, Text.byteLength_cons, Nat.add_assoc]

end Escape

/-- A bad escape in the payload of a token stands in the token's text. -/
theorem Token.within_of_mem_errors {token : Token} {source : List Char} {escape : Char}
    {error : InvalidEscape} (h : error ∈ (unescape escape (token.payload source)).errors) :
    0 < error.length ∧
      token.text.start + error.offset + error.length ≤ token.text.stop := by
  obtain ⟨hSome, -, hStop⟩ := Escape.within_of_mem_errors h
  have hContent : token.payload source ≠ [] := by
    intro hEmpty
    rw [hEmpty] at hStop
    simp only [Text.byteLength_nil] at hStop
    omega
  have hLength := Text.byteLength_slice hContent
  rw [Token.payload] at hStop
  exact ⟨hSome, by omega⟩

end Precedence
