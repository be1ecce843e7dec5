import Precedence.Proofs.Source.Position

/-!
Reading a text in two parts. The second part is read from where the first one led, and that leads to
the same place as the whole text: always, but for a carriage return and its line feed that are in
different parts. They count for two line breaks then, and everything behind them is one line further
down.
-/
namespace Precedence.Position

/-- Starting some lines further down leads as many lines further down, to the same column. -/
theorem advance_shifted (p : Position) (n : Nat) (text : List Char) :
    advance ⟨p.line + n, p.column⟩ text =
      ⟨(p.advance text).line + n, (p.advance text).column⟩ := by
  induction text generalizing p with
  | nil => rfl
  | cons c text ih =>
      have hFirst : after ⟨p.line + n, p.column⟩ c text =
          ⟨(p.after c text).line + n, (p.after c text).column⟩ := by
        unfold after
        split
        · rfl
        · split
          · exact congrArg (Position.mk · 1) (Nat.add_right_comm _ _ _)
          · rfl
      rw [advance_cons, hFirst, ih, advance_cons]

/-- A line break that is divided between two parts counts twice. -/
theorem advance_divided (p : Position) (front back : List Char) :
    (p.advance (front ++ ['\r'])).advance ('\n' :: back) =
      ⟨(p.advance (front ++ '\r' :: '\n' :: back)).line + 1,
        (p.advance (front ++ '\r' :: '\n' :: back)).column⟩ := by
  have hApart (rest : List Char) : p.advance (front ++ '\r' :: rest) =
      (p.advance front).advance ('\r' :: rest) :=
    (p.advance_advance fun _ => by simp).symm
  rw [hApart, hApart]
  exact advance_shifted ⟨(p.advance front).line + 1, 1⟩ 1 back

/-- Two parts lead where the whole text leads, unless they divide a line break. -/
theorem advance_append_eq_iff (p : Position) (text rest : List Char) :
    p.advance (text ++ rest) = (p.advance text).advance rest ↔
      ¬(text.getLast? = some '\r' ∧ rest.head? = some '\n') := by
  constructor
  · rintro hSame ⟨hReturn, hFeed⟩
    obtain ⟨front, rfl⟩ := List.getLast?_eq_some_iff.mp hReturn
    obtain ⟨back, rfl⟩ := List.head?_eq_some_iff.mp hFeed
    rw [advance_divided, List.append_assoc] at hSame
    exact Nat.succ_ne_self _ (congrArg line hSame).symm
  · intro hWhole
    exact (p.advance_advance fun hReturn hFeed => hWhole ⟨hReturn, hFeed⟩).symm

/-- Counting within limits, a text leads to the same place in two parts and as a whole exactly if
the parts do not divide a line break. -/
theorem advance?_append_eq_iff {p middle last whole : Position} {text rest : List Char}
    (hWhole : p.advance? (text ++ rest) = some whole) (hText : p.advance? text = some middle)
    (hRest : middle.advance? rest = some last) :
    whole = last ↔ ¬(text.getLast? = some '\r' ∧ rest.head? = some '\n') := by
  rw [← advance_of_advance?_eq_some hWhole, ← advance_of_advance?_eq_some hRest,
    ← advance_of_advance?_eq_some hText]
  exact p.advance_append_eq_iff text rest

end Precedence.Position

namespace Precedence.Sample

open Position

/-- The divided line break of the second text shows in the line. -/
theorem advance?_append_eq_iff_dividedReturn :
    advance? ⟨7, 3⟩ "a\r\nbé".toList = some ⟨8, 3⟩ ∧ advance? ⟨7, 3⟩ "a\r".toList = some ⟨8, 1⟩ ∧
      advance? ⟨8, 1⟩ "\nbé".toList = some ⟨9, 3⟩ ∧
      ((⟨8, 3⟩ : Position) = ⟨9, 3⟩ ↔
        ¬("a\r".toList.getLast? = some '\r' ∧ "\nbé".toList.head? = some '\n')) := by
  have hWhole : advance? ⟨7, 3⟩ ("a\r".toList ++ "\nbé".toList) = some ⟨8, 3⟩ := by decide
  have hText : advance? ⟨7, 3⟩ "a\r".toList = some ⟨8, 1⟩ := by decide
  have hRest : advance? ⟨8, 1⟩ "\nbé".toList = some ⟨9, 3⟩ := by decide
  exact ⟨hWhole, hText, hRest, advance?_append_eq_iff hWhole hText hRest⟩

end Precedence.Sample
