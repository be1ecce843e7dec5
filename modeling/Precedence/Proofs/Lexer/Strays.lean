import Precedence.Proofs.Lexer.Positions
import Precedence.Proofs.Lexer.Sentinels

/-!
Where the token of a character that starts no token ends. The character stays unread when its token
is made, so the end is reckoned from the character alone: its bytes further, and one column further.
The lexer comes to that offset when it steps over the character. It comes to that position too
unless the character breaks a line: then it goes on in the next line, or it stays where it is before
the line feed that ends the line with the character.
-/
namespace Precedence

/-- A cursor is where a token ends. -/
structure Token.EndsAt (τ : Token) (c : Cursor) : Prop where
  offset : c.offset = τ.range.span.stop
  position : c.position = τ.range.stop

/-! ### One character -/

namespace Lexicon

variable {lx : Lexicon} {c : Cursor}

/-- The token of a character ends at its offset, and at its position if the line goes on with it. -/
theorem endsAt_recogniseInvalid (hMore : c.rest ≠ []) :
    c.advance.offset = (recogniseInvalid c).token.range.span.stop ∧
      ((recogniseInvalid c).token.EndsAt c.advance ↔
        IgnoreRule.isWithinLine c.current = true) := by
  have hAdvance := Cursor.advance_of_ne_nil hMore
  have hOffset : c.advance.offset = (recogniseInvalid c).token.range.span.stop := by
    rw [hAdvance]
    rfl
  refine ⟨hOffset, ?_⟩
  rw [← c.position.after_eq_iff c.current c.rest.tail]
  constructor
  · intro h
    have hPosition := h.position
    rwa [hAdvance] at hPosition
  · intro h
    refine ⟨hOffset, ?_⟩
    rw [hAdvance]
    exact h

/-- An invalid token is that of a character that starts no other, or it was read like any other
spelling because its kind has one. -/
theorem recognise_of_invalid (hBuiltIn : lx.isBuiltIn = true) (hMore : c.rest ≠ [])
    (hInvalid : (lx.recognise c).token.symbol = .invalid) :
    lx.recognise c = recogniseInvalid c ∨
      (∃ p ∈ lx.punctuators.entries, p.symbol = .invalid) ∧
        (lx.recognise c).token = c.tokenTo (c.advanceBy (lx.recognise c).width) .invalid := by
  rcases recognise_of_sentinel hBuiltIn hMore with ⟨p, hMem, hSymbol⟩ | hOther | hFound
  · rcases recognise_cases hBuiltIn hMore with
      ⟨rule, hLiteral, reading, hRule, hFound⟩ | ⟨n, symbol, hFound⟩ | hFound
    · rw [hFound] at hInvalid
      have hKind := LiteralRule.symbol_of_read? (isBuiltIn_of_mem_literals hBuiltIn rule hLiteral)
        hRule
      rw [hInvalid] at hKind
      exact absurd hKind (by decide)
    · refine .inr ⟨⟨p, hMem, hSymbol.trans hInvalid⟩, ?_⟩
      rw [hFound] at hInvalid ⊢
      obtain rfl : symbol = .invalid := hInvalid
      rfl
    · exact .inl hFound
  · rw [hInvalid] at hOther
    exact absurd (by decide) hOther
  · exact .inl hFound

end Lexicon

/-! ### One token -/

namespace Lexer

/-- A token that marks neither the start nor the end of the input was recognised behind what is
ignored, and the lexer has read what it takes. -/
theorem next_of_symbol {l : Lexer} (hStarted : l.started = true)
    (hSymbol : l.next.1.symbol ≠ .eof) :
    (l.lexicon.skip l.cursor).1.rest ≠ [] ∧
      l.next.1 = (l.lexicon.recognise (l.lexicon.skip l.cursor).1).token ∧
      l.next.2.cursor = (l.lexicon.skip l.cursor).1.advanceBy
        (l.lexicon.recognise (l.lexicon.skip l.cursor).1).width := by
  by_cases hEnd : (l.lexicon.skip l.cursor).1.rest = []
  · refine absurd ?_ hSymbol
    simp [next, hStarted, Lexicon.next, hEnd, Cursor.emptyToken, Token.empty, Token.covering]
  · simp [next, hStarted, Lexicon.next, hEnd]

/-- Wherever a lexer finds an invalid token, it finds it in one of two ways. The token is that of a
character that is still unread; then the lexer comes to its offset when it steps over the character,
and to its position as well exactly if the character breaks no line. Or the name of its kind is a
spelling, and the token was read like any other; then the lexer is at its end already, and leaves it
unless nothing is left. -/
theorem endsAt_skipInvalid {l : Lexer} (hBuiltIn : l.lexicon.isBuiltIn = true)
    (hInvalid : l.next.1.symbol = .invalid) :
    let τ := l.next.1
    let c := l.next.2.cursor
    let d := l.next.2.skipInvalid.cursor
    (c.rest ≠ [] ∧ c.offset = τ.range.span.start ∧ d.offset = τ.range.span.stop ∧
        (τ.EndsAt d ↔ IgnoreRule.isWithinLine c.current = true)) ∨
      (∃ p ∈ l.lexicon.punctuators.entries, p.symbol = .invalid) ∧ τ.EndsAt c ∧
        (τ.EndsAt d ↔ c.rest = []) := by
  intro τ c d
  have hStarted : l.started = true := by
    by_contra hFresh
    rw [symbol_next (Bool.not_eq_true _ ▸ hFresh)] at hInvalid
    cases hInvalid
  obtain ⟨hMore, hToken, hCursor⟩ := next_of_symbol hStarted (by rw [hInvalid]; decide)
  rw [hToken] at hInvalid
  rcases Lexicon.recognise_of_invalid hBuiltIn hMore hInvalid with hStray | ⟨hSpelled, hRead⟩
  · have hHere : c = (l.lexicon.skip l.cursor).1 := hCursor.trans (by rw [hStray]; rfl)
    have hFound : τ = (Lexicon.recogniseInvalid c).token := by
      rw [hHere, ← hStray]
      exact hToken
    rw [← hHere] at hMore
    rw [hFound]
    exact .inl ⟨hMore, rfl, Lexicon.endsAt_recogniseInvalid hMore⟩
  · right
    have hHere : τ.EndsAt c := by
      rw [← hToken, ← hCursor] at hRead
      exact ⟨congrArg (·.range.span.stop) hRead.symm, congrArg (·.range.stop) hRead.symm⟩
    refine ⟨hSpelled, hHere, fun hThere => ?_, fun hEnd => ?_⟩
    · by_contra hLeft
      have hLess := Cursor.offset_lt_advanceBy hLeft Nat.one_pos
      rw [Cursor.advanceBy_one, hHere.offset] at hLess
      exact absurd hThere.offset (Nat.ne_of_gt hLess)
    · have hStill : d = c := by simp [d, skipInvalid, advance, Cursor.advance, c, hEnd]
      rw [hStill]
      exact hHere

end Lexer

namespace Sample

/-- Without any rule the lexer finds an arrow and a line break invalid. The token of the arrow ends
where the lexer gets behind its three bytes, and that of the carriage return does not, since nothing
moves before the line feed. -/
theorem endsAt_skipInvalid_arrow :
    ∃ l m : Lexer, l = (Lexer.ofSource .empty "→\r\n".toList).next.2 ∧
      m = l.next.2.skipInvalid ∧ l.next.1.symbol = .invalid ∧ m.next.1.symbol = .invalid ∧
      l.next.1.EndsAt m.cursor ∧ m.cursor.offset = 3 ∧
      m.next.2.skipInvalid.cursor.offset = m.next.1.range.span.stop ∧
      ¬m.next.1.EndsAt m.next.2.skipInvalid.cursor := by
  let l := (Lexer.ofSource .empty "→\r\n".toList).next.2
  let m := l.next.2.skipInvalid
  have hNone : ¬∃ p ∈ Lexicon.empty.punctuators.entries, p.symbol = .invalid := by decide
  have hFirst : l.next.1.symbol = .invalid := by decide +kernel
  have hSecond : m.next.1.symbol = .invalid := by decide +kernel
  obtain ⟨-, -, -, hArrow⟩ :=
    (Lexer.endsAt_skipInvalid rfl hFirst).resolve_right fun h => hNone h.1
  obtain ⟨-, -, hOffset, hReturn⟩ :=
    (Lexer.endsAt_skipInvalid rfl hSecond).resolve_right fun h => hNone h.1
  refine ⟨l, m, rfl, rfl, hFirst, hSecond, hArrow.mpr (by decide +kernel), by decide +kernel,
    hOffset, fun hEnds => ?_⟩
  exact absurd (hReturn.mp hEnds) (by decide +kernel)

/-- A line feed that starts no token is stepped over into the next line, but its token ends in the
line that it breaks. -/
theorem not_endsAt_stray_feed :
    ∃ l : Lexer, l = (Lexer.ofSource .empty "\n".toList).next.2 ∧ l.lexicon.isBuiltIn = true ∧
      l.next.1.symbol = .invalid ∧ l.next.2.cursor.current = '\n' ∧
      l.next.1.range.stop = ⟨1, 2⟩ ∧ l.next.2.skipInvalid.cursor.position = ⟨2, 1⟩ ∧
      ¬l.next.1.EndsAt l.next.2.skipInvalid.cursor := by
  let l := (Lexer.ofSource .empty "\n".toList).next.2
  have hStop : l.next.1.range.stop = ⟨1, 2⟩ := by decide +kernel
  have hPosition : l.next.2.skipInvalid.cursor.position = ⟨2, 1⟩ := by decide +kernel
  refine ⟨l, rfl, rfl, by decide +kernel, by decide +kernel, hStop, hPosition, fun hEnds => ?_⟩
  have hSame := hEnds.position
  rw [hStop, hPosition] at hSame
  cases hSame

end Sample

end Precedence
