import Precedence.Lexer.Basic
import Precedence.Proofs.Lexer.Layout

/-!
Iterating a lexer. What it yields one by one is what reading a source finds at once: the start of
the input and then the tokens of the source up to the end, with the same messages on the way. A
character that starts no token is left unread by the token that is made of it, and the iteration
steps over it.
-/
namespace Precedence

namespace Lexer

/-- A lexer yields some tokens one by one and then nothing more, and comes to a last state. -/
inductive Yields : Lexer → List Token → Lexer → Prop
  | done {l m : Lexer} (hNone : l.yield? = (none, m)) : Yields l [] m
  | next {l m n : Lexer} {τ : Token} {tokens : List Token} (hFirst : l.yield? = (some τ, m))
      (hRest : Yields m tokens n) : Yields l (τ :: tokens) n

/-- A lexer that has yielded the end of the input yields no more. -/
theorem yields_nil_of_finished {l : Lexer} (h : l.finished = true) : l.Yields [] l := by
  apply Yields.done
  rw [yield?, if_pos h]

/-- The next token of a lexer, and the lexer behind all that is done with then. The character of an
invalid token is stepped over. -/
def pull (l : Lexer) : Token × Lexer :=
  let (token, l) := l.next
  (token, if token.symbol = .invalid then l.skipInvalid else l)

theorem yield?_eq (l : Lexer) :
    l.yield? = if l.finished then (none, l)
      else (some l.pull.1, { l.pull.2 with finished := l.pull.1.symbol == .eof }) := rfl

variable {lx : Lexicon} {c : Cursor} {finished : Bool} (d : Diagnostics)

/-- The first token of a lexer is the start of the input. -/
theorem pull_of_not_started :
    (Lexer.mk lx c false finished d).pull = (c.emptyToken .sof, ⟨lx, c, true, finished, d⟩) := rfl

/-- Where nothing more can be read, the end of the input is found. -/
theorem pull_of_end (hEnd : (lx.skip c).1.rest = []) :
    (Lexer.mk lx c true finished d).pull =
      ((lx.skip c).1.emptyToken .eof,
        ⟨lx, (lx.skip c).1, true, finished, d.append (lx.skip c).2⟩) := by
  have hNext : lx.next c = (⟨(lx.skip c).1.emptyToken .eof, (lx.skip c).2⟩, (lx.skip c).1) := by
    simp [Lexicon.next, hEnd]
  simp only [pull, next, hNext, if_true]
  rfl

/-- Elsewhere the next token is found, and the lexer goes on behind all that is done with then. -/
theorem pull_of_more (hMore : (lx.skip c).1.rest ≠ []) :
    (Lexer.mk lx c true finished d).pull =
      ((lx.recognise (lx.skip c).1).token,
        ⟨lx, (lx.skip c).1.advanceBy (lx.recognise (lx.skip c).1).taken, true, finished,
          d.append ((lx.skip c).2 ++ (lx.recognise (lx.skip c).1).messages)⟩) := by
  have hNext : lx.next c =
      (⟨(lx.recognise (lx.skip c).1).token,
          (lx.skip c).2 ++ (lx.recognise (lx.skip c).1).messages⟩,
        (lx.skip c).1.advanceBy (lx.recognise (lx.skip c).1).width) := by
    simp [Lexicon.next, hMore]
  simp only [pull, next, hNext, if_true]
  by_cases hInvalid : (lx.recognise (lx.skip c).1).token.symbol = .invalid
  · simp [hInvalid, Recognition.taken, skipInvalid, advance, ← Cursor.advanceBy_one,
      Cursor.advanceBy_advanceBy]
  · simp [hInvalid, Recognition.taken]

/-- When the end of the input is yielded, the iteration is over. -/
theorem yield?_of_end (hEnd : (lx.skip c).1.rest = []) :
    (Lexer.mk lx c true false d).yield? =
      (some ((lx.skip c).1.emptyToken .eof),
        ⟨lx, (lx.skip c).1, true, true, d.append (lx.skip c).2⟩) := by
  rw [yield?_eq, pull_of_end d hEnd]
  rfl

theorem yield?_of_more (hMore : (lx.skip c).1.rest ≠ []) :
    (Lexer.mk lx c true false d).yield? =
      (some (lx.recognise (lx.skip c).1).token,
        ⟨lx, (lx.skip c).1.advanceBy (lx.recognise (lx.skip c).1).taken, true,
          (lx.recognise (lx.skip c).1).token.symbol == .eof,
          d.append ((lx.skip c).2 ++ (lx.recognise (lx.skip c).1).messages)⟩) := by
  rw [yield?_eq, pull_of_more d hMore]
  rfl

/-- A lexer at work yields the tokens that are read from its cursor on, up to the first end of the
input, and adds their messages to its own. -/
theorem exists_yields_of_reads {lexemes : List Lexeme} (h : lx.Reads c lexemes) :
    ∃ l, (Lexer.mk lx c true false d).Yields ((Lexeme.upToEnd lexemes).map (·.token)) l ∧
      l.diagnostics.toList =
        d.toList ++ (Lexeme.upToEnd lexemes).flatMap (·.messages) := by
  induction h generalizing d with
  | @ending c hEnd =>
      refine ⟨_, .next (yield?_of_end d hEnd) (yields_nil_of_finished rfl), ?_⟩
      simp [Lexeme.upToEnd, Diagnostics.toList, Diagnostics.append, Cursor.emptyToken, Token.empty,
        Token.covering]
  | @next c lexemes hMore hRest ih =>
      have hFirst := yield?_of_more d hMore
      by_cases hEnd : (lx.recognise (lx.skip c).1).token.symbol = .eof
      · rw [hEnd] at hFirst
        simp only [Lexeme.upToEnd, hEnd, if_true]
        refine ⟨_, .next hFirst (yields_nil_of_finished rfl), ?_⟩
        simp [Diagnostics.toList, Diagnostics.append]
      · rw [beq_false_of_ne hEnd] at hFirst
        simp only [Lexeme.upToEnd, hEnd, if_false]
        obtain ⟨l, hYields, hMessages⟩ := ih
          (d.append ((lx.skip c).2 ++ (lx.recognise (lx.skip c).1).messages))
        refine ⟨l, .next hFirst hYields, ?_⟩
        rw [hMessages]
        simp [Diagnostics.toList, Diagnostics.append]

/-- Iterating a lexer from the start of a source yields its stream and reports what is in it. -/
theorem exists_yields (lx : Lexicon) (source : List Char) :
    ∃ l, (ofSource lx source).Yields ((lx.stream source).map (·.token)) l ∧
      l.diagnostics.toList = (lx.stream source).flatMap (·.messages) := by
  obtain ⟨l, hYields, hMessages⟩ := exists_yields_of_reads .empty (lx.reads_lexemes source)
  exact ⟨l, .next rfl hYields, hMessages⟩

end Lexer

/-! ### Ordinary lexicons -/

/-- Lexemes of which only the last is the end of the input go up to the end. -/
theorem Lexeme.upToEnd_concat {body : List Lexeme} {last : Lexeme}
    (hBody : ∀ lexeme ∈ body, lexeme.token.symbol ≠ .eof) (hLast : last.token.symbol = .eof) :
    upToEnd (body ++ [last]) = body ++ [last] := by
  induction body with
  | nil => simp [upToEnd, hLast]
  | cons lexeme body ih =>
      obtain ⟨hFirst, hRest⟩ := List.forall_mem_cons.mp hBody
      simp [upToEnd, hFirst, ih hRest]

/-- An ordinary lexicon finds the end of the input nowhere else, so all its lexemes are yielded. -/
theorem Lexicon.IsOrdinary.stream_eq {lx : Lexicon} (h : lx.IsOrdinary) (source : List Char) :
    lx.stream source = ⟨.empty .sof 0 .origin, []⟩ :: lx.lexemes source := by
  obtain ⟨body, last, hAll, hLast, hFound⟩ := lx.exists_lexemes_eq source
  have hBody : ∀ lexeme ∈ body, lexeme.token.symbol ≠ .eof := by
    intro lexeme hMem
    obtain ⟨c, hFinds⟩ := hFound lexeme hMem
    rw [hFinds.token]
    exact (h.recognises c).symbol_ne_eof
  have hStart : (Token.empty .sof 0 .origin).symbol ≠ .eof := by decide
  rw [stream, hAll, ← List.cons_append]
  apply Lexeme.upToEnd_concat _ hLast
  intro lexeme hMem
  rcases List.mem_cons.mp hMem with rfl | hLater
  · exact hStart
  · exact hBody lexeme hLater

end Precedence
