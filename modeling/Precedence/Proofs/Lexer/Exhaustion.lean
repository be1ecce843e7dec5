import Precedence.Proofs.Lexer.Iteration

/-!
How long iterating a lexer can go on. Rules of a user's own may apply without reading anything, and
they may make tokens of any kind; all the same every token between the start and the end of the
input gets the iteration on by a character. A rule that reads nothing is passed over, an identifier
takes its first character at least, and a character that starts no token is stepped over. So the
iteration over `n` characters ends after `n + 2` tokens at most.

A rule is a function of the cursor here. That leaves out nothing that a rule which remembers what it
was asked could do, because no rule is asked twice at one place while a lexer is iterated.
-/
namespace Precedence

namespace Lexer

/-- How many tokens a lexer can still yield: one for each character that is left, the end of the
input, and its start if that has not been found. -/
def budget (l : Lexer) : Nat :=
  if l.finished then 0 else l.cursor.rest.length + if l.started then 1 else 2

/-- Every token that is yielded uses up some of the budget. -/
theorem budget_lt_of_yield? {l m : Lexer} {τ : Token} (h : l.yield? = (some τ, m)) :
    m.budget < l.budget := by
  obtain ⟨lx, c, started, finished, d⟩ := l
  cases finished with
  | true => simp [yield?] at h
  | false =>
      cases started with
      | false =>
          have hStart : (Lexer.mk lx c false false d).yield? =
              (some (c.emptyToken .sof), ⟨lx, c, true, false, d⟩) := rfl
          rw [hStart] at h
          cases h
          simp [budget]
      | true =>
          by_cases hEnd : (lx.skip c).1.rest = []
          · rw [yield?_of_end d hEnd] at h
            cases h
            simp [budget]
          · -- Skipping may read nothing; what is recognised behind it takes a character at least.
            rw [yield?_of_more d hEnd] at h
            cases h
            have hLeft := List.length_pos_iff.mpr hEnd
            have hSkip : (lx.skip c).1.rest.length ≤ c.rest.length :=
              lx.length_rest_skipFrom_le [] c
            have hTaken := lx.taken_recognise_pos (lx.skip c).1
            simp only [budget, Cursor.rest_advanceBy, List.length_drop, if_true,
              Bool.false_eq_true, if_false]
            split <;> omega

/-- No iteration yields more than the budget. -/
theorem Yields.length_le {l m : Lexer} {tokens : List Token} (h : l.Yields tokens m) :
    tokens.length ≤ l.budget := by
  induction h with
  | done => simp
  | next hFirst _ ih =>
      have hLess := budget_lt_of_yield? hFirst
      simp only [List.length_cons]
      omega

/-- From every state on, iterating a lexer comes to an end. -/
theorem exists_yields_of_state (l : Lexer) : ∃ tokens m, l.Yields tokens m := by
  match hFirst : l.yield? with
  | (none, m) => exact ⟨[], m, .done hFirst⟩
  | (some τ, m) =>
      obtain ⟨tokens, n, hRest⟩ := exists_yields_of_state m
      exact ⟨τ :: tokens, n, .next hFirst hRest⟩
termination_by l.budget
decreasing_by exact budget_lt_of_yield? hFirst

/-- Whatever the rules of a lexicon do, iterating a lexer over a source comes to an end, and what it
yields by then is at most one token for each character and two more. -/
theorem exists_yields_length_le (lx : Lexicon) (source : List Char) :
    ∃ tokens l, (ofSource lx source).Yields tokens l ∧ tokens.length ≤ source.length + 2 := by
  obtain ⟨tokens, l, hYields⟩ := exists_yields_of_state (ofSource lx source)
  have hBudget : (ofSource lx source).budget = source.length + 2 := rfl
  exact ⟨tokens, l, hYields, hBudget ▸ hYields.length_le⟩

/-- Rules that apply everywhere and read nothing leave every character to a token of its own, and
the bound is reached. -/
example :
    let idle : Lexicon := ⟨.empty, [.custom fun c => some ⟨c.emptyToken .eof, 0, []⟩],
      [.custom fun _ => some ⟨0, []⟩], .custom (fun _ => false) fun _ => ⟨0, []⟩⟩
    (idle.stream "ab".toList).map (·.token.symbol) = [.sof, .invalid, .invalid, .eof] := by
  decide +kernel

end Lexer

end Precedence
