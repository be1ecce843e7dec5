import Precedence.Proofs.Session.Step

/-!
How far a parse sees. The tokens that have not been looked at become fewer from the front, and the
library's constructs never look further ahead than to the next token.
-/
namespace Precedence

namespace Session

variable {s t u : Session}

theorem peeked_of_ahead_eq_nil (h : s.ahead = []) : s.peeked = s.reveal := by
  change s.revealMany (0 + 1 - s.ahead.length) = s.reveal
  rw [h]
  rfl

theorem peeked_of_ahead_ne_nil (h : s.ahead ≠ []) : s.peeked = s := by
  have hLength := List.length_pos_iff.mpr h
  change s.revealMany (0 + 1 - s.ahead.length) = s
  rw [show 0 + 1 - s.ahead.length = 0 by omega]
  rfl

/-- From one session to another tokens may have been looked at, but no more than one of them ahead
if there were no more before. -/
structure Unfolds (s t : Session) : Prop where
  upcoming : t.upcoming <:+ s.upcoming
  ahead : s.ahead.length ≤ 1 → t.ahead.length ≤ 1

theorem Unfolds.refl (s : Session) : s.Unfolds s := ⟨List.suffix_rfl, id⟩

theorem Unfolds.trans (h : s.Unfolds t) (h' : t.Unfolds u) : s.Unfolds u :=
  ⟨h'.upcoming.trans h.upcoming, fun hLe => h'.ahead (h.ahead hLe)⟩

/-- What reports and makes nodes looks at no token. -/
theorem unfolds_of_eq (hAhead : t.ahead = s.ahead) (hUpcoming : t.upcoming = s.upcoming) :
    s.Unfolds t :=
  ⟨hUpcoming ▸ List.suffix_rfl, fun hLe => hAhead ▸ hLe⟩

theorem unfolds_peeked (s : Session) : s.Unfolds s.peeked := by
  refine ⟨s.upcoming_revealMany_suffix _, fun hLe => ?_⟩
  have hLength := s.length_ahead_revealMany (0 + 1 - s.ahead.length)
  change (s.revealMany (0 + 1 - s.ahead.length)).ahead.length ≤ 1
  omega

theorem unfolds_consume (s : Session) : s.Unfolds s.consume.2 := by
  refine s.unfolds_peeked.trans ?_
  rw [consume_eq]
  refine ⟨List.suffix_rfl, fun hLe => ?_⟩
  rw [List.length_drop]
  exact Nat.le_trans (Nat.sub_le _ _) hLe

theorem Move.unfolds (h : s.Move t) : s.Unfolds t := by
  cases h with
  | look => exact s.unfolds_peeked
  | consume => exact s.unfolds_consume

theorem Moves.unfolds (h : s.Moves t) : s.Unfolds t := by
  induction h with
  | refl => exact .refl s
  | tail _ hLast ih => exact ih.trans hLast.unfolds

/-- What has been looked at is the next token, if it is only one. -/
theorem eq_head_of_mem_ahead (hAhead : s.ahead.length ≤ 1) {τ : Token} (hMem : τ ∈ s.ahead) :
    τ = s.coming.head := by
  obtain ⟨first, rest, hList⟩ := List.exists_cons_of_ne_nil (List.ne_nil_of_mem hMem)
  rw [hList, List.length_cons] at hAhead
  obtain rfl : rest = [] := List.length_eq_zero_iff.mp (by omega)
  rw [hList] at hMem
  rw [List.mem_singleton.mp hMem, coming, hList, Stream'.cons_append_stream, Stream'.head_cons]

end Session

namespace Grammar

open Session

variable {g : Grammar} {s t : Session}

theorem Step.unfolds (h : g.Step s t) : s.Unfolds t := by
  cases h with
  | move hMove => exact hMove.unfolds
  | fault => exact unfolds_of_eq rfl rfl
  | alloc => exact unfolds_of_eq rfl rfl
  | name => exact unfolds_of_eq rfl rfl
  | setRange => exact unfolds_of_eq rfl rfl
  | flag => exact unfolds_of_eq rfl rfl
  | reject => exact unfolds_of_eq rfl rfl
  | spare => exact unfolds_of_eq rfl rfl
  | passOver _ hMoves =>
      exact (s.unfolds_peeked.trans (Moves.unfolds hMoves)).trans (unfolds_of_eq rfl rfl)

theorem Run.unfolds (h : g.Run s t) : s.Unfolds t := by
  induction h with
  | refl => exact .refl s
  | tail _ hLast ih => exact ih.trans hLast.unfolds

end Grammar

end Precedence
