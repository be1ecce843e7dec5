import Precedence.Proofs.Session.Step

/-!
What can be done with a session, be it by the library's constructs or by others. Tokens are looked
at, however far ahead, and consumed in order; nodes and messages are added and never taken away. The
tokens that have not been looked at become fewer from the front and are otherwise left alone.
-/
namespace Precedence

open Relation

namespace Session

/-- Something that is done with a session: a token is looked at or consumed, or there is some work
on the tree and the messages. -/
inductive Use : Session → Session → Prop
  | lookahead (s : Session) (place : Nat) : Use s (s.lookahead place).2
  | consume (s : Session) : Use s s.consume.2
  | work {s t : Session} (hContinues : s.Continues t) (hAhead : t.ahead = s.ahead)
      (hUpcoming : t.upcoming = s.upcoming) : Use s t

/-- Whatever is done with a session, in any number of turns. -/
abbrev Uses : Session → Session → Prop := ReflTransGen Use

variable {s t : Session}

theorem Use.continues (h : s.Use t) : s.Continues t := by
  cases h with
  | lookahead place => exact s.continues_lookahead place
  | consume => exact s.continues_consume
  | work hContinues => exact hContinues

theorem Uses.continues (h : s.Uses t) : s.Continues t := by
  induction h with
  | refl => exact .refl s
  | tail _ hLast ih => exact ih.trans hLast.continues

theorem Use.upcoming (h : s.Use t) : t.upcoming <:+ s.upcoming := by
  cases h with
  | lookahead => exact s.upcoming_revealMany_suffix _
  | consume =>
      rw [consume_eq]
      exact s.upcoming_revealMany_suffix _
  | work _ _ hUpcoming => exact hUpcoming ▸ List.suffix_rfl

theorem Uses.upcoming (h : s.Uses t) : t.upcoming <:+ s.upcoming := by
  induction h with
  | refl => exact List.suffix_rfl
  | tail _ hLast ih => exact hLast.upcoming.trans ih

theorem Move.uses (h : s.Move t) : s.Uses t := by
  cases h with
  | look => exact .single (.lookahead s 0)
  | consume => exact .single (.consume s)

theorem Moves.uses (h : s.Moves t) : s.Uses t := by
  induction h with
  | refl => exact .refl
  | tail _ hLast ih => exact ih.trans hLast.uses

end Session

namespace Grammar

open Session

variable {g : Grammar} {s t : Session}

/-- The library's constructs do nothing else. -/
theorem Step.uses (h : g.Step s t) : s.Uses t := by
  have hContinues := h.continues
  cases h with
  | move hMove => exact hMove.uses
  | passOver _ hMoves range =>
      have hSkipped : s.Uses _ := .head (.lookahead s 0) (Moves.uses hMoves)
      exact hSkipped.tail (.work (continues_alloc _ _ range) rfl rfl)
  | fault | alloc | name | setRange | flag | reject | spare =>
      exact .single (.work hContinues rfl rfl)

theorem Run.uses (h : g.Run s t) : s.Uses t := by
  induction h with
  | refl => exact .refl
  | tail _ hLast ih => exact ih.trans hLast.uses

end Grammar

end Precedence
