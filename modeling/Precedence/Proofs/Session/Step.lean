import Mathlib.Logic.Relation
import Precedence.Grammar.Basic
import Precedence.Proofs.Arena.Growth
import Precedence.Proofs.Session.Coming

/-!
What the library's constructs can do to a session. Everything that parsing with them does is a run
of the few steps listed here, each with what is known when it is taken; in particular an invalid
node is only made where an error is reported with it, or where one has been reported before. A
property of all parses is proved by looking at the steps, and never again at the constructs.
-/
namespace Precedence

open Relation

/-- Asking for tokens, which are looked at or consumed. -/
inductive Session.Move : Session → Session → Prop
  | look (s : Session) : Move s s.peeked
  | consume (s : Session) : Move s s.consume.2

/-- Any number of questions for tokens. -/
abbrev Session.Moves : Session → Session → Prop := ReflTransGen Session.Move

/-- A token that makes an invalid node without a word, since the lexer has reported it: a character
that starts no token, or a number without digits. -/
def Grammar.IsSilent (g : Grammar) (source : List Char) (token : Token) : Prop :=
  token.symbol = .invalid ∨ ∃ separators, g.prefixFor? token.symbol = some (.number separators) ∧
    Numeral.parse separators (token.payload source) = .error .noDigits

namespace Grammar

/-- One thing that the library's constructs do to a session. -/
inductive Step (g : Grammar) : Session → Session → Prop
  | move {s t : Session} (h : s.Move t) : Step g s t
  | fault (s : Session) (f : SyntaxFault) (range : SourceRange) :
      Step g s (s.fault g.symbols f range).2
  | alloc (s : Session) {kind : NodeKind} (hValid : kind.isInvalid = false)
      (range : SourceRange) : Step g s (s.alloc kind range).2
  | name (s : Session) (token : Token) : Step g s (s.nameNode token).2
  | setRange (s : Session) (id : NodeId) (range : SourceRange) : Step g s (s.setRange id range)
  /-- A fault of a node, attached to it. -/
  | flag (s : Session) (f : SyntaxFault) (range : SourceRange) (id : NodeId) :
      Step g s ((s.fault g.symbols f range).2.attach id (s.fault g.symbols f range).1)
  /-- An invalid node for the token consumed last, with a fault attached. -/
  | reject (s : Session) (f : SyntaxFault) :
      Step g s (s.rejectedNode s.previous (f.message g.symbols s.previous.range)).2
  /-- An invalid node for the token consumed last, about which the lexer has reported. -/
  | spare (s : Session) (hSilent : g.IsSilent s.source s.previous) :
      Step g s (s.invalidNode s.previous).2
  /-- An invalid node for tokens that are passed over, because an error has been reported or the
  first of them is invalid. -/
  | passOver {s t : Session}
      (hReason : s.diagnostics.hasErrors = true ∨ s.coming.head.symbol = .invalid)
      (hMoves : s.peeked.Moves t) (range : SourceRange) :
      Step g s (t.alloc (.invalid s.coming.head.symbol) range).2

/-- Any number of steps. -/
abbrev Run (g : Grammar) : Session → Session → Prop := ReflTransGen g.Step

variable {g : Grammar} {s t : Session}

theorem Run.ofMoves (h : s.Moves t) : g.Run s t :=
  ReflTransGen.mono (fun _ _ hMove => Step.move hMove) _ _ h

theorem run_peeked (g : Grammar) (s : Session) : g.Run s s.peeked := .single (.move (.look s))

theorem run_consume (g : Grammar) (s : Session) : g.Run s s.consume.2 :=
  .single (.move (.consume s))

theorem run_expect (g : Grammar) (s : Session) (wanted : Symbol) :
    g.Run s (s.expect g.symbols wanted).2 := by
  rw [Session.expect_eq]
  split
  · exact run_consume g s
  · split
    · exact run_peeked g s
    · exact (run_peeked g s).tail (.fault _ _ _)

end Grammar

/-! ### What every run keeps -/

/-- One session goes on from another: the source is the same, tokens have been consumed from the
front, messages and nodes have been added. -/
structure Session.Continues (s t : Session) : Prop where
  source : t.source = s.source
  ending : t.ending = s.ending
  coming : ∃ n, t.coming = s.coming.drop n
  reported : s.diagnostics.toList <+: t.diagnostics.toList
  arena : s.arena.Extends t.arena

namespace Session

theorem Continues.refl (s : Session) : s.Continues s :=
  ⟨rfl, rfl, ⟨0, rfl⟩, List.prefix_rfl, .refl s.arena⟩

theorem Continues.trans {s t u : Session} (h : s.Continues t) (h' : t.Continues u) :
    s.Continues u := by
  obtain ⟨m, hm⟩ := h.coming
  obtain ⟨n, hn⟩ := h'.coming
  refine ⟨h'.source.trans h.source, h'.ending.trans h.ending, ⟨n + m, ?_⟩,
    h.reported.trans h'.reported, h.arena.trans h'.arena⟩
  rw [hn, hm, Stream'.drop_drop, Nat.add_comm]

theorem reported_revealMany (s : Session) (n : Nat) :
    s.diagnostics.toList <+: (s.revealMany n).diagnostics.toList := by
  induction n generalizing s with
  | zero => exact List.prefix_rfl
  | succ n ih =>
      refine List.IsPrefix.trans ?_ (ih s.reveal)
      unfold reveal
      split
      · exact List.prefix_rfl
      · simp [Diagnostics.toList, Diagnostics.append]

theorem continues_lookahead (s : Session) (n : Nat) : s.Continues (s.lookahead n).2 := by
  have hAlike := s.alike_lookahead n
  exact ⟨hAlike.source, hAlike.ending, ⟨0, hAlike.coming⟩, s.reported_revealMany _,
    hAlike.arena ▸ .refl s.arena⟩

theorem continues_peeked (s : Session) : s.Continues s.peeked := s.continues_lookahead 0

theorem continues_consume (s : Session) : s.Continues s.consume.2 := by
  refine ⟨s.source_consume, s.ending_consume, ⟨1, s.coming_consume⟩, ?_,
    s.arena_consume ▸ .refl s.arena⟩
  rw [consume_eq]
  exact s.continues_peeked.reported

theorem continues_report (s : Session) (m : Message) : s.Continues (s.report m).2 := by
  refine ⟨rfl, rfl, ⟨0, rfl⟩, ?_, .refl s.arena⟩
  exact ⟨[m], (Array.toList_push ..).symm⟩

theorem continues_alloc (s : Session) (kind : NodeKind) (range : SourceRange) :
    s.Continues (s.alloc kind range).2 :=
  ⟨rfl, rfl, ⟨0, rfl⟩, List.prefix_rfl, s.arena.extends_alloc kind range⟩

theorem continues_attach (s : Session) (id : NodeId) (message : MessageId) :
    s.Continues (s.attach id message) :=
  ⟨rfl, rfl, ⟨0, rfl⟩, List.prefix_rfl, s.arena.extends_attach id message⟩

theorem continues_nameNode (s : Session) (token : Token) : s.Continues (s.nameNode token).2 :=
  ⟨rfl, rfl, ⟨0, rfl⟩, List.prefix_rfl,
    (s.arena.extends_internName _).trans (Arena.extends_alloc _ _ _)⟩

theorem continues_setRange (s : Session) (id : NodeId) (range : SourceRange) :
    s.Continues (s.setRange id range) :=
  ⟨rfl, rfl, ⟨0, rfl⟩, List.prefix_rfl, s.arena.extends_setRange id range⟩

theorem Move.continues {s t : Session} (h : s.Move t) : s.Continues t := by
  cases h with
  | look => exact s.continues_peeked
  | consume => exact s.continues_consume

theorem Moves.continues {s t : Session} (h : s.Moves t) : s.Continues t := by
  induction h with
  | refl => exact .refl s
  | tail _ hLast ih => exact ih.trans hLast.continues

end Session

namespace Grammar

variable {g : Grammar} {s t : Session}

theorem Step.continues (h : g.Step s t) : s.Continues t := by
  cases h with
  | move h => exact h.continues
  | fault f range => exact s.continues_report _
  | alloc _ range => exact s.continues_alloc _ range
  | name token => exact s.continues_nameNode token
  | setRange id range => exact s.continues_setRange id range
  | flag f range id => exact (s.continues_report _).trans (Session.continues_attach _ id _)
  | reject f =>
      exact ((s.continues_report _).trans (Session.continues_alloc _ _ _)).trans
        (Session.continues_attach _ _ _)
  | spare => exact s.continues_alloc _ _
  | passOver _ hMoves range =>
      exact (s.continues_peeked.trans hMoves.continues).trans (Session.continues_alloc _ _ range)

theorem Run.continues (h : g.Run s t) : s.Continues t := by
  induction h with
  | refl => exact .refl s
  | tail _ hLast ih => exact ih.trans hLast.continues

end Grammar

end Precedence
