import Precedence.Proofs.Arena.Shape
import Precedence.Proofs.Expression.Reading

/-!
Sequences that are written with separators. A sequence is made of segments, each with the tokens of
its own and the separators behind them. What a segment is read as is asked of a parser, and only
where one of a few symbols follows; so nothing here depends on what a segment is.
-/
namespace Precedence

open Session

/-- The members of a list before its last are such in a longer one. -/
theorem mem_dropLast_cons {α : Type} {x y : α} {l : List α} (h : x ∈ l.dropLast) :
    x ∈ (y :: l).dropLast := by
  rw [List.dropLast_cons_of_ne_nil (fun hNone => by simp [hNone] at h)]
  exact List.mem_cons_of_mem y h

/-- A segment of a sequence: its tokens, the tree that they stand for, and the separators behind
them. -/
structure Segment where
  tokens : List Token
  tree : SyntaxTree
  separators : List Token

/-- All tokens of a segment in the order in which they are written. -/
def Segment.written (p : Segment) : List Token := p.tokens ++ p.separators

/-- The separators behind a segment are some of the tokens of the sequence. -/
theorem Segment.length_separators_le {p : Segment} {segments : List Segment} (h : p ∈ segments) :
    p.separators.length ≤ (segments.flatMap written).length := by
  obtain ⟨before, after, rfl⟩ := List.append_of_mem h
  simp only [List.flatMap_append, List.flatMap_cons, written, List.length_append]
  omega

namespace Session

/-- From a session on, a parser reads tokens as a tree wherever one of the given symbols follows:
whenever they are next, it consumes exactly them, reports nothing and returns a node that is the
tree. -/
def ReadsAs (s₀ : Session) (parse : Parse NodeId) (ends : List Symbol) (tokens : List Token)
    (tree : SyntaxTree) : Prop :=
  ∀ s rest, s₀.Reaches (tokens ++ₛ rest) s → rest.head.symbol ∈ ends →
    ∃ id t, parse s = some (id, t) ∧ s.Reaches rest t ∧ t.arena.IsTree tree id

/-- From a session on, a parser reads each segment as its tree wherever a separator or the
terminator follows. No segment starts with one of the barred symbols. -/
structure ReadsSegments (s₀ : Session) (parse : Parse NodeId) (separator terminator : Symbol)
    (barred : List Symbol) (segments : List Segment) : Prop where
  reads : ∀ p ∈ segments, s₀.ReadsAs parse [separator, terminator] p.tokens p.tree
  starts : ∀ p ∈ segments, ∃ first more, p.tokens = first :: more ∧ first.symbol ∉ barred
  separators : ∀ p ∈ segments, ∀ token ∈ p.separators, token.symbol = separator

variable {s₀ s t : Session} {parse : Parse NodeId} {separator terminator : Symbol}
  {barred : List Symbol} {p : Segment} {segments : List Segment} {rest : Stream' Token}

theorem reaches_refl (s : Session) : s.Reaches s.coming s :=
  ⟨rfl, rfl, rfl, .refl s.arena⟩

theorem previous_consume_of {token : Token} (hComing : s.coming = .cons token rest) :
    s.consume.2.previous = token := by
  rw [previous_consume, hComing, Stream'.head_cons]

/-- The token that is wanted is consumed, also when it has been looked at. -/
theorem expect_peeked_of {token : Token} (hComing : s.coming = .cons token rest)
    (symbols : SymbolTable) {wanted : Symbol} (hWanted : token.symbol = wanted) :
    s.peeked.expect symbols wanted = s.consume := by
  rw [expect_eq, coming_peeked, hComing, Stream'.head_cons, if_pos hWanted, consume_peeked]

theorem ReadsSegments.tail
    (h : s₀.ReadsSegments parse separator terminator barred (p :: segments)) :
    s₀.ReadsSegments parse separator terminator barred segments where
  reads q hMem := h.reads q (List.mem_cons_of_mem p hMem)
  starts q hMem := h.starts q (List.mem_cons_of_mem p hMem)
  separators q hMem := h.separators q (List.mem_cons_of_mem p hMem)

/-- A sequence that is not empty starts with none of the barred symbols. -/
theorem ReadsSegments.head_notMem
    (h : s₀.ReadsSegments parse separator terminator barred (p :: segments))
    (rest : Stream' Token) :
    ((p :: segments).flatMap Segment.written ++ₛ rest).head.symbol ∉ barred := by
  obtain ⟨first, more, hTokens, hBarred⟩ := h.starts p List.mem_cons_self
  rw [List.flatMap_cons, Segment.written, hTokens, List.cons_append, List.cons_append,
    Stream'.cons_append_stream, Stream'.head_cons]
  exact hBarred

/-- Only the last segment can have no separator behind it. -/
theorem eq_nil_of_separators (hBetween : ∀ q ∈ (p :: segments).dropLast, q.separators ≠ [])
    (hNone : p.separators = []) : segments = [] := by
  cases segments with
  | nil => rfl
  | cons q segments => exact absurd hNone (hBetween p List.mem_cons_self)

/-- Where a sequence is next, its first segment is read, and its separators are left in front of the
others. -/
theorem ReadsSegments.exists_read {closing : Token}
    (h : s₀.ReadsSegments parse separator terminator barred (p :: segments))
    (hBetween : ∀ q ∈ (p :: segments).dropLast, q.separators ≠ [])
    (hClosing : closing.symbol = terminator)
    (hReach : s₀.Reaches
      ((p :: segments).flatMap Segment.written ++ₛ .cons closing rest) s) :
    s.coming.head.symbol ∉ barred ∧ ∃ id t, parse s.peeked = some (id, t) ∧
      s.Reaches (p.separators ++ₛ (segments.flatMap Segment.written ++ₛ .cons closing rest)) t ∧
      t.arena.IsTree p.tree id := by
  have hStart := h.head_notMem (.cons closing rest)
  rw [← hReach.coming] at hStart
  simp only [List.flatMap_cons, Segment.written, Stream'.append_append_stream] at hReach
  have hPeeked := reaches_peeked_of hReach.coming
  have hFollows : (p.separators ++ₛ (segments.flatMap Segment.written ++ₛ
      Stream'.cons closing rest)).head.symbol ∈ [separator, terminator] := by
    cases hRun : p.separators with
    | nil => simp [eq_nil_of_separators hBetween hRun, hClosing]
    | cons token separators =>
        simp [h.separators p List.mem_cons_self token (hRun ▸ List.mem_cons_self)]
  obtain ⟨id, t, hParse, hRead, hTree⟩ :=
    h.reads p List.mem_cons_self s.peeked _ (hReach.trans hPeeked) hFollows
  exact ⟨hStart, id, t, hParse, hPeeked.trans hRead, hTree⟩

/-- There are at most as many segments as tokens. -/
theorem ReadsSegments.length_le
    (h : s₀.ReadsSegments parse separator terminator barred segments) :
    segments.length ≤ (segments.flatMap Segment.written).length := by
  induction segments with
  | nil => exact Nat.le_refl _
  | cons p segments ih =>
      obtain ⟨first, more, hTokens, -⟩ := h.starts p List.mem_cons_self
      have hRest := ih h.tail
      simp only [List.flatMap_cons, Segment.written, hTokens, List.length_append,
        List.length_cons] at hRest ⊢
      omega

end Session

end Precedence
