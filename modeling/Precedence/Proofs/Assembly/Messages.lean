import Precedence.Proofs.Assembly.Nesting
import Precedence.Proofs.Recovery.Policy

/-!
The messages attached to the nodes of a parse. They are messages of its document, no message is
attached twice, and each is about text that its node covers. A message is attached as soon as it is
reported, so no node has it yet; what it is about is covered then, and a node never covers less.
-/
namespace Precedence

open Session

/-! ### Sessions -/

theorem Diagnostics.get?_eq (d : Diagnostics) (id : MessageId) :
    d.get? id = d.toList[id.index]? := by
  simp [get?, toList]

namespace Session

/-- Each message attached to a node has been reported, is attached to that node alone and only once,
and is about text that the node covers. -/
structure IsAnnotated (s : Session) : Prop where
  found {id : NodeId} {m : MessageId} : m ∈ s.arena.attached id → ∃ message,
    s.diagnostics.get? m = some message ∧ message.range.span.IsWithin (s.arena.range id).span
  once (id : NodeId) : (s.arena.attached id).Nodup
  apart {id other : NodeId} {m : MessageId} :
    m ∈ s.arena.attached id → m ∈ s.arena.attached other → id = other

namespace IsAnnotated

variable {s t : Session}

/-- At the start of a source there are no nodes. -/
theorem ofSource (lx : Lexicon) (source : List Char) : (ofSource lx source).IsAnnotated :=
  ⟨fun hMem => (by cases hMem), fun _ => List.nodup_nil, fun hMem => (by cases hMem)⟩

/-- Whatever attaches nothing keeps this, if it withdraws no message and narrows no node. -/
theorem of_same (h : s.IsAnnotated) (hReported : s.diagnostics.toList <+: t.diagnostics.toList)
    (hWidens : s.arena.Widens t.arena)
    (hAttached : ∀ id, t.arena.attached id = s.arena.attached id) : t.IsAnnotated := by
  refine ⟨fun {id m} hMem => ?_, fun id => ?_, fun {id other m} hMem hOther => ?_⟩
  · rw [hAttached] at hMem
    obtain ⟨message, hFound, hWithin⟩ := h.found hMem
    obtain ⟨kind, hKind⟩ := Arena.exists_kind_iff.mpr (s.arena.contains_of_mem_attached id hMem)
    rw [Diagnostics.get?_eq] at hFound
    obtain ⟨hLess, rfl⟩ := List.getElem?_eq_some_iff.mp hFound
    refine ⟨_, ?_, hWithin.trans (hWidens.ranges hKind)⟩
    rw [Diagnostics.get?_eq]
    exact List.prefix_iff_getElem?.mp hReported _ hLess
  · rw [hAttached]
    exact h.once id
  · rw [hAttached] at hMem hOther
    exact h.apart hMem hOther

/-- A message that no node has may be attached to one that covers what it is about. -/
theorem attach (h : s.IsAnnotated) {id : NodeId} {m : MessageId} {message : Message}
    (hNew : ∀ other, m ∉ s.arena.attached other) (hFound : s.diagnostics.get? m = some message)
    (hWithin : message.range.span.IsWithin (s.arena.range id).span) :
    (s.attach id m).IsAnnotated := by
  have hCases {other : NodeId} {m' : MessageId} (hMem : m' ∈ (s.attach id m).arena.attached other) :
      m' ∈ s.arena.attached other ∨ (other = id ∧ m' = m) :=
    s.arena.mem_attached_attach id other hMem
  have hRange (other : NodeId) : (s.attach id m).arena.range other = s.arena.range other :=
    Arena.range_attach _ _ _ _
  refine ⟨fun {other m'} hMem => ?_, fun other => ?_, fun {x y m'} hX hY => ?_⟩
  · rw [hRange]
    rcases hCases hMem with hOld | ⟨rfl, rfl⟩
    · exact h.found hOld
    · exact ⟨message, hFound, hWithin⟩
  · have hPlace := s.arena.attached_attach id other m
    rw [Session.attach, hPlace]
    split
    · refine List.nodup_append.mpr ⟨h.once other, List.pairwise_singleton _ _, ?_⟩
      rintro m' hOld _ hLast rfl
      exact hNew other (List.mem_singleton.mp hLast ▸ hOld)
    · exact h.once other
  · rcases hCases hX with hOldX | ⟨rfl, rfl⟩
    · rcases hCases hY with hOldY | ⟨rfl, rfl⟩
      · exact h.apart hOldX hOldY
      · exact absurd hOldX (hNew x)
    · rcases hCases hY with hOldY | ⟨rfl, -⟩
      · exact absurd hOldY (hNew y)
      · rfl

/-- A message may be attached as soon as it is reported, also to a node that is made then. -/
theorem flag (h : s.IsAnnotated) {m : Message} {id : NodeId}
    (hDiagnostics : t.diagnostics = (s.report m).2.diagnostics)
    (hWidens : s.arena.Widens t.arena)
    (hAttached : ∀ other, t.arena.attached other = s.arena.attached other)
    (hWithin : m.range.span.IsWithin (t.arena.range id).span) :
    (t.attach id (s.report m).1).IsAnnotated := by
  have hList : t.diagnostics.toList = s.diagnostics.toList ++ [m] := by
    rw [hDiagnostics, toList_report]
  refine attach (h.of_same (hList ▸ List.prefix_append _ _) hWidens hAttached)
    (fun other hMem => ?_) ?_ hWithin
  · rw [hAttached, report_fst] at hMem
    obtain ⟨message, hFound, -⟩ := h.found hMem
    rw [Diagnostics.get?_eq] at hFound
    exact absurd (List.getElem?_eq_some_iff.mp hFound).1 (Nat.lt_irrefl _)
  · rw [Diagnostics.get?_eq, report_fst, hList, List.getElem?_concat_length]

end IsAnnotated

end Session

/-! ### Acts -/

/-- The node that was made last covers the token consumed last. -/
theorem Bench.IsTiled.previous_isWithin {g : Grammar} {tokens : Stream' Token} {n : Nat}
    {s : Session} {p : List Piece} {id : NodeId} (h : IsTiled ⟨s, p ++ [.node id]⟩ g tokens n)
    (hOrder : ∀ m, AreInOrder (tokens.take m)) :
    s.previous ∈ tokens.take n ∧ s.previous.range.span.IsWithin (s.arena.range id).span := by
  obtain ⟨back, hSome, hInOrder, hBack, hPrevious⟩ := Grammar.exists_tiles_back hOrder h
  have hSpans := hBack.of_singleton_node.spans
  have hLast := List.getLast?_eq_some_getLast hSpans.ne_nil
  rw [hPrevious _ hLast]
  have hMem := List.mem_of_getLast? hLast
  exact ⟨hSome hMem, hSpans.isWithin hInOrder _ hMem⟩

namespace Grammar

variable {g : Grammar} {floor n : Nat} {b c : Bench} {tokens : Stream' Token}

/-- Whatever is done at the bench, no node comes to cover less. -/
theorem Act.widens (h : g.Act floor b c) (hOrder : ∀ m, AreInOrder (tokens.take m))
    (hTiled : b.IsTiled g tokens n) : b.session.arena.Widens c.session.arena := by
  have hSame (a : Arena) : a.Widens a := ⟨.refl a, fun _ => .refl _⟩
  cases h with
  | look s p =>
      rw [s.arena_peeked]
      exact hSame _
  | consume s p =>
      rw [s.arena_consume]
      exact hSame _
  | fault s p => exact hSame _
  | escape s p => exact Arena.widens_attach _ _ _
  | parameters s p => exact Arena.widens_attach _ _ _
  | intern s p text => exact Arena.widens_internName _ _
  | make s p => exact Arena.widens_alloc _ _ _
  | ungroup s p hMeans =>
      obtain ⟨back, -, hInOrder, hBack, hPrevious⟩ := exists_tiles_back hOrder hTiled
      exact (represents_ungroup hMeans hInOrder hBack hPrevious).1
  | reject s p =>
      have hNode := Arena.widens_alloc s.arena (.invalid s.previous.symbol) s.previous.range
      refine ⟨hNode.extends_.trans (Arena.extends_attach _ _ _), fun hKind => ?_⟩
      refine (hNode.ranges hKind).trans ?_
      exact (Arena.widens_attach _ _ _).ranges (hNode.extends_.kind hKind)
  | pass s p => exact Arena.widens_alloc _ _ _

/-- Whatever is done at the bench, messages are attached once and to nodes that cover what they are
about. -/
theorem Act.isAnnotated (h : g.Act floor b c) (hOrder : ∀ m, AreInOrder (tokens.take m))
    (hText : ∀ i, (tokens.get i).HoldsText) (hTiled : b.IsTiled g tokens n)
    (hAnnotated : b.session.IsAnnotated) : c.session.IsAnnotated := by
  have hReported := h.continues.reported
  have hWidens := h.widens hOrder hTiled
  cases h with
  | look s p =>
      exact hAnnotated.of_same hReported hWidens fun id => congrArg (·.attached id) s.arena_peeked
  | consume s p =>
      exact hAnnotated.of_same hReported hWidens fun id => congrArg (·.attached id) s.arena_consume
  | fault s p => exact hAnnotated.of_same hReported hWidens fun _ => rfl
  | @escape s p id _ range _ hSome hStart hStop =>
      refine hAnnotated.flag rfl ⟨.refl _, fun _ => .refl _⟩ (fun _ => rfl) ?_
      -- the escape stands in the text of the token consumed last
      obtain ⟨hMem, hCovers⟩ := hTiled.previous_isWithin hOrder
      obtain ⟨i, hToken⟩ := exists_get_of_mem_take hMem
      have hHolds : s.previous.HoldsText := hToken ▸ hText i
      have hWithin : range.span.IsWithin s.previous.text := ⟨hStart, hStop⟩
      exact hWithin.trans (hHolds.trans hCovers)
  | parameters s p hLists =>
      exact hAnnotated.flag rfl ⟨.refl _, fun _ => .refl _⟩ (fun _ => rfl) (.refl _)
  | intern s p text => exact hAnnotated.of_same hReported hWidens fun _ => rfl
  | make s p => exact hAnnotated.of_same hReported hWidens fun id => s.arena.attached_alloc id _ _
  | ungroup s p =>
      exact hAnnotated.of_same hReported hWidens fun id => s.arena.attached_setRange _ id _
  | reject s p =>
      refine hAnnotated.flag rfl (s.arena.widens_alloc _ _)
        (fun id => s.arena.attached_alloc id _ _) ?_
      have hCovers : s.previous.range.span.IsWithin
          ((s.arena.alloc (.invalid s.previous.symbol) s.previous.range).2.range
            (s.arena.alloc (.invalid s.previous.symbol) s.previous.range).1).span := by
        rw [s.arena.range_alloc_self]
        exact .refl _
      exact hCovers
  | pass s p => exact hAnnotated.of_same hReported hWidens fun id => s.arena.attached_alloc id _ _

theorem Builds.isAnnotated (h : g.Builds floor b c) (hOrder : ∀ m, AreInOrder (tokens.take m))
    (hText : ∀ i, (tokens.get i).HoldsText) (hTiled : b.IsTiled g tokens n)
    (hAnnotated : b.session.IsAnnotated) : c.session.IsAnnotated := by
  induction h with
  | refl => exact hAnnotated
  | tail hBefore hLast ih =>
      obtain ⟨m, -, hHere⟩ := Builds.exists_isTiled hBefore hOrder hTiled
      exact hLast.isAnnotated hOrder hText hHere ih

/-- Attached messages are consistent with the document. Each names a message of the document that is
about text which the node covers in the end; no message is attached twice, to one node or to two;
and each message about a token that starts no expression, about a node that is no parameter or about
a bad escape is attached to just one node. -/
theorem attached_of_parse? (hBuiltIn : g.hasBuiltInParselets = true)
    (hLexicon : g.lexicon.isBuiltIn = true) {filename source : String} {p : Parsed}
    (h : g.parse? filename source = some p) :
    (∀ id, ∀ m ∈ p.arena.attached id, ∃ message, p.document.diagnostics.get? m = some message ∧
      message.range.span.IsWithin (p.arena.range id).span) ∧
    (∀ id, (p.arena.attached id).Nodup) ∧
    (∀ id other m, m ∈ p.arena.attached id → m ∈ p.arena.attached other → id = other) ∧
    ∀ m message, p.document.diagnostics.get? m = some message → message.code.isAscribed = true →
      ∃! id, m ∈ p.arena.attached id := by
  obtain ⟨⟨root, t⟩, hSession, rfl⟩ := Option.map_eq_some_iff.mp h
  have hOrdered := isOrdered_ofSource (Lexicon.isBuiltIn_of_mem_literals hLexicon) source.toList
  obtain ⟨front, -, -, hBuilds⟩ := exists_builds_parseSession? hBuiltIn hSession
  have hAnnotated : t.IsAnnotated :=
    Builds.isAnnotated hBuilds hOrdered.areInOrder_take (Lexicon.holdsText_ofSource hLexicon _)
      (.empty g _) (.ofSource _ _)
  have hProceeds := (concur_parseSession? .none hBuiltIn source).left (root, t) hSession
  have hAscribed : t.Ascribed := hProceeds.1.ascribed (ascribed_ofSource hLexicon _)
  refine ⟨fun id m hMem => hAnnotated.found hMem, hAnnotated.once,
    fun id other m => hAnnotated.apart, fun m message hFound hCode => ?_⟩
  rw [Diagnostics.get?_eq] at hFound
  obtain ⟨id, hMem⟩ := hAscribed.attached m.index message hFound hCode
  exact ⟨id, hMem, fun other hOther => hAnnotated.apart hOther hMem⟩

end Grammar

namespace Sample

open Grammar

/-- Rules of names, sums, tuples and functions, and of strings with escapes. -/
def quotedTuples : Rules where
  lexical := tuplesOnly.lexical ++ [.literal (.string ['\''] ['\''] (some '\\'))]
  declarations := tuplesOnly.declarations ++ [.string "#string" (some '\\')]

/-- The grammar of names, sums, tuples, functions and strings, in statements. -/
def quotedGrammar : Grammar := (quotedTuples.grammar .standard).toOption.getD default

/-- A function of a string with two bad escapes, in a group, to a tuple that starts with an
operator. -/
def quotedParameter : String := "('\\q \\z') -> (+, a)"

/-- Three messages are attached to the string: two came when it stood alone, and one when it had
been given the range of the group. The fourth is attached to the operator. -/
theorem attached_of_parse?_quotedParameter :
    ∃ p, quotedGrammar.parse? "quoted" quotedParameter = some p ∧
      p.document.diagnostics.toList.map (·.code) =
        [.invalidEscape, .invalidEscape, .noPrefix, .invalidParameter] ∧
      p.arena.attached ⟨0⟩ = [⟨0⟩, ⟨1⟩, ⟨3⟩] ∧ p.arena.attached ⟨1⟩ = [⟨2⟩] ∧
      (∀ id, ∀ m ∈ p.arena.attached id, ∃ message, p.document.diagnostics.get? m = some message ∧
        message.range.span.IsWithin (p.arena.range id).span) ∧
      (∀ id, (p.arena.attached id).Nodup) ∧
      (∀ id other m, m ∈ p.arena.attached id → m ∈ p.arena.attached other → id = other) ∧
      ∀ m message, p.document.diagnostics.get? m = some message → message.code.isAscribed = true →
        ∃! id, m ∈ p.arena.attached id := by
  have hParsed : (quotedGrammar.parse? "quoted" quotedParameter).any (fun p =>
      p.document.diagnostics.toList.map (·.code) =
        [.invalidEscape, .invalidEscape, .noPrefix, .invalidParameter] ∧
      p.arena.attached ⟨0⟩ = [⟨0⟩, ⟨1⟩, ⟨3⟩] ∧ p.arena.attached ⟨1⟩ = [⟨2⟩]) = true := by
    decide +kernel
  obtain ⟨p, hResult, hShape⟩ := (Option.any_eq_true _ _).mp hParsed
  obtain ⟨hCodes, hString, hOperator⟩ := of_decide_eq_true hShape
  exact ⟨p, hResult, hCodes, hString, hOperator,
    attached_of_parse? (by decide +kernel) (by decide +kernel) hResult⟩

end Sample

end Precedence
