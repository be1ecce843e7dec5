import Precedence.Proofs.Assembly.Engine
import Precedence.Proofs.Grammar.CleanParse
import Precedence.Proofs.Lexer.Layout

/-!
A block adds nothing to what has been said about a statement that failed. Whether it has failed is
seen from the count of errors, so the question is whether every invalid node below the statement was
reported after the statement had started. It was, unless it stands for the first token of the
statement and the lexer has reported that: the token was looked at before the statement started.
-/
namespace Precedence

open Session Relation

variable {g : Grammar} {s t : Session} {floor base : Nat}

namespace Session

/-- An error of the lexer counts when its token is looked at. -/
theorem errorCount_lt_reveal {lexeme : Lexeme} {rest : List Lexeme}
    (h : s.upcoming = lexeme :: rest) (hError : ∃ m ∈ lexeme.messages, m.isError = true) :
    s.errorCount < s.reveal.errorCount := by
  have hReveal : s.reveal.diagnostics.toList = s.diagnostics.toList ++ lexeme.messages := by
    simp [reveal, h, Diagnostics.append, Diagnostics.toList]
  have hSome : 0 < lexeme.messages.countP (·.isError) := List.countP_pos_iff.mpr hError
  rw [errorCount, errorCount, Diagnostics.errorCount_eq, Diagnostics.errorCount_eq, hReveal,
    List.countP_append]
  omega

end Session

namespace Grammar

variable {b c : Bench}

/-- A token without text is not silent, unless it is an invalid one. -/
theorem not_isSilent_of_point {source : List Char} {token : Token} {offset : Nat}
    (hValid : token.symbol ≠ .invalid) (hPoint : token.text = .point offset) :
    ¬g.IsSilent source token := by
  have hEmpty : token.payload source = [] := by
    rw [Token.payload, hPoint, Span.slice, Text.slice?]
    cases hDrop : Text.dropBytes? offset source <;> simp [Span.point, hDrop, Text.takeBytes?]
  rintro (hInvalid | ⟨separators, -, hDigits⟩)
  · exact hValid hInvalid
  · rw [hEmpty] at hDigits
    cases hDigits

/-! ### What has been looked at -/

/-- What makes invalid nodes without a word will be reported when it is looked at, and at most one
token has been looked at ahead. -/
structure Foresees (g : Grammar) (s : Session) : Prop where
  ahead : s.ahead.length ≤ 1
  upcoming : ∀ lexeme ∈ s.upcoming, g.IsSilent s.source lexeme.token →
    ∃ m ∈ lexeme.messages, m.isError = true
  ending : ¬g.IsSilent s.source s.ending

/-- This is kept as tokens are looked at. -/
theorem Foresees.mono (h : g.Foresees s) (hContinues : s.Continues t) (hUnfolds : s.Unfolds t) :
    g.Foresees t := by
  refine ⟨hUnfolds.ahead h.ahead, ?_, ?_⟩
  all_goals rw [hContinues.source]
  · exact fun lexeme hMem => h.upcoming lexeme (hUnfolds.upcoming.subset hMem)
  · rw [hContinues.ending]
    exact h.ending

/-- A source foresees whatever its lexer reports. -/
theorem foresees_ofSource {source : List Char}
    (hReported : ∀ lexeme ∈ g.lexicon.lexemes source, g.IsSilent source lexeme.token →
      ∃ m ∈ lexeme.messages, m.isError = true) :
    g.Foresees (.ofSource g.lexicon source) := by
  refine ⟨Nat.zero_le _, List.forall_mem_cons.mpr ⟨fun hSilent => ?_, hReported⟩, ?_⟩
  · exact absurd hSilent (not_isSilent_of_point (by decide) rfl)
  · obtain ⟨messages, stop, hLast⟩ := (g.lexicon.reads_lexemes source).exists_last
    have hEnding : (ofSource g.lexicon source).ending = Cursor.emptyToken stop .eof := by
      simp only [ofSource, ofLexemes, hLast, Option.getD_some]
    rw [hEnding]
    exact not_isSilent_of_point (fun hInvalid => by cases hInvalid) rfl

/-! ### What is made while nothing is reported -/

end Grammar

/-- The nodes from `base` on list none that is older. -/
def Arena.IsClosedFrom (a : Arena) (base : Nat) : Prop :=
  ∀ parent child, base ≤ parent.index → a.Lists parent child → base ≤ child.index

namespace Arena

variable {a b : Arena}

theorem isClosedFrom_size (a : Arena) : a.IsClosedFrom a.size := by
  rintro parent child hParent ⟨kind, hKind, -⟩
  exact absurd (index_lt_of_kind? hKind) (Nat.not_lt_of_le hParent)

theorem IsClosedFrom.of_kind?_eq (h : a.IsClosedFrom base) (hKind : ∀ id, b.kind? id = a.kind? id) :
    b.IsClosedFrom base := by
  rintro parent child hParent ⟨kind, hParentKind, hMem⟩
  exact h parent child hParent ⟨kind, (hKind parent).symm.trans hParentKind, hMem⟩

theorem IsClosedFrom.alloc (h : a.IsClosedFrom base) {kind : NodeKind} (range : SourceRange)
    (hChildren : ∀ child ∈ kind.children, base ≤ child.index) :
    (a.alloc kind range).2.IsClosedFrom base := by
  rintro parent child hParent ⟨other, hKind, hMem⟩
  rw [kind?_alloc] at hKind
  split at hKind
  · cases hKind
    exact hChildren child hMem
  · exact h parent child hParent ⟨other, hKind, hMem⟩

/-- What a node is made of is no older than the nodes it was made from. -/
theorem Gathers.base_le {ids : List NodeId} {kind : NodeKind} (h : a.Gathers ids kind)
    (hClosed : a.IsClosedFrom base) (hNew : ∀ id ∈ ids, base ≤ id.index) :
    ∀ child ∈ kind.children, base ≤ child.index := by
  cases h with
  | children => exact hNew
  | @parameters tuple body items hTuple hNames =>
      intro child hMem
      rcases List.mem_append.mp hMem with hItem | hBody
      · exact hClosed tuple child (hNew tuple List.mem_cons_self) ⟨_, hTuple, hItem⟩
      · exact hNew child (List.mem_cons_of_mem _ hBody)

theorem IsClosedFrom.holds (h : a.IsClosedFrom base) {root id : NodeId} (hRoot : base ≤ root.index)
    (hHolds : a.Holds root id) : base ≤ id.index := by
  induction hHolds with
  | refl => exact hRoot
  | tail _ hLast ih => exact h _ _ ih hLast

end Arena

/-- Nothing silent has been looked at or lies on the bench, and no invalid node is from `base`
on. -/
structure Bench.IsCalm (b : Bench) (g : Grammar) (base : Nat) : Prop where
  pieces : ∀ τ, .token τ ∈ b.pieces → ¬g.IsSilent b.session.source τ
  ahead : ∀ τ ∈ b.session.ahead, ¬g.IsSilent b.session.source τ
  nodes : ∀ id symbol, b.session.arena.kind? id = some (.invalid symbol) → id.index < base

namespace Grammar

variable {b c : Bench}

theorem Act.isClosedFrom (h : g.Act floor b c) (hClosed : b.session.arena.IsClosedFrom base)
    (hNew : ∀ id ∈ Piece.nodes b.pieces, base ≤ id.index) :
    c.session.arena.IsClosedFrom base := by
  cases h with
  | look s p => exact hClosed.of_kind?_eq fun id => congrArg (·.kind? id) s.arena_peeked
  | consume s p => exact hClosed.of_kind?_eq fun id => congrArg (·.kind? id) s.arena_consume
  | fault => exact hClosed
  | escape => exact hClosed.of_kind?_eq fun id => Arena.kind?_update _ _ id fun _ => rfl
  | parameters => exact hClosed.of_kind?_eq fun id => Arena.kind?_update _ _ id fun _ => rfl
  | intern => exact hClosed
  | make s p hGathers =>
      refine hClosed.alloc _ (hGathers.base_le hClosed fun id hMem => hNew id ?_)
      rw [Piece.nodes_append]
      exact List.mem_append_right _ hMem
  | ungroup => exact hClosed.of_kind?_eq fun id => Arena.kind?_setRange _ _ id _
  | reject s p =>
      refine Arena.IsClosedFrom.of_kind?_eq ?_ fun id => Arena.kind?_update _ _ id fun _ => rfl
      exact hClosed.alloc _ fun child hMem => by cases hMem
  | pass s p => exact hClosed.alloc _ fun child hMem => by cases hMem

end Grammar

namespace Bench.IsCalm

variable {p q : List Piece}

/-- Looking at a token that makes invalid nodes without a word brings its report with it. -/
theorem peeked (h : IsCalm ⟨s, p⟩ g base) (hForesees : g.Foresees s)
    (hFloor : floor ≤ s.errorCount) :
    floor < s.peeked.errorCount ∨ IsCalm ⟨s.peeked, p⟩ g base := by
  by_cases hAhead : s.ahead = []
  · rw [peeked_of_ahead_eq_nil hAhead]
    cases hUpcoming : s.upcoming with
    | nil =>
        right
        refine ⟨?_, ?_, ?_⟩
        all_goals rw [reveal, hUpcoming]
        · exact h.pieces
        · simpa [hAhead] using hForesees.ending
        · exact h.nodes
    | cons lexeme rest =>
        by_cases hSilent : g.IsSilent s.source lexeme.token
        · left
          have hReported := hForesees.upcoming lexeme (hUpcoming ▸ List.mem_cons_self) hSilent
          exact Nat.lt_of_le_of_lt hFloor (errorCount_lt_reveal hUpcoming hReported)
        · right
          refine ⟨?_, ?_, ?_⟩
          all_goals rw [reveal, hUpcoming]
          · exact h.pieces
          · simpa [hAhead] using hSilent
          · exact h.nodes
  · rw [peeked_of_ahead_ne_nil hAhead]
    exact .inr h

theorem consume (h : IsCalm ⟨s, p⟩ g base) (hForesees : g.Foresees s)
    (hFloor : floor ≤ s.errorCount) :
    floor < s.consume.2.errorCount ∨ IsCalm ⟨s.consume.2, p ++ [.token s.coming.head]⟩ g base := by
  have hErrors : s.consume.2.errorCount = s.peeked.errorCount := by
    rw [consume_eq]
    rfl
  rw [hErrors]
  rcases h.peeked hForesees hFloor with hMore | hCalm
  · exact .inl hMore
  · right
    obtain ⟨rest, hAhead⟩ := s.ahead_peeked
    have hHead : ¬g.IsSilent s.peeked.source s.coming.head := by
      apply hCalm.ahead
      rw [hAhead]
      exact List.mem_cons_self
    rw [consume_eq]
    refine ⟨fun τ hMem => ?_, fun τ hMem => hCalm.ahead τ (List.mem_of_mem_drop hMem), hCalm.nodes⟩
    rcases List.mem_append.mp hMem with hOld | hLast
    · exact hCalm.pieces τ hOld
    · obtain rfl := (Piece.token.inj (List.mem_singleton.mp hLast))
      exact hHead

/-- Pieces can be replaced by a node that is not invalid. -/
theorem replace {id : NodeId} (h : IsCalm ⟨s, p ++ q⟩ g base) (hSource : t.source = s.source)
    (hAhead : t.ahead = s.ahead)
    (hNodes : ∀ x symbol, t.arena.kind? x = some (.invalid symbol) →
      s.arena.kind? x = some (.invalid symbol)) : IsCalm ⟨t, p ++ [.node id]⟩ g base := by
  refine ⟨fun τ hMem => ?_, ?_, fun x symbol hKind => h.nodes x symbol (hNodes x symbol hKind)⟩
  · rw [show t.source = s.source from hSource]
    refine h.pieces τ (List.mem_append_left _ ?_)
    rcases List.mem_append.mp hMem with hOld | hNode
    · exact hOld
    · cases List.mem_singleton.mp hNode
  · dsimp only
    rw [hSource, hAhead]
    exact h.ahead

end Bench.IsCalm

namespace Grammar

variable {b c : Bench}

/-- An error has been reported, or the bench is calm: this is kept whatever is done at the bench. -/
theorem Act.isCalm (h : g.Act floor b c) (hForesees : g.Foresees b.session)
    (hFloor : floor ≤ b.session.errorCount)
    (hCalm : floor < b.session.errorCount ∨ b.IsCalm g base) :
    floor < c.session.errorCount ∨ c.IsCalm g base := by
  rcases hCalm with hErrors | hCalm
  · exact .inl (Nat.lt_of_lt_of_le hErrors h.continues.errorCount_le)
  have hFault (s : Session) (f : SyntaxFault) (range : SourceRange) (hLe : floor ≤ s.errorCount) :
      floor < (s.fault g.symbols f range).2.errorCount := by
    rw [errorCount_fault]
    exact Nat.lt_succ_of_le hLe
  cases h with
  | look s p => exact hCalm.peeked hForesees hFloor
  | consume s p => exact hCalm.consume hForesees hFloor
  | fault s => exact .inl (hFault s _ _ hFloor)
  | escape s => exact .inl (hFault s _ _ hFloor)
  | parameters s => exact .inl (hFault s _ _ hFloor)
  | intern => exact .inr ⟨hCalm.pieces, hCalm.ahead, hCalm.nodes⟩
  | make s p hGathers hValid =>
      refine .inr (hCalm.replace rfl rfl fun x symbol hKind => ?_)
      have hAlloc := (s.arena.kind?_alloc _ _ x).symm.trans hKind
      split at hAlloc
      · cases hAlloc
        cases hValid
      · exact hAlloc
  | ungroup s p =>
      refine .inr (hCalm.replace rfl rfl fun x symbol hKind => ?_)
      exact (s.arena.kind?_setRange _ x _).symm.trans hKind
  | reject s => exact .inl (hFault s _ _ hFloor)
  | @pass s p first rest hReason =>
      rcases hReason with hErrors | hSilent
      · exact .inl hErrors
      · refine absurd hSilent (hCalm.pieces first ?_)
        exact List.mem_append_right _ List.mem_cons_self

/-- An invalid node below what has been built means that an error has been reported meanwhile,
unless something silent had been looked at before. -/
theorem Builds.errorCount_lt_of_holds {id x : NodeId} {symbol : Symbol}
    (h : g.Builds s.errorCount ⟨s, []⟩ ⟨t, [.node id]⟩) (hForesees : g.Foresees s)
    (hAhead : ∀ τ ∈ s.ahead, ¬g.IsSilent s.source τ) (hHolds : t.arena.Holds id x)
    (hInvalid : t.arena.kind? x = some (.invalid symbol)) : s.errorCount < t.errorCount := by
  have hNew {c : Bench} (hBuilds : g.Builds s.errorCount ⟨s, []⟩ c) :
      ∀ other ∈ Piece.nodes c.pieces, s.arena.size ≤ other.index :=
    Builds.le_of_mem_nodes hBuilds (Nat.le_refl _) fun _ hNone => by cases hNone
  have hStart : Bench.IsCalm ⟨s, []⟩ g s.arena.size :=
    ⟨fun _ hNone => (by cases hNone), hAhead, fun _ _ hKind => Arena.index_lt_of_kind? hKind⟩
  have hAll {c : Bench} (hBuilds : g.Builds s.errorCount ⟨s, []⟩ c) :
      g.Foresees c.session ∧ c.session.arena.IsClosedFrom s.arena.size ∧
        (s.errorCount < c.session.errorCount ∨ c.IsCalm g s.arena.size) := by
    induction hBuilds with
    | refl => exact ⟨hForesees, s.arena.isClosedFrom_size, .inr hStart⟩
    | tail hBefore hLast ih =>
        obtain ⟨hSeen, hClosed, hCalm⟩ := ih
        exact ⟨hSeen.mono hLast.continues hLast.unfolds, hLast.isClosedFrom hClosed (hNew hBefore),
          hLast.isCalm hSeen (Builds.errorCount_le hBefore (Nat.le_refl _)) hCalm⟩
  obtain ⟨-, hClosed, hErrors | hCalm⟩ := hAll h
  · exact hErrors
  · have hRoot : s.arena.size ≤ id.index := hNew h id List.mem_cons_self
    exact absurd (hCalm.nodes x symbol hInvalid) (Nat.not_lt_of_le (hClosed.holds hRoot hHolds))

end Grammar

/-! ### The turns of a block -/

/-- A statement of a block with a separator: the session in which it starts, its node and the
session behind it, and then the node for what is skipped, if there is one, and the session behind
that. -/
structure Turn where
  start : Session
  statement : NodeId
  stop : Session
  skipped : Option NodeId
  after : Session

/-- The children that a statement adds to its block. -/
def Turn.nodes (turn : Turn) : List NodeId := turn.statement :: turn.skipped.toList

namespace Engine

variable {e : Engine} {separator terminator : Symbol} {wrap : Bool}

/-- One turn of the loop over the statements of a block, unless the block ends there. -/
def turn? (e : Engine) (separator terminator : Symbol) (wrap : Bool) (s : Session) :
    Option Turn := do
  let s ← e.skipBefore (some separator) s
  if s.coming.head.symbol = terminator ∨ s.coming.head.symbol = .eof then
    none
  else
    let (statement, stop) ← e.statement wrap s.peeked
    let (skipped, after) ←
      e.afterStatement separator terminator (s.peeked.errorCount < stop.errorCount) stop
    return ⟨s.peeked, statement, stop, skipped, after⟩

theorem exists_of_turn? {turn : Turn} (h : e.turn? separator terminator wrap s = some turn) :
    ∃ u, e.skipBefore (some separator) s = some u ∧ u.coming.head.symbol ≠ terminator ∧
      u.coming.head.symbol ≠ .eof ∧ turn.start = u.peeked ∧
      e.statement wrap turn.start = some (turn.statement, turn.stop) ∧
      e.afterStatement separator terminator (turn.start.errorCount < turn.stop.errorCount)
        turn.stop = some (turn.skipped, turn.after) := by
  simp only [turn?, Option.bind_eq_bind, Option.bind_eq_some_iff] at h
  obtain ⟨u, hBefore, h⟩ := h
  split at h
  · cases h
  · next hOpen =>
    obtain ⟨hTerminator, hEnd⟩ := not_or.mp hOpen
    simp only [Option.bind_eq_some_iff, Prod.exists] at h
    obtain ⟨statement, stop, hStatement, skipped, after, hAfter, hTurn⟩ := h
    cases hTurn
    exact ⟨u, hBefore, hTerminator, hEnd, rfl, hStatement, hAfter⟩

/-- What the loop over the statements of a block does from one session to another. -/
inductive Turns (e : Engine) (separator terminator : Symbol) (wrap : Bool) :
    Session → List Turn → Session → Prop
  | closed {s u : Session} (hBefore : e.skipBefore (some separator) s = some u)
      (hNext : u.coming.head.symbol = terminator) :
      Turns e separator terminator wrap s [] u.consume.2
  | ended {s u : Session} (hBefore : e.skipBefore (some separator) s = some u)
      (hOpen : u.coming.head.symbol ≠ terminator) (hNext : u.coming.head.symbol = .eof) :
      Turns e separator terminator wrap s []
        (u.peeked.fault e.symbols (.unterminated terminator) u.coming.head.range).2
  | statement {s t : Session} {turn : Turn} {turns : List Turn}
      (hTurn : e.turn? separator terminator wrap s = some turn)
      (hRest : Turns e separator terminator wrap turn.after turns t) :
      Turns e separator terminator wrap s (turn :: turns) t

/-- Where there is a turn to take, it is taken. -/
theorem Turns.mem_of_turn? {turns : List Turn} {turn : Turn}
    (h : e.Turns separator terminator wrap s turns t)
    (hTurn : e.turn? separator terminator wrap s = some turn) : turn ∈ turns := by
  obtain ⟨u, hBefore, hOpen, hMore, -⟩ := exists_of_turn? hTurn
  cases h with
  | closed hOther hNext =>
      cases hBefore.symm.trans hOther
      exact absurd hNext hOpen
  | ended hOther _ hNext =>
      cases hBefore.symm.trans hOther
      exact absurd hNext hMore
  | statement hOther _ =>
      cases hTurn.symm.trans hOther
      exact List.mem_cons_self

/-- The children of a block are what its statements add, in order. -/
theorem exists_turns {rounds : Nat} {found children : List NodeId}
    (h : e.statementsFrom (some separator) terminator wrap rounds found s = some (children, t)) :
    ∃ turns, e.Turns separator terminator wrap s turns t ∧
      children = found.reverse ++ turns.flatMap Turn.nodes := by
  induction rounds generalizing found s with
  | zero => cases h
  | succ rounds ih =>
      rw [statementsFrom_succ] at h
      simp only [Option.bind_eq_some_iff] at h
      obtain ⟨u, hBefore, h⟩ := h
      split at h
      · next hNext =>
        cases h
        exact ⟨[], .closed hBefore hNext, (List.append_nil _).symm⟩
      · next hOpen =>
        split at h
        · next hNext =>
          cases h
          exact ⟨[], .ended hBefore hOpen hNext, (List.append_nil _).symm⟩
        · next hMore =>
          simp only [Option.bind_eq_some_iff, Prod.exists] at h
          obtain ⟨statement, v, hStatement, skipped, w, hAfter, h⟩ := h
          obtain ⟨turns, hTurns, hChildren⟩ := ih h
          have hTurn : e.turn? separator terminator wrap s =
              some ⟨u.peeked, statement, v, skipped, w⟩ := by
            simp [turn?, hBefore, hOpen, hMore, hStatement, hAfter]
          refine ⟨⟨u.peeked, statement, v, skipped, w⟩ :: turns, .statement hTurn hTurns, ?_⟩
          rw [hChildren]
          cases skipped with
          | none => simp [Turn.nodes]
          | some node => simp [Turn.nodes]

/-- Every statement starts where a run has come to. -/
theorem Turns.run_start {turns : List Turn} (he : e.RunsBy g)
    (h : e.Turns separator terminator wrap s turns t) :
    ∀ turn ∈ turns, g.Run s turn.start ∧
      e.statement wrap turn.start = some (turn.statement, turn.stop) ∧
      e.afterStatement separator terminator (turn.start.errorCount < turn.stop.errorCount)
        turn.stop = some (turn.skipped, turn.after) := by
  induction h with
  | closed => exact List.forall_mem_nil _
  | ended => exact List.forall_mem_nil _
  | @statement s t turn turns hTurn hRest ih =>
      obtain ⟨u, hBefore, -, -, hStart, hStatement, hAfter⟩ := exists_of_turn? hTurn
      have hRun : g.Run s turn.start := by
        rw [hStart]
        exact (Grammar.Run.ofMoves (moves_skipBefore hBefore)).trans (g.run_peeked u)
      have hLater := (hRun.trans (he.run_statement hStatement)).trans
        (run_afterStatement he hasErrors_of_errorCount_lt hAfter)
      refine List.forall_mem_cons.mpr ⟨⟨hRun, hStatement, hAfter⟩, fun other hMem => ?_⟩
      obtain ⟨hRunOther, hOther⟩ := ih other hMem
      exact ⟨hLater.trans hRunOther, hOther⟩

end Engine

theorem Session.log_of_moves (h : s.Moves t) : t.log = s.log := by
  induction h with
  | refl => rfl
  | tail _ hLast ih =>
      cases hLast with
      | look => exact (log_peeked _).trans ih
      | consume => exact (log_consume _).trans ih

/-- Behind a statement that has failed, nothing is reported. -/
theorem Engine.log_afterStatement {e : Engine} {separator terminator : Symbol}
    {skipped : Option NodeId}
    (h : e.afterStatement separator terminator true s = some (skipped, t)) : t.log = s.log := by
  have hFault : (e.faultBoundary separator terminator true s).log = s.log := by
    rw [faultBoundary, if_pos (.inl rfl), log_peeked]
  rw [afterStatement_eq] at h
  split at h
  · cases h
    exact s.log_consume
  · split at h
    · cases h
      exact s.log_peeked
    · split at h
      · cases h
        exact hFault
      · simp only [skipToBoundary_eq, Option.bind_eq_some_iff, Prod.exists] at h
        obtain ⟨node, u, ⟨found, v, hSkipped, hNode⟩, hResult⟩ := h
        cases hResult
        have hLog : t.log = v.log := congrArg (·.2.log) (Option.some.inj hNode).symm
        rw [hLog, log_of_moves (moves_synchronize hSkipped), log_peeked, hFault]

namespace Grammar

/-- A block adds nothing of its own to a statement that has failed. It goes by the errors reported
since the statement started, so this is said of statements whose first token, which has been looked
at by then, does not make an invalid node on a report of the lexer's alone. The lexer has to report
the tokens that do; by `announces_ofSource` an ordinary lexicon does, if numbers are parsed with the
separators that they are read with. -/
theorem log_of_failed_statements (hBuiltIn : g.hasBuiltInParselets = true) {source : List Char}
    (hReported : ∀ lexeme ∈ g.lexicon.lexemes source, g.IsSilent source lexeme.token →
      ∃ m ∈ lexeme.messages, m.isError = true)
    {rounds depth : Nat} {id : NodeId} {opening : SourceRange} {separator terminator : Symbol}
    {wrap : Bool} (hRun : g.Run (.ofSource g.lexicon source) s)
    (hBlock : (g.engine rounds depth).block opening (some separator) terminator wrap s =
      some (id, t)) :
    ∃ turns u, (g.engine rounds depth).Turns separator terminator wrap s turns u ∧
      t.arena.kind? id = some (.block (turns.flatMap Turn.nodes) (some separator) terminator) ∧
      ∀ turn ∈ turns, ¬g.IsSilent source turn.start.coming.head →
        (∃ x symbol, turn.stop.arena.Holds turn.statement x ∧
          turn.stop.arena.kind? x = some (.invalid symbol)) →
        turn.after.log = turn.stop.log := by
  simp only [Engine.block, Option.bind_eq_bind, Option.bind_eq_some_iff, Prod.exists] at hBlock
  obtain ⟨children, u, hChildren, hNode⟩ := hBlock
  cases hNode
  obtain ⟨turns, hTurns, rfl⟩ := Engine.exists_turns hChildren
  refine ⟨turns, u, hTurns, u.arena.kind?_alloc_self _ _, fun turn hMem hFirst hInvalid => ?_⟩
  obtain ⟨hStart, hStatement, hAfter⟩ :=
    hTurns.run_start (runsBy_engine hBuiltIn rounds depth) turn hMem
  obtain ⟨x, symbol, hHolds, hKind⟩ := hInvalid
  have hHere : g.Run (.ofSource g.lexicon source) turn.start := hRun.trans hStart
  have hForesees := (foresees_ofSource hReported).mono (Run.continues hHere) (Run.unfolds hHere)
  have hSource : turn.start.source = source := (Run.continues hHere).source
  have hBuilds := (buildsBy_engine hBuiltIn rounds depth).statement [] (Nat.le_refl _) hStatement
  have hErrors : turn.start.errorCount < turn.stop.errorCount := by
    refine Builds.errorCount_lt_of_holds hBuilds hForesees (fun τ hAhead => ?_) hHolds hKind
    rw [hSource, eq_head_of_mem_ahead hForesees.ahead hAhead]
    exact hFirst
  rw [decide_eq_true hErrors] at hAfter
  exact Engine.log_afterStatement hAfter

end Grammar

namespace Sample

open Grammar

/-- The engine that parses short texts with operators. -/
def operatorEngine : Engine := operatorGrammar.engine 20 20

/-- The session behind the start of a text with operators. -/
def openSession (text : String) : Session :=
  (ofSource operatorGrammar.lexicon text.toList).consume.2

/-- The statements of a text with operators. -/
def statements (text : String) : Option (NodeId × Session) :=
  operatorEngine.block .synthetic (some semicolon) .eof false (openSession text)

theorem exists_of_isInvalid {a : Arena} {id : NodeId} (h : (a.kind? id).any (·.isInvalid) = true) :
    ∃ symbol, a.kind? id = some (.invalid symbol) := by
  obtain ⟨kind, hKind, hInvalid⟩ := (Option.any_eq_true _ _).mp h
  cases kind with
  | invalid symbol => exact ⟨symbol, hKind⟩
  | _ => cases hInvalid

/-- The operand that fails is not where the statement starts, so the token behind the statement is
passed over in silence. -/
theorem log_of_failed_statements_operand :
    ∃ id t turns u, statements "a + $ b; c" = some (id, t) ∧
      operatorEngine.Turns semicolon .eof false (openSession "a + $ b; c") turns u ∧
      ∃ turn ∈ turns, (∃ x symbol, turn.stop.arena.Holds turn.statement x ∧
        turn.stop.arena.kind? x = some (.invalid symbol)) ∧
        turn.skipped.isSome = true ∧ turn.after.log = turn.stop.log := by
  have hBlock : (statements "a + $ b; c").isSome = true := by decide +kernel
  have hFirst : (operatorEngine.turn? semicolon .eof false (openSession "a + $ b; c")).any
      (fun turn => turn.skipped.isSome && turn.start.coming.head.symbol == .name &&
        (turn.stop.arena.kind? turn.statement).any fun kind => kind.children.any fun child =>
          (turn.stop.arena.kind? child).any (·.isInvalid)) = true := by
    decide +kernel
  have hRules : operators.grammar .standard = .ok operatorGrammar :=
    Except.eq_ok_getD (by decide +kernel) default
  have hNumbers : operatorGrammar.numbersAgree = true := by decide +kernel
  have hOrdinary := isOrdinary_of_rules hRules (by decide +kernel) (by decide +kernel)
  obtain ⟨⟨id, t⟩, hParsed⟩ := Option.isSome_iff_exists.mp hBlock
  obtain ⟨turn, hTurn, hShape⟩ := (Option.any_eq_true _ _).mp hFirst
  simp only [Bool.and_eq_true, beq_iff_eq] at hShape
  obtain ⟨⟨hSkipped, hName⟩, hShape⟩ := hShape
  obtain ⟨kind, hKind, hChildren⟩ := (Option.any_eq_true _ _).mp hShape
  obtain ⟨child, hMem, hChild⟩ := List.any_eq_true.mp hChildren
  obtain ⟨symbol, hInvalid⟩ := exists_of_isInvalid hChild
  obtain ⟨turns, u, hTurns, -, hQuiet⟩ := log_of_failed_statements (g := operatorGrammar)
    (by decide +kernel)
    (fun lexeme hMem =>
      (announces_ofSource hNumbers hOrdinary _).upcoming lexeme (List.mem_cons_of_mem _ hMem))
    (run_consume _ _) hParsed
  have hBelow : ∃ x symbol, turn.stop.arena.Holds turn.statement x ∧
      turn.stop.arena.kind? x = some (.invalid symbol) :=
    ⟨child, symbol, .single ⟨kind, hKind, hMem⟩, hInvalid⟩
  have hFound := hTurns.mem_of_turn? hTurn
  refine ⟨id, t, turns, u, hParsed, hTurns, turn, hFound, hBelow, hSkipped,
    hQuiet turn hFound ?_ hBelow⟩
  apply not_isSilent hNumbers
  · rw [hName]
    decide
  · rw [hName]
    decide

/-- A statement that starts with a character that starts no token has been reported before it
starts, and a missing separator is reported behind it. -/
theorem log_of_failed_first_token :
    operatorEngine.recovery = .skipToBoundary ∧
    ∃ id t turns u, statements "$ a; b" = some (id, t) ∧
      operatorEngine.Turns semicolon .eof false (openSession "$ a; b") turns u ∧
      ∃ turn ∈ turns, (∃ x symbol, turn.stop.arena.Holds turn.statement x ∧
        turn.stop.arena.kind? x = some (.invalid symbol)) ∧
        turn.after.log = turn.stop.log ++ [⟨.unexpectedToken, .error,
          "expected ';' or end of input, found name", turn.stop.coming.head.range⟩] := by
  have hBlock : (statements "$ a; b").any (fun r =>
      (operatorEngine.turn? semicolon .eof false (openSession "$ a; b")).any fun turn =>
        (turn.stop.arena.kind? turn.statement).any (·.isInvalid) &&
        turn.after.log == turn.stop.log ++ [⟨.unexpectedToken, .error,
          "expected ';' or end of input, found name", turn.stop.coming.head.range⟩]) = true := by
    decide +kernel
  obtain ⟨⟨id, t⟩, hParsed, hTurn⟩ := (Option.any_eq_true _ _).mp hBlock
  obtain ⟨turn, hTurn, hShape⟩ := (Option.any_eq_true _ _).mp hTurn
  simp only [Bool.and_eq_true, beq_iff_eq] at hShape
  obtain ⟨hInvalid, hLog⟩ := hShape
  obtain ⟨symbol, hKind⟩ := exists_of_isInvalid hInvalid
  have hLoop := hParsed
  simp only [statements, Engine.block, Option.bind_eq_bind, Option.bind_eq_some_iff,
    Prod.exists] at hLoop
  obtain ⟨children, u, hChildren, -⟩ := hLoop
  obtain ⟨turns, hTurns, -⟩ := Engine.exists_turns hChildren
  refine ⟨by decide +kernel, id, t, turns, u, hParsed, hTurns, turn, hTurns.mem_of_turn? hTurn,
    ⟨turn.statement, symbol, .refl, hKind⟩, hLog⟩

end Sample

end Precedence
