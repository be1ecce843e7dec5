import Precedence.Proofs.Recovery.Progress

/-!
Two parses of one source that may part after an error. As long as they have not parted they are the
same; once they have, both have reported the same messages, with an error among them, and go their
own ways from there. There is one lemma for each construct, which takes this for granted of what is
nested; that they part at all is allowed only where a block deals with what follows a statement.
-/
namespace Precedence

open Session

/-- Two parsers have parted: whatever they result in, the same was reported first, with an error
among it. -/
def Parted {α : Type} (x y : Option (α × Session)) : Prop :=
  ∃ d : Diagnostics, d.hasErrors = true ∧
    (∀ r, x = some r → d.toList <+: r.2.diagnostics.toList) ∧
    ∀ r, y = some r → d.toList <+: r.2.diagnostics.toList

/-- Two parsers go on from a session with the library's constructs, and have the same result unless
they part. What they result in has a property in the arena that it is in. -/
structure Concur {α : Type} (P : α → Arena → Prop) (s : Session) (x y : Option (α × Session)) :
    Prop where
  left : ∀ r, x = some r → s.Proceeds r.2 ∧ P r.1 r.2.arena
  right : ∀ r, y = some r → s.Proceeds r.2 ∧ P r.1 r.2.arena
  same : s.Watchful → x = y ∨ Parted x y

/-- A node is in an arena. -/
def NodeId.IsIn (id : NodeId) (a : Arena) : Prop := a.contains id = true

/-- A property of everything in every arena. -/
def Anywhere {α : Type} (_ : α) (_ : Arena) : Prop := True

theorem Session.Proceeds.isIn {s t : Session} (h : s.Proceeds t) {id : NodeId}
    (hIn : id.IsIn s.arena) : id.IsIn t.arena :=
  h.continues.arena.contains hIn

theorem Session.isIn_alloc (s : Session) (kind : NodeKind) (range : SourceRange) :
    (s.alloc kind range).1.IsIn (s.alloc kind range).2.arena :=
  s.arena.contains_alloc_self kind range

namespace Concur

variable {α β : Type} {P : α → Arena → Prop} {Q : β → Arena → Prop} {s t : Session}
  {x y : Option (α × Session)}

theorem none : Concur P s .none .none := by
  refine ⟨fun r h => ?_, fun r h => ?_, fun _ => .inl rfl⟩
  all_goals cases h

/-- A result of both. -/
theorem some {r : α × Session} (h : s.Proceeds r.2) (hP : P r.1 r.2.arena) :
    Concur P s (.some r) (.some r) := by
  refine ⟨fun r' hSame => ?_, fun r' hSame => ?_, fun _ => .inl rfl⟩
  all_goals
    cases hSame
    exact ⟨h, hP⟩

/-- A new node. -/
theorem alloc (s : Session) (kind : NodeKind) (range : SourceRange) :
    Concur NodeId.IsIn s (.some (s.alloc kind range)) (.some (s.alloc kind range)) :=
  .some (s.proceeds_alloc kind range) (s.isIn_alloc kind range)

/-- A new node for a token that is rejected. -/
theorem rejected (s : Session) (token : Token) (m : Message) :
    Concur NodeId.IsIn s (.some (s.rejectedNode token m)) (.some (s.rejectedNode token m)) :=
  .some (s.proceeds_rejectedNode token m)
    ((Arena.extends_attach _ _ _).contains (Arena.contains_alloc_self _ _ _))

/-- A choice that both make alike. -/
theorem ite {c : Prop} [Decidable c] {x' y' : Option (α × Session)} (h : c → Concur P s x y)
    (h' : ¬c → Concur P s x' y') : Concur P s (if c then x else x') (if c then y else y') := by
  split
  · next hTrue => exact h hTrue
  · next hFalse => exact h' hFalse

/-- What goes on from a later session goes on from an earlier one. -/
theorem after (hBefore : s.Proceeds t) (h : Concur P t x y) : Concur P s x y := by
  refine ⟨fun r hResult => ?_, fun r hResult => ?_, fun hs => h.same (hBefore.watchful hs)⟩
  · exact ⟨hBefore.trans (h.left r hResult).1, (h.left r hResult).2⟩
  · exact ⟨hBefore.trans (h.right r hResult).1, (h.right r hResult).2⟩

/-- One parser after another. Once the first two have parted, so have the whole. -/
theorem bind {f f' : α × Session → Option (β × Session)} (h : Concur P s x y)
    (hNext : ∀ r, s.Proceeds r.2 → P r.1 r.2.arena → Concur Q r.2 (f r) (f' r)) :
    Concur Q s (x.bind f) (y.bind f') := by
  refine ⟨fun v hResult => ?_, fun v hResult => ?_, fun hs => ?_⟩
  · obtain ⟨r, hFirst, hLast⟩ := Option.bind_eq_some_iff.mp hResult
    obtain ⟨hProceeds, hP⟩ := h.left r hFirst
    obtain ⟨hLater, hQ⟩ := (hNext r hProceeds hP).left v hLast
    exact ⟨hProceeds.trans hLater, hQ⟩
  · obtain ⟨r, hFirst, hLast⟩ := Option.bind_eq_some_iff.mp hResult
    obtain ⟨hProceeds, hP⟩ := h.right r hFirst
    obtain ⟨hLater, hQ⟩ := (hNext r hProceeds hP).right v hLast
    exact ⟨hProceeds.trans hLater, hQ⟩
  · rcases h.same hs with rfl | ⟨d, hErrors, hLeft, hRight⟩
    · cases x with
      | none => exact .inl rfl
      | some r =>
          obtain ⟨hProceeds, hP⟩ := h.left r rfl
          exact (hNext r hProceeds hP).same (hProceeds.watchful hs)
    · refine .inr ⟨d, hErrors, fun v hResult => ?_, fun v hResult => ?_⟩
      · obtain ⟨r, hFirst, hLast⟩ := Option.bind_eq_some_iff.mp hResult
        obtain ⟨hProceeds, hP⟩ := h.left r hFirst
        exact (hLeft r hFirst).trans ((hNext r hProceeds hP).left v hLast).1.continues.reported
      · obtain ⟨r, hFirst, hLast⟩ := Option.bind_eq_some_iff.mp hResult
        obtain ⟨hProceeds, hP⟩ := h.right r hFirst
        exact (hRight r hFirst).trans ((hNext r hProceeds hP).right v hLast).1.continues.reported

/-- Both parsers after tokens have been skipped. -/
theorem afterSkip {z : Option Session} {f f' : Session → Option (α × Session)}
    (hSkip : ∀ t, z = .some t → s.Proceeds t) (hNext : ∀ t, Concur P t (f t) (f' t)) :
    Concur P s (z.bind f) (z.bind f') := by
  cases z with
  | none => exact .none
  | some t => exact (hNext t).after (hSkip t rfl)

end Concur

/-- A session after a number of questions for tokens. -/
theorem Session.proceeds_of_moves {s t : Session} (h : s.Moves t) : s.Proceeds t := by
  induction h with
  | refl => exact .refl s
  | tail _ hLast ih =>
      refine ih.trans ?_
      cases hLast with
      | look => exact proceeds_peeked _
      | consume => exact proceeds_consume _

namespace Engine

/-! ### What follows a statement -/

section

variable {e : Engine} {s : Session}

theorem proceeds_faultBoundary (separator terminator : Symbol) (failed : Bool) (s : Session) :
    s.Proceeds (e.faultBoundary separator terminator failed s) := by
  unfold faultBoundary
  split
  · exact s.proceeds_peeked
  · exact s.proceeds_peeked.trans (proceeds_fault _ _ rfl _)

/-- Where no boundary follows a statement, an error has been reported: with the statement, by the
lexer, or just now. -/
theorem hasErrors_faultBoundary (hs : s.Watchful) {failed : Bool}
    (hFailed : failed = true → s.diagnostics.hasErrors = true) (separator terminator : Symbol) :
    (e.faultBoundary separator terminator failed s).diagnostics.hasErrors = true := by
  unfold faultBoundary
  split
  · next hReason =>
    rcases hReason with hBefore | hInvalid
    · exact Diagnostics.hasErrors_of_prefix s.continues_peeked.reported (hFailed hBefore)
    · exact hs.hasErrors_peeked hInvalid
  · exact hasErrors_fault _ _ _ _

theorem proceeds_skipToBoundary {separator terminator : Symbol} {r : NodeId × Session}
    (h : e.skipToBoundary separator terminator s = some r) : s.Proceeds r.2 := by
  rw [skipToBoundary_eq] at h
  obtain ⟨skipped, hSkipped, hNode⟩ := Option.bind_eq_some_iff.mp h
  cases hNode
  exact (s.proceeds_peeked.trans (proceeds_of_moves (moves_synchronize hSkipped))).trans
    (proceeds_alloc _ _ _)

/-- Either policy goes on from where a fault was reported. -/
theorem proceeds_of_policy {policy : RecoveryPolicy} {separator terminator : Symbol}
    {r : Option NodeId × Session}
    (h : (match policy with
      | .none => some (none, s)
      | .skipToBoundary =>
        (e.skipToBoundary separator terminator s).bind fun r => some (some r.1, r.2)) = some r) :
    s.Proceeds r.2 := by
  cases policy with
  | none =>
      cases h
      exact .refl s
  | skipToBoundary =>
      obtain ⟨skipped, hSkipped, hNode⟩ := Option.bind_eq_some_iff.mp h
      cases hNode
      exact proceeds_skipToBoundary hSkipped

end

/-- Two engines of one grammar parse what is nested alike until they part. -/
structure Concurs (e e' : Engine) : Prop where
  symbols : e'.symbols = e.symbols
  rounds : e'.rounds = e.rounds
  expression (threshold : BindingPower) (s : Session) :
    Concur NodeId.IsIn s (e.expression threshold s) (e'.expression threshold s)
  statement (wrap : Bool) (s : Session) :
    Concur NodeId.IsIn s (e.statement wrap s) (e'.statement wrap s)

namespace Concurs

variable {e e' : Engine} (h : e.Concurs e') {s : Session}

include h

/-! ### Sequences -/

theorem separatedFrom (separator terminator : Symbol) (power : BindingPower) (rounds : Nat)
    (items : List NodeId) (s : Session) :
    Concur Anywhere s (e.separatedFrom separator terminator power rounds items s)
      (e'.separatedFrom separator terminator power rounds items s) := by
  induction rounds generalizing items s with
  | zero => exact .none
  | succ rounds ih =>
      rw [separatedFrom_succ, separatedFrom_succ, h.symbols]
      refine .ite (fun _ => .some s.proceeds_consume trivial) fun _ =>
        .ite (fun _ => .some ?_ trivial) fun _ => .after s.proceeds_peeked ?_
      · exact s.proceeds_peeked.trans (proceeds_fault _ _ rfl _)
      · refine (h.expression power _).bind fun r _ _ =>
          .ite (fun _ => .after r.2.proceeds_consume (ih _ _)) fun _ => .some ?_ trivial
        exact r.2.proceeds_peeked.trans (proceeds_expect _ _ _)

theorem separated (separator terminator : Symbol) (power : BindingPower) (s : Session) :
    Concur Anywhere s (e.separated separator terminator power s)
      (e'.separated separator terminator power s) := by
  rw [Engine.separated, Engine.separated, h.rounds]
  exact h.separatedFrom separator terminator power e.rounds [] s

/-! ### Blocks -/

theorem faultBoundary_eq (separator terminator : Symbol) (failed : Bool) (s : Session) :
    e'.faultBoundary separator terminator failed s =
      e.faultBoundary separator terminator failed s := by
  unfold faultBoundary
  rw [h.symbols]

/-- What follows a statement is dealt with alike up to an error, whatever the policies are. -/
theorem afterStatement (separator terminator : Symbol) {failed : Bool}
    (hFailed : failed = true → s.diagnostics.hasErrors = true) :
    Concur Anywhere s (e.afterStatement separator terminator failed s)
      (e'.afterStatement separator terminator failed s) := by
  have hFault : s.Proceeds (e.faultBoundary separator terminator failed s) :=
    proceeds_faultBoundary separator terminator failed s
  rw [afterStatement_eq, afterStatement_eq, h.faultBoundary_eq]
  refine .ite (fun _ => .some s.proceeds_consume trivial) fun _ =>
    .ite (fun _ => .some s.proceeds_peeked trivial) fun _ =>
      ⟨fun r hResult => ⟨hFault.trans (proceeds_of_policy hResult), trivial⟩,
        fun r hResult => ⟨hFault.trans (proceeds_of_policy hResult), trivial⟩, fun hs => .inr ?_⟩
  -- the policies are asked about the same session, and an error has been reported in it
  exact ⟨_, hasErrors_faultBoundary hs hFailed separator terminator,
    fun r hResult => (proceeds_of_policy hResult).continues.reported,
    fun r hResult => (proceeds_of_policy hResult).continues.reported⟩

theorem statementsFrom (separator : Option Symbol) (terminator : Symbol) (wrap : Bool)
    (rounds : Nat) (found : List NodeId) (s : Session) :
    Concur Anywhere s (e.statementsFrom separator terminator wrap rounds found s)
      (e'.statementsFrom separator terminator wrap rounds found s) := by
  have hSkip (s : Session) : e'.skipBefore separator s = e.skipBefore separator s := by
    unfold skipBefore
    rw [h.rounds]
  induction rounds generalizing found s with
  | zero => exact .none
  | succ rounds ih =>
      rw [statementsFrom_succ, statementsFrom_succ, h.symbols, hSkip]
      refine .afterSkip (fun t hBefore => proceeds_of_moves (moves_skipBefore hBefore)) fun t =>
        .ite (fun _ => .some t.proceeds_consume trivial) fun _ =>
          .ite (fun _ => .some ?_ trivial) fun _ => .after t.proceeds_peeked ?_
      · exact t.proceeds_peeked.trans (proceeds_fault _ _ rfl _)
      · refine (h.statement wrap _).bind fun r _ _ => ?_
        cases separator with
        | none => exact ih _ _
        | some boundary =>
            exact (h.afterStatement boundary terminator hasErrors_of_errorCount_lt).bind
              fun skipped _ _ => ih _ _

theorem block (opening : SourceRange) (separator : Option Symbol) (terminator : Symbol)
    (wrap : Bool) (s : Session) :
    Concur NodeId.IsIn s (e.block opening separator terminator wrap s)
      (e'.block opening separator terminator wrap s) := by
  rw [Engine.block, Engine.block, h.rounds]
  exact (h.statementsFrom separator terminator wrap e.rounds [] s).bind fun r _ _ => .alloc r.2 _ _

/-! ### Groups, calls and functions -/

theorem closeGroup (closing : Symbol) (wrapped : Bool) (token : Token) {inner : NodeId}
    (hInner : inner.IsIn s.arena) :
    Concur NodeId.IsIn s (some (e.closeGroup closing wrapped token inner s))
      (some (e'.closeGroup closing wrapped token inner s)) := by
  simp only [Engine.closeGroup, h.symbols]
  have hClosed := s.proceeds_expect e.symbols closing
  cases wrapped with
  | true => exact .after hClosed (.alloc _ _ _)
  | false =>
      have hRange := hClosed.trans
        (proceeds_setRange _ inner ((s.expect e.symbols closing).2.rangeFrom token.range))
      exact .some hRange (hRange.isIn hInner)

theorem group (closing : Symbol) (separator : Option Symbol) (wrapped : Bool) (token : Token)
    (s : Session) :
    Concur NodeId.IsIn s (e.group closing separator wrapped token s)
      (e'.group closing separator wrapped token s) := by
  cases separator with
  | none =>
      exact (h.expression .lowest s).bind fun r _ hInner =>
        h.closeGroup closing wrapped token hInner
  | some separator =>
      rw [Engine.group, Engine.group, tupleOrGroup_eq, tupleOrGroup_eq]
      refine .ite (fun _ => .after s.proceeds_consume (.alloc _ _ _)) fun _ =>
        .after s.proceeds_peeked ?_
      refine (h.expression .lowest _).bind fun r _ hInner => .ite (fun _ => ?_) fun _ => ?_
      · exact .after r.2.proceeds_consume
          ((h.separated separator closing .lowest _).bind fun items _ _ => .alloc _ _ _)
      · exact .after r.2.proceeds_peeked
          (h.closeGroup closing wrapped token (r.2.proceeds_peeked.isIn hInner))

theorem call (closing separator : Symbol) (callee : NodeId) (s : Session) :
    Concur NodeId.IsIn s (e.call closing separator callee s)
      (e'.call closing separator callee s) :=
  (h.separated separator closing .lowest s).bind fun _ _ _ => .alloc _ _ _

/-- The fault of a function is attached to what stands in front of its arrow, which is in the
arena. -/
theorem lambda (power : BindingPower) {left : NodeId} (hLeft : left.IsIn s.arena) :
    Concur NodeId.IsIn s (e.lambda power left s) (e'.lambda power left s) := by
  refine (h.expression power.below s).bind fun r hBody _ => ?_
  have hNode := r.2.proceeds_alloc
    (.lambda ((s.arena.parameters? left).getD [left]) r.1) (r.2.rangeFrom (r.2.nodeRange left))
  rw [h.symbols]
  refine .ite (fun _ => .alloc _ _ _) fun _ => ?_
  have hFlag := proceeds_flag _ e.symbols .invalidParameters
    (((r.2.alloc (.lambda ((s.arena.parameters? left).getD [left]) r.1)
      (r.2.rangeFrom (r.2.nodeRange left))).2).nodeRange left) (hNode.isIn (hBody.isIn hLeft))
  exact .some (hNode.trans hFlag) (hFlag.isIn (r.2.isIn_alloc _ _))

/-! ### Literals -/

omit h in
theorem proceeds_attachFaults (faults : List (SyntaxFault × SourceRange)) {node : NodeId}
    (hNode : node.IsIn s.arena) : s.Proceeds (e.attachFaults node faults s) := by
  unfold attachFaults
  induction faults generalizing s with
  | nil => exact .refl s
  | cons fault faults ih =>
      have hFlag := s.proceeds_flag e.symbols fault.1 fault.2 hNode
      exact hFlag.trans (ih (hFlag.isIn hNode))

theorem string (escape : Option Char) (token : Token) (s : Session) :
    Concur NodeId.IsIn s (some (e.string escape token s)) (some (e'.string escape token s)) := by
  cases escape with
  | none => exact .alloc _ _ _
  | some escape =>
      have hSame (node : NodeId) (faults : List (SyntaxFault × SourceRange)) (t : Session) :
          e'.attachFaults node faults t = e.attachFaults node faults t := by
        unfold attachFaults
        rw [h.symbols]
      have hIn := s.isIn_alloc
        (.literal (.string (String.ofList (unescape escape (s.payload token)).value))) token.range
      have hFaults (faults : List (SyntaxFault × SourceRange)) :=
        proceeds_attachFaults (e := e) faults hIn
      simp only [Engine.string, hSame]
      exact .some ((s.proceeds_alloc _ _).trans (hFaults _)) ((hFaults _).isIn hIn)

theorem number (separators : Separators) (token : Token) (s : Session) :
    Concur NodeId.IsIn s (some (e.number separators token s))
      (some (e'.number separators token s)) := by
  unfold Engine.number
  rw [h.symbols]
  split
  · exact .alloc _ _ _
  · exact .alloc _ _ _
  · exact .rejected _ _ _

/-! ### What starts an expression and what goes on from one -/

theorem parsePrefix {parselet : PrefixParselet} (hBuiltIn : parselet.isBuiltIn = true)
    (token : Token) (s : Session) :
    Concur NodeId.IsIn s (e.parsePrefix parselet token s) (e'.parsePrefix parselet token s) := by
  cases parselet with
  | name => exact .some (s.proceeds_nameNode token) (Arena.contains_alloc_self _ _ _)
  | number separators => exact h.number separators token s
  | boolean => exact .alloc _ _ _
  | string escape => exact h.string escape token s
  | operator power => exact (h.expression power s).bind fun _ _ _ => .alloc _ _ _
  | group closing separator wrapped => exact h.group closing separator wrapped token s
  | block separator terminator wrap => exact h.block token.range separator terminator wrap s
  | custom parse => cases hBuiltIn

theorem parseInfix {parselet : InfixParselet} (hBuiltIn : parselet.form.isBuiltIn = true)
    {left : NodeId} (token : Token) (hLeft : left.IsIn s.arena) :
    Concur NodeId.IsIn s (e.parseInfix parselet left token s)
      (e'.parseInfix parselet left token s) := by
  obtain ⟨power, form⟩ := parselet
  cases form with
  | postfixed => exact .alloc _ _ _
  | binary associativity =>
      exact (h.expression (associativity.threshold power) s).bind fun _ _ _ => .alloc _ _ _
  | ternary second =>
      refine (h.expression .lowest s).bind fun r _ _ => ?_
      rw [h.symbols]
      refine .after (r.2.proceeds_expect e.symbols second) ?_
      exact (h.expression power.below _).bind fun _ _ _ => .alloc _ _ _
  | call closing separator => exact h.call closing separator left s
  | lambda => exact h.lambda power hLeft
  | custom parse => cases hBuiltIn

end Concurs

end Engine

namespace Grammar

variable {g : Grammar} {e e' : Engine} {s : Session} (hBuiltIn : g.hasBuiltInParselets = true)

include hBuiltIn

theorem concur_startExpression (h : e.Concurs e') (token : Token) (s : Session) :
    Concur NodeId.IsIn s (g.startExpression e token s) (g.startExpression e' token s) := by
  unfold startExpression
  rw [h.symbols]
  refine .ite (fun _ => .rejected _ _ _) fun _ => .ite (fun _ => .alloc _ _ _) fun _ => ?_
  split
  · next parselet hParselet =>
    exact h.parsePrefix (isBuiltIn_of_prefixFor? hBuiltIn hParselet) token s
  · exact .rejected _ _ _

theorem concur_continueExpression (h : e.Concurs e') (threshold : BindingPower) (rounds : Nat)
    {left : NodeId} (hLeft : left.IsIn s.arena) :
    Concur NodeId.IsIn s (g.continueExpression e threshold rounds left s)
      (g.continueExpression e' threshold rounds left s) := by
  induction rounds generalizing left s with
  | zero => exact .none
  | succ rounds ih =>
      have hConsumed := s.proceeds_consume
      rw [continueExpression_succ, continueExpression_succ, h.symbols]
      refine .ite (fun _ => .some s.proceeds_peeked (s.proceeds_peeked.isIn hLeft)) fun _ => ?_
      split
      · have hFault := hConsumed.trans (proceeds_fault s.consume.2 e.symbols
          (f := .noInfix s.coming.head.symbol) rfl s.coming.head.range)
        exact .some hFault (hFault.isIn hLeft)
      · next parselet hParselet =>
        refine .after hConsumed ?_
        exact (h.parseInfix (isBuiltIn_of_infixFor? hBuiltIn hParselet) _
          (hConsumed.isIn hLeft)).bind fun r _ hNode => ih hNode

theorem concur_parseExpression (h : e.Concurs e') (threshold : BindingPower) (s : Session) :
    Concur NodeId.IsIn s (g.parseExpression e threshold s) (g.parseExpression e' threshold s) := by
  rw [parseExpression_eq, parseExpression_eq, h.rounds]
  exact .after s.proceeds_consume ((concur_startExpression hBuiltIn h _ _).bind
    fun r _ hNode => concur_continueExpression hBuiltIn h threshold e.rounds hNode)

theorem concur_parseStatement (h : e.Concurs e') (wrap : Bool) (s : Session) :
    Concur NodeId.IsIn s (g.parseStatement e wrap s) (g.parseStatement e' wrap s) := by
  rw [parseStatement_eq, parseStatement_eq, statementFor?_eq_none hBuiltIn]
  refine .after s.proceeds_peeked ((concur_parseExpression hBuiltIn h .lowest _).bind
    fun r _ hNode => .ite (fun _ => .alloc _ _ _) fun _ => .some (.refl _) hNode)

end Grammar

end Precedence
