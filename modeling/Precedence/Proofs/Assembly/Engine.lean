import Precedence.Proofs.Assembly.Sequences
import Precedence.Proofs.Escape
import Precedence.Proofs.Lexer.Layout

/-!
Everything that is parsed with the library's own parselets is assembled from what it consumes: an
expression or a statement adds one node to the pieces on the bench. There is one lemma for each
construct, which says with which pieces in front of it the construct starts, and one induction on
the depth of the engine at the end.
-/
namespace Precedence

open Session Relation

section

variable {g : Grammar} {e : Engine} {s t : Session} {id : NodeId} {floor : Nat}

open Grammar

namespace Engine

/-! ### Groups, calls and functions -/

theorem builds_closeGroup (he : e.BuildsBy g) {closing : Symbol} (wrapped : Bool) {token : Token}
    (inner : NodeId) (hToken : token.symbol ≠ .invalid)
    (hMarks : .invalid ∉ g.marks → .invalid ≠ closing) (s : Session) (p : List Piece) :
    g.Builds floor ⟨s, p ++ [.token token, .node inner]⟩
      ⟨(e.closeGroup closing wrapped token inner s).2,
        p ++ [.node (e.closeGroup closing wrapped token inner s).1]⟩ := by
  obtain ⟨closed, hClosed, hBuilds⟩ := exists_builds_expect g floor s
    (p ++ [.token token, .node inner]) closing
  simp only [List.append_assoc, List.cons_append, List.nil_append] at hBuilds
  have hMeans : g.Means (.token token :: .node inner :: closed.map .token) :=
    ((means_of_areOf hClosed fun hUnmarked => by simpa using hMarks hUnmarked).node inner).token
      fun _ => hToken
  unfold closeGroup
  rw [he.symbols]
  cases wrapped with
  | true =>
      refine hBuilds.tail (.make _ p ?_ rfl hMeans (.inl rfl))
      have hNodes : Piece.nodes (.token token :: .node inner :: closed.map .token) = [inner] := by
        simp
      rw [hNodes]
      exact .children (.group inner)
  | false => exact hBuilds.tail (.ungroup _ p hMeans)

theorem builds_group (he : e.BuildsBy g) {closing : Symbol} {separator : Option Symbol}
    {wrapped : Bool} {token : Token} (hToken : token.symbol ≠ .invalid)
    (hMarks : .invalid ∉ g.marks → .invalid ∉ closing :: separator.toList)
    (hFloor : floor ≤ s.errorCount)
    (h : e.group closing separator wrapped token s = some (id, t)) (p : List Piece) :
    g.Builds floor ⟨s, p ++ [.token token]⟩ ⟨t, p ++ [.node id]⟩ := by
  have hClosing : .invalid ∉ g.marks → .invalid ≠ closing :=
    fun hUnmarked hSame => hMarks hUnmarked (hSame ▸ List.mem_cons_self)
  cases separator with
  | none =>
      simp only [group, enclosed, Option.bind_eq_bind, Option.bind_eq_some_iff, Prod.exists] at h
      obtain ⟨inner, u, hInner, hNode⟩ := h
      have hBuilds := he.expression (p ++ [.token token]) hFloor hInner
      rw [List.append_assoc] at hBuilds
      exact .of_result
        (hBuilds.trans (builds_closeGroup he wrapped inner hToken hClosing u p)) hNode
  | some separator =>
      rw [group, tupleOrGroup_eq] at h
      split at h
      · next hEmpty =>
        cases h
        have hBuilds := builds_consume g floor s (p ++ [.token token])
        rw [List.append_assoc] at hBuilds
        refine hBuilds.tail (.make _ p (.children (.tuple [])) rfl ?_ (.inl rfl))
        refine ((means_nil g).token fun hUnmarked => ?_).token fun _ => hToken
        rw [hEmpty]
        exact (hClosing hUnmarked).symm
      · simp only [Option.bind_eq_some_iff, Prod.exists] at h
        obtain ⟨inner, u, hInner, h⟩ := h
        have hBuilds := (builds_peeked g floor s (p ++ [.token token])).trans
          (he.expression _ (errorCount_le_peeked hFloor) hInner)
        have hReached := Builds.errorCount_le hBuilds hFloor
        rw [List.append_assoc] at hBuilds
        split at h
        · next hFound =>
          simp only [Option.bind_eq_some_iff, Prod.exists] at h
          obtain ⟨items, v, hItems, hNode⟩ := h
          cases hNode
          obtain ⟨pieces, hPieces, hFoundItems, hLater⟩ := exists_builds_separatedFrom he
            (errorCount_le_consume hReached) hItems
            (p ++ [.token token, .node inner] ++ [.token u.coming.head])
          have hAll := (hBuilds.trans (builds_consume g floor u _)).trans hLater
          simp only [List.append_assoc, List.cons_append, List.nil_append] at hAll
          refine hAll.tail (.make v p ?_ rfl ?_ (.inl rfl))
          · have hNodes : Piece.nodes (.token token :: .node inner :: .token u.coming.head ::
                pieces) = inner :: items := by simp [hFoundItems]
            rw [hNodes]
            exact .children (.tuple (inner :: items))
          · have hRest := hPieces.token (τ := u.coming.head)
              (hFound ▸ List.mem_cons_of_mem _ List.mem_cons_self)
            exact ((means_of_areOf hRest hMarks).node inner).token fun _ => hToken
        · exact .of_result ((hBuilds.trans (builds_peeked g floor u _)).trans
            (builds_closeGroup he wrapped inner hToken hClosing u.peeked p)) h

theorem builds_call (he : e.BuildsBy g) {closing separator : Symbol} {callee : NodeId}
    {token : Token} (hToken : .invalid ∉ g.marks → token.symbol ≠ .invalid)
    (hMarks : .invalid ∉ g.marks → .invalid ∉ [closing, separator]) (hFloor : floor ≤ s.errorCount)
    (h : e.call closing separator callee s = some (id, t)) (p : List Piece) :
    g.Builds floor ⟨s, p ++ [.node callee, .token token]⟩ ⟨t, p ++ [.node id]⟩ := by
  simp only [call, Option.bind_eq_bind, Option.bind_eq_some_iff, Prod.exists] at h
  obtain ⟨args, u, hArgs, hNode⟩ := h
  cases hNode
  obtain ⟨pieces, hPieces, hFound, hBuilds⟩ := exists_builds_separatedFrom he hFloor hArgs
    (p ++ [.node callee, .token token])
  simp only [List.append_assoc, List.cons_append, List.nil_append] at hBuilds
  refine hBuilds.tail (.make u p ?_ rfl ?_ (.inl rfl))
  · have hNodes : Piece.nodes (.node callee :: .token token :: pieces) = callee :: args := by
      simp [hFound]
    rw [hNodes]
    exact .children (.call callee args)
  · exact ((means_of_areOf hPieces hMarks).token hToken).node callee

/-- A function takes the names of its parameters out of their tuple. -/
theorem builds_lambda (he : e.BuildsBy g) {power : BindingPower} {left : NodeId} {token : Token}
    (hToken : .invalid ∉ g.marks → token.symbol ≠ .invalid) (hFloor : floor ≤ s.errorCount)
    (h : e.lambda power left s = some (id, t)) (p : List Piece) :
    g.Builds floor ⟨s, p ++ [.node left, .token token]⟩ ⟨t, p ++ [.node id]⟩ := by
  simp only [lambda, he.symbols, Option.bind_eq_bind, Option.bind_eq_some_iff, Prod.exists] at h
  obtain ⟨body, u, hBody, h⟩ := h
  have hBuilds := he.expression (p ++ [.node left, .token token]) hFloor hBody
  have hExtends := (Builds.continues hBuilds).arena
  simp only [List.append_assoc, List.cons_append, List.nil_append] at hBuilds
  have hMeans : g.Means [.node left, .token token, .node body] :=
    (((means_nil g).node body).token hToken).node left
  cases hParams : s.arena.parameters? left with
  | none =>
      rw [hParams] at h
      cases h
      have hNode : g.Builds floor ⟨s, p ++ [.node left, .token token]⟩ ⟨_, p ++ [.node _]⟩ :=
        hBuilds.tail (.make u p (.children (.lambda [left] body)) rfl hMeans (.inl rfl))
      exact hNode.tail (.parameters _ p ⟨_, Arena.kind?_alloc_self _ _ _, List.mem_cons_self⟩)
  | some params =>
      rw [hParams] at h
      cases h
      refine hBuilds.tail (.make u p ?_ rfl hMeans (.inl rfl))
      exact Arena.gathers_of_parameters? hExtends hParams body

/-! ### Literals -/

/-- A node for the token consumed last, which has no children. -/
theorem builds_leaf (g : Grammar) (floor : Nat) (kind : NodeKind) (hLeaf : kind.children = [])
    (hKind : kind.isInvalid = false) (s : Session) (hValid : s.previous.symbol ≠ .invalid)
    (p : List Piece) :
    g.Builds floor ⟨s, p ++ [.token s.previous]⟩
      ⟨(s.alloc kind s.previous.range).2, p ++ [.node (s.alloc kind s.previous.range).1]⟩ := by
  have hGathers : s.arena.Gathers (Piece.nodes [.token s.previous]) kind := by
    change s.arena.Gathers [] kind
    rw [← hLeaf]
    exact .children kind
  exact .single (.make s p hGathers hKind ((means_nil g).token fun _ => hValid) (.inr ⟨rfl, rfl⟩))

theorem builds_name (s : Session) (hValid : s.previous.symbol ≠ .invalid) (p : List Piece) :
    g.Builds floor ⟨s, p ++ [.token s.previous]⟩
      ⟨(s.nameNode s.previous).2, p ++ [.node (s.nameNode s.previous).1]⟩ := by
  let named := s.arena.internName (String.ofList (s.payload s.previous))
  have hNode := builds_leaf g floor (.name named.1) rfl rfl { s with arena := named.2 } hValid p
  exact .head (.intern s _ (String.ofList (s.payload s.previous))) hNode

/-- The number consumed last makes a literal, or an invalid node that someone has reported. -/
theorem builds_number (he : e.BuildsBy g) {separators : Separators}
    (hParselet : g.prefixFor? s.previous.symbol = some (.number separators))
    (hValid : s.previous.symbol ≠ .invalid) (p : List Piece) :
    g.Builds floor ⟨s, p ++ [.token s.previous]⟩
      ⟨(e.number separators s.previous s).2,
        p ++ [.node (e.number separators s.previous s).1]⟩ := by
  unfold number
  rw [he.symbols]
  split
  · exact builds_leaf g floor _ rfl rfl s hValid p
  · next hDigits => exact builds_spare g floor s p (.inr ⟨separators, hParselet, hDigits⟩)
  · exact .single (.reject s p hValid)

/-- A fault of the text of a token: a bad escape in it. -/
def IsEscapeIn (token : Token) (fault : SyntaxFault × SourceRange) : Prop :=
  (∃ sequence, fault.1 = .invalidEscape sequence) ∧
    fault.2.span.start < fault.2.span.stop ∧ fault.2.span.IsWithin token.text

theorem isEscapeIn_escapeRange (token : Token) (source : List Char) (escape : Char) :
    ∀ fault ∈ (unescape escape (token.payload source)).errors.map fun error =>
      (SyntaxFault.invalidEscape error.sequence,
        escapeRange source token (token.payload source) error), IsEscapeIn token fault := by
  refine List.forall_mem_map.mpr fun error hMem => ?_
  obtain ⟨hSome, hInside⟩ := Token.within_of_mem_errors hMem
  exact ⟨⟨_, rfl⟩, Nat.lt_add_of_pos_right hSome, Nat.le_add_right _ _, hInside⟩

theorem findsEscape_escapeRange (s : Session) {escape : Char}
    (hParselet : g.prefixFor? s.previous.symbol = some (.string (some escape))) :
    ∀ fault ∈ (unescape escape (s.previous.payload s.source)).errors.map fun error =>
      (SyntaxFault.invalidEscape error.sequence,
        escapeRange s.source s.previous (s.previous.payload s.source) error),
      g.FindsEscape s fault.2 :=
  List.forall_mem_map.mpr fun error hMem => ⟨escape, hParselet, error, hMem, rfl⟩

/-- Bad escapes are attached to the node of the token consumed last. -/
theorem builds_attachFaults (he : e.BuildsBy g) (floor : Nat) (node : NodeId) {token : Token}
    {faults : List (SyntaxFault × SourceRange)} (hFaults : ∀ fault ∈ faults, IsEscapeIn token fault)
    (s : Session) (hToken : s.previous = token) (hValid : token.symbol ≠ .invalid)
    (hFound : ∀ fault ∈ faults, g.FindsEscape s fault.2) (p : List Piece) :
    g.Builds floor ⟨s, p ++ [.node node]⟩ ⟨e.attachFaults node faults s, p ++ [.node node]⟩ := by
  unfold attachFaults
  rw [he.symbols]
  induction faults generalizing s with
  | nil => exact .refl
  | cons fault faults ih =>
      obtain ⟨hFirst, hRest⟩ := List.forall_mem_cons.mp hFaults
      obtain ⟨hFirstFound, hRestFound⟩ := List.forall_mem_cons.mp hFound
      obtain ⟨f, range⟩ := fault
      obtain ⟨⟨sequence, rfl⟩, hSome, hWithin⟩ := hFirst
      rw [List.foldl_cons]
      rw [← hToken] at hValid hWithin
      exact .head (.escape s p hValid hSome hWithin.1 hWithin.2 hFirstFound)
        (ih hRest _ hToken hRestFound)

theorem builds_string (he : e.BuildsBy g) {escape : Option Char} (s : Session)
    (hParselet : g.prefixFor? s.previous.symbol = some (.string escape))
    (hValid : s.previous.symbol ≠ .invalid) (p : List Piece) :
    g.Builds floor ⟨s, p ++ [.token s.previous]⟩
      ⟨(e.string escape s.previous s).2, p ++ [.node (e.string escape s.previous s).1]⟩ := by
  cases escape with
  | none => exact builds_leaf g floor _ rfl rfl s hValid p
  | some escape =>
      have hFaults (kind : NodeKind) (node : NodeId) :=
        builds_attachFaults he floor node (isEscapeIn_escapeRange s.previous s.source escape)
          (s.alloc kind s.previous.range).2 rfl hValid (findsEscape_escapeRange s hParselet) p
      exact (builds_leaf g floor _ rfl rfl s hValid p).trans (hFaults _ _)

/-! ### Operators -/

theorem builds_prefixOperator (he : e.BuildsBy g) {power : BindingPower} {token : Token}
    (hToken : token.symbol ≠ .invalid) (hFloor : floor ≤ s.errorCount)
    (h : e.prefixOperator power token s = some (id, t)) (p : List Piece) :
    g.Builds floor ⟨s, p ++ [.token token]⟩ ⟨t, p ++ [.node id]⟩ := by
  simp only [prefixOperator, Option.bind_eq_bind, Option.bind_eq_some_iff, Prod.exists] at h
  obtain ⟨operand, u, hOperand, hNode⟩ := h
  cases hNode
  have hBuilds := he.expression (p ++ [.token token]) hFloor hOperand
  rw [List.append_assoc] at hBuilds
  exact hBuilds.tail (.make u p (.children (.prefixed token.symbol operand)) rfl
    (((means_nil g).node operand).token fun _ => hToken) (.inl rfl))

theorem builds_postfixOperator (left : NodeId) {token : Token}
    (hToken : .invalid ∉ g.marks → token.symbol ≠ .invalid) (s : Session) (p : List Piece) :
    g.Builds floor ⟨s, p ++ [.node left, .token token]⟩
      ⟨(postfixOperator left token s).2, p ++ [.node (postfixOperator left token s).1]⟩ :=
  .single (.make s p (.children (.postfixed token.symbol left)) rfl
    (((means_nil g).token hToken).node left) (.inl rfl))

theorem builds_binaryOperator (he : e.BuildsBy g) {associativity : Associativity}
    {power : BindingPower} {left : NodeId} {token : Token}
    (hToken : .invalid ∉ g.marks → token.symbol ≠ .invalid) (hFloor : floor ≤ s.errorCount)
    (h : e.binaryOperator associativity power left token s = some (id, t)) (p : List Piece) :
    g.Builds floor ⟨s, p ++ [.node left, .token token]⟩ ⟨t, p ++ [.node id]⟩ := by
  simp only [binaryOperator, Option.bind_eq_bind, Option.bind_eq_some_iff, Prod.exists] at h
  obtain ⟨right, u, hRight, hNode⟩ := h
  cases hNode
  have hBuilds := he.expression (p ++ [.node left, .token token]) hFloor hRight
  rw [List.append_assoc] at hBuilds
  exact hBuilds.tail (.make u p (.children (.binary left token.symbol right)) rfl
    ((((means_nil g).node right).token hToken).node left) (.inl rfl))

theorem builds_ternary (he : e.BuildsBy g) {second : Symbol} {power : BindingPower}
    {condition : NodeId} {token : Token} (hToken : .invalid ∉ g.marks → token.symbol ≠ .invalid)
    (hMarks : .invalid ∉ g.marks → .invalid ∉ [second]) (hFloor : floor ≤ s.errorCount)
    (h : e.ternary second power condition s = some (id, t)) (p : List Piece) :
    g.Builds floor ⟨s, p ++ [.node condition, .token token]⟩ ⟨t, p ++ [.node id]⟩ := by
  simp only [ternary, he.symbols, Option.bind_eq_bind, Option.bind_eq_some_iff, Prod.exists] at h
  obtain ⟨thenBranch, u, hThen, elseBranch, v, hElse, hNode⟩ := h
  cases hNode
  have hFirst := he.expression (p ++ [.node condition, .token token]) hFloor hThen
  obtain ⟨sign, hSign, hExpect⟩ := exists_builds_expect g floor u
    (p ++ [.node condition, .token token] ++ [.node thenBranch]) second
  have hToElse := hFirst.trans hExpect
  have hBuilds := hToElse.trans
    (he.expression _ (Builds.errorCount_le hToElse hFloor) hElse)
  simp only [List.append_assoc, List.cons_append, List.nil_append] at hBuilds
  refine hBuilds.tail (.make v p ?_ rfl ?_ (.inl rfl))
  · have hNodes : Piece.nodes (.node condition :: .token token :: .node thenBranch ::
        (sign.map .token ++ [.node elseBranch])) = [condition, thenBranch, elseBranch] := by simp
    rw [hNodes]
    exact .children (.ternary condition thenBranch elseBranch)
  · have hRest := hSign.append ((Piece.areOf_nil [second]).node elseBranch)
    exact (((means_of_areOf hRest hMarks).node thenBranch).token hToken).node condition

/-! ### The engine -/

/-- What starts with the token consumed last takes it into a node. -/
theorem builds_parsePrefix (he : e.BuildsBy g) {parselet : PrefixParselet}
    (hBuiltIn : parselet.isBuiltIn = true)
    (hParselet : g.prefixFor? s.previous.symbol = some parselet)
    (hValid : s.previous.symbol ≠ .invalid) (hFloor : floor ≤ s.errorCount)
    (h : e.parsePrefix parselet s.previous s = some (id, t)) (p : List Piece) :
    g.Builds floor ⟨s, p ++ [.token s.previous]⟩ ⟨t, p ++ [.node id]⟩ := by
  have hMarks := marks_of_prefixFor? hParselet
  cases parselet with
  | name => exact .of_result (builds_name s hValid p) h
  | number separators => exact .of_result (builds_number he hParselet hValid p) h
  | boolean => exact .of_result (builds_leaf g floor _ rfl rfl s hValid p) h
  | string escape => exact .of_result (builds_string he s hParselet hValid p) h
  | operator power => exact builds_prefixOperator he hValid hFloor h p
  | group closing separator wrapped => exact builds_group he hValid hMarks hFloor h p
  | block separator terminator wrap => exact builds_block he hValid hMarks hFloor h p
  | custom parse => cases hBuiltIn

/-- What goes on from an operand takes it and the operator into a node. -/
theorem builds_parseInfix (he : e.BuildsBy g) {parselet : InfixParselet} {left : NodeId}
    {token : Token} (hBuiltIn : parselet.form.isBuiltIn = true)
    (hParselet : g.infixFor? token.symbol = some parselet) (hFloor : floor ≤ s.errorCount)
    (h : e.parseInfix parselet left token s = some (id, t)) (p : List Piece) :
    g.Builds floor ⟨s, p ++ [.node left, .token token]⟩ ⟨t, p ++ [.node id]⟩ := by
  have hMarks := marks_of_infixFor? hParselet
  have hToken : .invalid ∉ g.marks → token.symbol ≠ .invalid :=
    fun hUnmarked hInvalid => hMarks hUnmarked (hInvalid ▸ List.mem_cons_self)
  have hForm : .invalid ∉ g.marks → .invalid ∉ parselet.form.marks :=
    fun hUnmarked hMem => hMarks hUnmarked (List.mem_cons_of_mem _ hMem)
  obtain ⟨power, form⟩ := parselet
  cases form with
  | postfixed => exact .of_result (builds_postfixOperator left hToken s p) h
  | binary associativity => exact builds_binaryOperator he hToken hFloor h p
  | ternary second => exact builds_ternary he hToken hForm hFloor h p
  | call closing separator => exact builds_call he hToken hForm hFloor h p
  | lambda => exact builds_lambda he hToken hFloor h p
  | custom parse => cases hBuiltIn

end Engine

namespace Grammar

section

variable (hBuiltIn : g.hasBuiltInParselets = true)

include hBuiltIn

theorem builds_startExpression (he : e.BuildsBy g) (hFloor : floor ≤ s.errorCount)
    (h : g.startExpression e s.previous s = some (id, t)) (p : List Piece) :
    g.Builds floor ⟨s, p ++ [.token s.previous]⟩ ⟨t, p ++ [.node id]⟩ := by
  unfold startExpression at h
  rw [he.symbols] at h
  split at h
  · next hEnd =>
    refine .of_result (.single (.reject s p ?_)) h
    rw [hEnd]
    exact fun hInvalid => by cases hInvalid
  · split at h
    · next hInvalid =>
      exact .of_result (builds_spare g floor s p (.inl hInvalid)) h
    · next hValid =>
      split at h
      · next parselet hParselet =>
        exact Engine.builds_parsePrefix he (isBuiltIn_of_prefixFor? hBuiltIn hParselet) hParselet
          hValid hFloor h p
      · exact .of_result (.single (.reject s p hValid)) h

theorem builds_continueExpression (he : e.BuildsBy g) {threshold : BindingPower} {rounds : Nat}
    {left : NodeId} (hFloor : floor ≤ s.errorCount)
    (h : g.continueExpression e threshold rounds left s = some (id, t)) (p : List Piece) :
    g.Builds floor ⟨s, p ++ [.node left]⟩ ⟨t, p ++ [.node id]⟩ := by
  induction rounds generalizing left s with
  | zero => cases h
  | succ rounds ih =>
      rw [continueExpression_succ, he.symbols] at h
      split at h
      · cases h
        exact builds_peeked g floor s _
      · next hPower =>
        split at h
        · next hNone =>
          rw [power_of_infixFor?_eq_none hNone] at hPower
          exact absurd (Nat.zero_le threshold) hPower
        · next parselet hParselet =>
          simp only [Option.bind_eq_some_iff, Prod.exists] at h
          obtain ⟨operand, u, hOperand, hRest⟩ := h
          have hConsume := builds_consume g floor s (p ++ [.node left])
          rw [List.append_assoc] at hConsume
          have hBuilds := hConsume.trans (Engine.builds_parseInfix he
            (isBuiltIn_of_infixFor? hBuiltIn hParselet) hParselet (errorCount_le_consume hFloor)
            hOperand p)
          exact hBuilds.trans (ih (Builds.errorCount_le hBuilds hFloor) hRest)

theorem builds_parseExpression (he : e.BuildsBy g) {threshold : BindingPower}
    (hFloor : floor ≤ s.errorCount) (h : g.parseExpression e threshold s = some (id, t))
    (p : List Piece) : g.Builds floor ⟨s, p⟩ ⟨t, p ++ [.node id]⟩ := by
  rw [parseExpression_eq] at h
  simp only [Option.bind_eq_some_iff, Prod.exists] at h
  obtain ⟨left, u, hStart, hRest⟩ := h
  have hConsume := builds_consume g floor s p
  rw [← s.previous_consume] at hStart hConsume
  have hBuilds := hConsume.trans
    (builds_startExpression hBuiltIn he (errorCount_le_consume hFloor) hStart p)
  exact hBuilds.trans (builds_continueExpression hBuiltIn he
    (Builds.errorCount_le hBuilds hFloor) hRest p)

theorem builds_parseStatement (he : e.BuildsBy g) {wrap : Bool} (hFloor : floor ≤ s.errorCount)
    (h : g.parseStatement e wrap s = some (id, t)) (p : List Piece) :
    g.Builds floor ⟨s, p⟩ ⟨t, p ++ [.node id]⟩ := by
  rw [parseStatement_eq, statementFor?_eq_none hBuiltIn] at h
  simp only [Option.bind_eq_some_iff, Prod.exists] at h
  obtain ⟨expression, u, hExpression, h⟩ := h
  have hBuilds := (builds_peeked g floor s p).trans
    (builds_parseExpression hBuiltIn he (errorCount_le_peeked hFloor) hExpression p)
  split at h
  · cases h
    exact hBuilds.tail (.make u p (.children (.statement expression)) rfl
      ((means_nil g).node expression) (.inr ⟨rfl, rfl⟩))
  · cases h
    exact hBuilds

/-- Whatever the engine of a grammar parses is assembled into one node. -/
theorem buildsBy_engine (rounds depth : Nat) : (g.engine rounds depth).BuildsBy g := by
  induction depth with
  | zero =>
      refine ⟨rfl, fun _ _ h => ?_, fun _ _ h => ?_⟩
      all_goals cases h
  | succ depth ih =>
      refine ⟨rfl, fun p hFloor h => ?_, fun p hFloor h => ?_⟩
      · exact builds_parseExpression hBuiltIn ih hFloor h p
      · exact builds_parseStatement hBuiltIn ih hFloor h p

end

/-- The root of a source is all that is left on the bench, except for the start of the input where
that is no part of an expression. -/
theorem builds_parseRoot (he : e.BuildsBy g) (hFloor : floor ≤ s.errorCount)
    (hStart : s.coming.head.symbol ≠ .invalid) (h : g.parseRoot e s = some (id, t)) :
    g.Builds floor ⟨s, []⟩ ⟨t, [.node id]⟩ ∨
      g.Builds floor ⟨s, []⟩ ⟨t, [.token s.coming.head, .node id]⟩ := by
  unfold parseRoot at h
  split at h
  · exact .inl (he.expression [] hFloor h)
  · have hConsume := builds_consume g floor s []
    have hReached := errorCount_le_consume hFloor
    dsimp only at h
    rw [consume_fst] at h
    split at h
    · refine .inl (hConsume.trans (Engine.builds_block he hStart ?_ hReached h []))
      exact fun _ hMem => by simp at hMem; cases hMem
    · exact .inr (hConsume.trans (he.expression [.token s.coming.head] hReached h))

end Grammar

end

end Precedence
