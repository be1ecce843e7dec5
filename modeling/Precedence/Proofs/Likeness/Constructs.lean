import Precedence.Proofs.Likeness.Course

/-!
Every construct makes the same tree of sequences that are read alike. What opens something is
compared on sequences that stay alike for good. The other constructs may come to the end of the
first sequence while the second goes on, and then they ask for no more, or an operand is missing.
-/
namespace Precedence

open Session

/-- The parsers of an engine make the same trees of related sequences. At the end of the input they
miss an operand. -/
structure Engine.Parallels (e : Engine) (g : Grammar)
    (R : Stream' Word → Stream' Word → Prop) : Prop extends e.RunsBy g where
  mirrors {threshold : BindingPower} {s s' : Session} : R s.words s'.words →
    Mirrors (Agree R) (e.expression threshold s) (e.expression threshold s')
  mirrorsStatement {wrap : Bool} {s s' : Session} : R s.words s'.words →
    Mirrors (Agree R) (e.statement wrap s) (e.statement wrap s')
  lacks {threshold : BindingPower} {s t : Session} {id : NodeId} :
    e.expression threshold s = some (id, t) → s.coming.head.symbol = .eof → ¬t.HasOperands

/-- Results that belong together, in sessions that go on from two others. -/
structure Accord {α β : Type} (Q : α × Session → β × Session → Prop) (s s' : Session)
    (r : α × Session) (r' : β × Session) : Prop where
  agree : Q r r'
  front : s.Continues r.2
  back : s'.Continues r'.2

variable {g : Grammar} {e : Engine} {R : Stream' Word → Stream' Word → Prop} {s s' : Session}

namespace Engine.Parallels

theorem accord (he : e.Parallels g R) {threshold : BindingPower} (h : R s.words s'.words) :
    Mirrors (Accord (Agree R) s s') (e.expression threshold s) (e.expression threshold s') :=
  (he.mirrors h).mono fun _ _ hFirst hSecond hAgree => ⟨hAgree,
    Grammar.Run.continues (he.run_expression hFirst),
    Grammar.Run.continues (he.run_expression hSecond)⟩

theorem accordStatement (he : e.Parallels g R) {wrap : Bool} (h : R s.words s'.words) :
    Mirrors (Accord (Agree R) s s') (e.statement wrap s) (e.statement wrap s') :=
  (he.mirrorsStatement h).mono fun _ _ hFirst hSecond hAgree => ⟨hAgree,
    Grammar.Run.continues (he.run_statement hFirst),
    Grammar.Run.continues (he.run_statement hSecond)⟩

end Engine.Parallels

namespace Session

theorem related_peeked (h : R s.words s'.words) : R s.peeked.words s'.peeked.words := by
  rwa [words_peeked, words_peeked]

theorem related_consume (h : R s.words.tail s'.words.tail) :
    R s.consume.2.words s'.consume.2.words := by
  rwa [words_consume, words_consume]

end Session

/-- In sessions that are read alike the next tokens have the same symbol, and what follows them is
read alike. -/
theorem IsSteady.step (hR : IsSteady R) (h : R s.words s'.words) :
    s.coming.head.symbol = s'.coming.head.symbol ∧ R s.consume.2.words s'.consume.2.words := by
  obtain ⟨hHead, hTail⟩ := hR h
  exact ⟨congrArg Word.symbol hHead, related_consume hTail⟩

namespace Session

theorem words_expect (symbols : SymbolTable) (wanted : Symbol) :
    (s.expect symbols wanted).2.words =
      if s.coming.head.symbol = wanted then s.words.tail else s.words := by
  rw [expect_eq]
  split
  · exact s.words_consume
  · split
    · exact s.words_peeked
    · exact s.words_peeked

/-- A token that is wanted is consumed in both sessions or in none. -/
theorem related_expect (h : R s.words s'.words) (hHead : s.words.head = s'.words.head)
    (hTail : R s.words.tail s'.words.tail) {symbols symbols' : SymbolTable} {wanted : Symbol} :
    R (s.expect symbols wanted).2.words (s'.expect symbols' wanted).2.words := by
  have hSymbol : s.coming.head.symbol = s'.coming.head.symbol := congrArg Word.symbol hHead
  rw [words_expect, words_expect, hSymbol]
  split
  · exact hTail
  · exact h

end Session

theorem IsSteady.expect (hR : IsSteady R) (h : R s.words s'.words) {symbols symbols' : SymbolTable}
    {wanted : Symbol} : R (s.expect symbols wanted).2.words (s'.expect symbols' wanted).2.words :=
  related_expect h (hR h).1 (hR h).2

namespace Engine

open Grammar

/-! ### Sequences -/

theorem mirrors_separatedFrom (hR : IsSteady R) (he : e.Parallels g R)
    {separator terminator : Symbol} {power : BindingPower} {rounds : Nat}
    {items items' : List NodeId} (h : R s.words s'.words)
    (hItems : s.arena.SameTrees s'.arena items items') :
    Mirrors (AgreeAll R) (e.separatedFrom separator terminator power rounds items s)
      (e.separatedFrom separator terminator power rounds items' s') := by
  induction rounds generalizing items items' s s' with
  | zero => exact .none
  | succ rounds ih =>
      have hHere : s.peeked.arena.SameTrees s'.peeked.arena items items' :=
        hItems.mono s.continues_peeked.arena s'.continues_peeked.arena
      obtain ⟨hHead, hTail⟩ := hR.step h
      rw [separatedFrom_succ, separatedFrom_succ, hHead]
      refine .ite (fun _ => .some ⟨hTail, ?_⟩) fun _ => .ite (fun _ => .some ⟨?_, ?_⟩) fun _ => ?_
      · exact List.forall₂_reverse_iff.mpr
          (hItems.mono s.continues_consume.arena s'.continues_consume.arena)
      · exact related_peeked h
      · exact List.forall₂_reverse_iff.mpr hHere
      · refine (he.accord (related_peeked h)).bind (fun {r v} hRest => ?_) fun {r r'} hItem => ?_
        · split at hRest
          · exact r.2.continues_consume.trans (Run.continues (run_separatedFrom he.toRunsBy hRest))
          · cases hRest
            rw [he.symbols]
            exact r.2.continues_peeked.trans (Run.continues (run_expect g _ _))
        · obtain ⟨hNext, hLater⟩ := hR.step hItem.agree.course
          have hAll : r.2.arena.SameTrees r'.2.arena (r.1 :: items) (r'.1 :: items') :=
            .cons hItem.agree.tree (hHere.mono hItem.front.arena hItem.back.arena)
          rw [hNext]
          refine .ite (fun _ => ih hLater ?_) fun _ => .some ⟨?_, ?_⟩
          · exact hAll.mono r.2.continues_consume.arena r'.2.continues_consume.arena
          · exact hR.expect (related_peeked hItem.agree.course)
          · rw [he.symbols]
            refine List.forall₂_reverse_iff.mpr (hAll.mono ?_ ?_)
            · exact (Run.continues ((run_peeked g r.2).trans (run_expect g _ _))).arena
            · exact (Run.continues ((run_peeked g r'.2).trans (run_expect g _ _))).arena

theorem mirrors_separated (hR : IsSteady R) (he : e.Parallels g R) {separator terminator : Symbol}
    {power : BindingPower} (h : R s.words s'.words) :
    Mirrors (Accord (AgreeAll R) s s') (e.separated separator terminator power s)
      (e.separated separator terminator power s') :=
  (mirrors_separatedFrom hR he h .nil).mono fun _ _ hFirst hSecond hAgree =>
    ⟨hAgree, Run.continues (run_separatedFrom he.toRunsBy hFirst),
      Run.continues (run_separatedFrom he.toRunsBy hSecond)⟩

/-! ### Groups and calls -/

theorem agree_closeGroup (hR : IsSteady R) (he : e.Parallels g R) {closing : Symbol}
    {wrapped : Bool} {token token' : Token} {inner inner' : NodeId}
    (h : Agree R (inner, s) (inner', s')) :
    Agree R (e.closeGroup closing wrapped token inner s)
      (e.closeGroup closing wrapped token' inner' s') := by
  have hClosed : Agree R (inner, (s.expect e.symbols closing).2)
      (inner', (s'.expect e.symbols closing).2) := by
    refine ⟨hR.expect h.course, ?_⟩
    rw [he.symbols]
    exact h.tree.mono (Run.continues (run_expect g s closing)).arena
      (Run.continues (run_expect g s' closing)).arena
  cases wrapped with
  | true => exact .alloc hClosed.course rfl rfl (.cons hClosed.tree .nil)
  | false => exact hClosed.setRange

theorem mirrors_group (hR : IsSteady R) (he : e.Parallels g R) {closing : Symbol}
    {separator : Option Symbol} {wrapped : Bool} {token token' : Token}
    (h : R s.words s'.words) :
    Mirrors (Agree R) (e.group closing separator wrapped token s)
      (e.group closing separator wrapped token' s') := by
  cases separator with
  | none =>
      refine (he.mirrors h).bind (fun {r v} hNode => ?_) fun {r r'} hInner => ?_
      · cases hNode
        exact Run.continues (run_closeGroup he.toRunsBy closing wrapped token r.1 r.2)
      · exact .some (agree_closeGroup hR he hInner)
  | some separator =>
      obtain ⟨hHead, hTail⟩ := hR.step h
      rw [group, group, tupleOrGroup_eq, tupleOrGroup_eq, hHead]
      refine .ite (fun _ => .some (.alloc hTail rfl rfl .nil)) fun _ => ?_
      refine (he.mirrors (related_peeked h)).bind (fun {r v} hRest => ?_) fun {r r'} hInner => ?_
      · split at hRest
        · simp only [Option.bind_eq_some_iff, Prod.exists] at hRest
          obtain ⟨items, u, hItems, hNode⟩ := hRest
          cases hNode
          have hRun := run_separatedFrom he.toRunsBy hItems
          exact (r.2.continues_consume.trans (Run.continues hRun)).trans (u.continues_alloc _ _)
        · cases hRest
          exact r.2.continues_peeked.trans
            (Run.continues (run_closeGroup he.toRunsBy closing wrapped token r.1 _))
      · obtain ⟨hNext, hLater⟩ := hR.step hInner.course
        rw [hNext]
        refine .ite (fun _ => ?_) fun _ => .some (agree_closeGroup hR he ⟨?_, ?_⟩)
        · refine (mirrors_separated hR he hLater).bind (fun {r v} hNode => ?_) fun hItems => ?_
          · cases hNode
            exact r.2.continues_alloc _ _
          · refine .some (.alloc hItems.agree.course rfl rfl (.cons ?_ hItems.agree.trees))
            exact hInner.tree.mono (r.2.continues_consume.trans hItems.front).arena
              (r'.2.continues_consume.trans hItems.back).arena
        · exact related_peeked hInner.course
        · exact hInner.tree.mono r.2.continues_peeked.arena r'.2.continues_peeked.arena

theorem mirrors_call (hR : IsSteady R) (he : e.Parallels g R) {closing separator : Symbol}
    {callee callee' : NodeId} (h : R s.words s'.words)
    (hCallee : s.arena.SameTree s'.arena callee callee') :
    Mirrors (Agree R) (e.call closing separator callee s)
      (e.call closing separator callee' s') := by
  refine (mirrors_separated hR he h).bind (fun {r v} hNode => ?_) fun hArgs => .some ?_
  · cases hNode
    exact r.2.continues_alloc _ _
  · exact .alloc hArgs.agree.course rfl rfl
      (.cons (hCallee.mono hArgs.front.arena hArgs.back.arena) hArgs.agree.trees)

/-! ### Blocks -/

/-- Skipping stops at the same place, if the sequences part only where both of them have something
to stop at. -/
theorem mirrors_synchronize {recovery : RecoverySet}
    (hStep : ∀ ⦃x y : Stream' Word⦄, R x y → (x.head = y.head ∧ R x.tail y.tail) ∨
      (recovery.contains x.head.symbol = true ∧ recovery.contains y.head.symbol = true))
    {rounds : Nat} (h : R s.words s'.words) :
    Mirrors (fun r r' => R r.2.words r'.2.words) (s.synchronize recovery rounds)
      (s'.synchronize recovery rounds) := by
  induction rounds generalizing s s' with
  | zero => exact .none
  | succ rounds ih =>
      rw [synchronize_succ, synchronize_succ]
      rcases hStep h with ⟨hHead, hTail⟩ | ⟨hStop, hStop'⟩
      · have hSymbol : s.coming.head.symbol = s'.coming.head.symbol := congrArg Word.symbol hHead
        rw [hSymbol]
        exact .ite (fun _ => .some (related_peeked h)) fun _ =>
          .ite (fun _ => .some (related_peeked h)) fun _ => ih (related_consume hTail)
      · rw [head_words, Token.symbol_word] at hStop hStop'
        rw [if_pos hStop, if_pos hStop']
        exact .some (related_peeked h)

/-- The boundary at which tokens are no longer skipped. -/
def boundary (separator terminator : Symbol) : RecoverySet :=
  (RecoverySet.empty.insert separator).insert terminator

theorem mirrors_skipToBoundary {separator terminator : Symbol}
    (hStep : ∀ ⦃x y : Stream' Word⦄, R x y → (x.head = y.head ∧ R x.tail y.tail) ∨
      ((boundary separator terminator).contains x.head.symbol = true ∧
        (boundary separator terminator).contains y.head.symbol = true))
    (h : R s.words s'.words) (hHead : s.coming.head.symbol = s'.coming.head.symbol) :
    Mirrors (Agree R) (e.skipToBoundary separator terminator s)
      (e.skipToBoundary separator terminator s') := by
  rw [skipToBoundary_eq, skipToBoundary_eq, hHead]
  have hSkipped : Mirrors _ (s.peeked.synchronize (boundary separator terminator) e.rounds) _ :=
    mirrors_synchronize hStep (related_peeked h)
  refine hSkipped.bind (fun {r v} hNode => ?_) fun hLater => .some (.alloc hLater rfl rfl .nil)
  cases hNode
  exact r.2.continues_alloc _ _

theorem words_faultBoundary (he : e.RunsBy g) (separator terminator : Symbol) (failed : Bool)
    (s : Session) : (e.faultBoundary separator terminator failed s).words = s.words :=
  words_of_eq (Run.continues (run_faultBoundary he separator terminator failed s)).source
    (coming_faultBoundary separator terminator failed s)

/-- Behind statements the same is done, whether or not they have failed. -/
theorem mirrors_afterStatement (he : e.RunsBy g) {separator terminator : Symbol}
    {failed failed' : Bool}
    (hStep : ∀ ⦃x y : Stream' Word⦄, R x y → (x.head = y.head ∧ R x.tail y.tail) ∨
      ((boundary separator terminator).contains x.head.symbol = true ∧
        (boundary separator terminator).contains y.head.symbol = true))
    (h : R s.words s'.words) (hHead : s.words.head = s'.words.head)
    (hTail : R s.words.tail s'.words.tail)
    (hFailed : failed = true → s.diagnostics.hasErrors = true)
    (hFailed' : failed' = true → s'.diagnostics.hasErrors = true) :
    Mirrors (Accord (fun r r' => R r.2.words r'.2.words ∧
        r.2.arena.SameTrees r'.2.arena r.1.toList r'.1.toList) s s')
      (e.afterStatement separator terminator failed s)
      (e.afterStatement separator terminator failed' s') := by
  have hSymbol : s.coming.head.symbol = s'.coming.head.symbol := congrArg Word.symbol hHead
  have hFault : R (e.faultBoundary separator terminator failed s).words
      (e.faultBoundary separator terminator failed' s').words := by
    rwa [words_faultBoundary he, words_faultBoundary he]
  refine Mirrors.mono (Q := fun r r' => R r.2.words r'.2.words ∧
    r.2.arena.SameTrees r'.2.arena r.1.toList r'.1.toList) ?_ fun _ _ hFirst hSecond hPair =>
      ⟨hPair, Run.continues (run_afterStatement he hFailed hFirst),
        Run.continues (run_afterStatement he hFailed' hSecond)⟩
  rw [afterStatement_eq, afterStatement_eq, hSymbol]
  refine .ite (fun _ => .some ⟨related_consume hTail, .nil⟩) fun _ =>
    .ite (fun _ => .some ⟨related_peeked h, .nil⟩) fun _ => ?_
  split
  · exact .some ⟨hFault, .nil⟩
  · refine (mirrors_skipToBoundary hStep hFault ?_).bind (fun {r v} hNode => ?_) fun hSkipped => ?_
    · rw [coming_faultBoundary, coming_faultBoundary, hSymbol]
    · cases hNode
      exact .refl r.2
    · exact .some ⟨hSkipped.course, .cons hSkipped.tree .nil⟩

theorem exists_skipSeparators (hR : IsSteady R) {separator : Symbol} {rounds : Nat} {t : Session}
    (h : R s.words s'.words) (hSkip : skipSeparators separator rounds s = some t) :
    ∃ t', skipSeparators separator rounds s' = some t' ∧ R t.words t'.words := by
  induction rounds generalizing s s' with
  | zero => cases hSkip
  | succ rounds ih =>
      obtain ⟨hHead, hTail⟩ := hR.step h
      rw [skipSeparators_succ, hHead] at hSkip
      rw [skipSeparators_succ]
      split at hSkip
      · next hFound =>
        rw [if_pos hFound]
        exact ih hTail hSkip
      · next hOther =>
        rw [if_neg hOther]
        cases hSkip
        exact ⟨s'.peeked, rfl, related_peeked h⟩

theorem exists_skipBefore (hR : IsSteady R) {separator : Option Symbol} {t : Session}
    (h : R s.words s'.words) (hSkip : e.skipBefore separator s = some t) :
    ∃ t', e.skipBefore separator s' = some t' ∧ R t.words t'.words := by
  cases separator with
  | none =>
      cases hSkip
      exact ⟨s', rfl, h⟩
  | some separator => exact exists_skipSeparators hR h hSkip

/-- Results that agree behind what was found before. -/
def AgreeBehind (R : Stream' Word → Stream' Word → Prop) (found found' : List NodeId)
    (r r' : List NodeId × Session) : Prop :=
  ∃ later later', r.1 = found.reverse ++ later ∧ r'.1 = found'.reverse ++ later' ∧
    AgreeAll R (later, r.2) (later', r'.2)

theorem AgreeBehind.of_append {found found' : List NodeId} (more more' : List NodeId)
    {r r' : List NodeId × Session} (h : AgreeBehind R (more ++ found) (more' ++ found') r r')
    (hMore : r.2.arena.SameTrees r'.2.arena more more') : AgreeBehind R found found' r r' := by
  obtain ⟨later, later', hChildren, hChildren', hCourse, hTrees⟩ := h
  refine ⟨more.reverse ++ later, more'.reverse ++ later', ?_, ?_, hCourse, ?_⟩
  · rw [hChildren, List.reverse_append, List.append_assoc]
  · rw [hChildren', List.reverse_append, List.append_assoc]
  · exact List.rel_append (List.forall₂_reverse_iff.mpr hMore) hTrees

/-- The statements that follow are the same, whatever was found before. -/
theorem mirrors_statementsFrom (hR : IsSteady R) (he : e.Parallels g R) {separator : Option Symbol}
    {terminator : Symbol} {wrap : Bool} {rounds : Nat} {found found' : List NodeId}
    (h : R s.words s'.words) :
    Mirrors (AgreeBehind R found found')
      (e.statementsFrom separator terminator wrap rounds found s)
      (e.statementsFrom separator terminator wrap rounds found' s') := by
  induction rounds generalizing found found' s s' with
  | zero => exact .none
  | succ rounds ih =>
      rw [statementsFrom_succ, statementsFrom_succ]
      refine .after fun u hBefore => ?_
      obtain ⟨u', hBefore', hStart⟩ := exists_skipBefore hR h hBefore
      refine ⟨u', hBefore', ?_⟩
      obtain ⟨hHead, hTail⟩ := hR.step hStart
      have hNone (t t' : Session) (hLater : R t.words t'.words) :
          AgreeBehind R found found' (found.reverse, t) (found'.reverse, t') :=
        ⟨[], [], (List.append_nil _).symm, (List.append_nil _).symm, hLater, .nil⟩
      rw [hHead]
      refine .ite (fun _ => .some (hNone _ _ hTail)) fun _ =>
        .ite (fun _ => .some (hNone _ _ (related_peeked hStart))) fun _ => ?_
      have hStatement : Mirrors _ (e.statement wrap u.peeked) _ :=
        he.accordStatement (related_peeked hStart)
      cases separator with
      | none =>
          refine hStatement.bind (fun hRest => ?_) fun {r r'} hNode => ?_
          · exact Run.continues (run_statementsFrom he.toRunsBy hRest)
          · refine (ih hNode.agree.course).mono fun v v' hFirst hSecond hAgree => ?_
            refine hAgree.of_append [r.1] [r'.1] (.cons ?_ .nil)
            exact hNode.agree.tree.mono
              (Run.continues (run_statementsFrom he.toRunsBy hFirst)).arena
              (Run.continues (run_statementsFrom he.toRunsBy hSecond)).arena
      | some boundary =>
          refine hStatement.bind (fun {r v} hRest => ?_) fun {r r'} hNode => ?_
          · simp only [Option.bind_eq_some_iff, Prod.exists] at hRest
            obtain ⟨skipped, w, hAfter, hRest⟩ := hRest
            have hRun := run_afterStatement he.toRunsBy hasErrors_of_errorCount_lt hAfter
            exact Run.continues (hRun.trans (run_statementsFrom he.toRunsBy hRest))
          · obtain ⟨hNext, hBehind⟩ := hR hNode.agree.course
            refine (mirrors_afterStatement he.toRunsBy (fun _ _ hPair => .inl (hR hPair))
              hNode.agree.course hNext hBehind hasErrors_of_errorCount_lt
              hasErrors_of_errorCount_lt).bind (fun hRest => ?_) fun {skipped skipped'} hAfter => ?_
            · exact Run.continues (run_statementsFrom he.toRunsBy hRest)
            · obtain ⟨⟨hLater, hSkipped⟩, hFront, hBack⟩ := hAfter
              refine (ih hLater).mono fun v v' hFirst hSecond hAgree => ?_
              have hGrows := (Run.continues (run_statementsFrom he.toRunsBy hFirst)).arena
              have hGrows' := (Run.continues (run_statementsFrom he.toRunsBy hSecond)).arena
              rw [List.append_cons _ r.1, List.append_cons _ r'.1] at hAgree
              have hStatement := hNode.agree.tree.mono hFront.arena hBack.arena
              exact hAgree.of_append _ _ (List.rel_append (hSkipped.mono hGrows hGrows')
                (.cons (hStatement.mono hGrows hGrows') .nil))

theorem mirrors_block (hR : IsSteady R) (he : e.Parallels g R) {opening opening' : SourceRange}
    {separator : Option Symbol} {terminator : Symbol} {wrap : Bool} (h : R s.words s'.words) :
    Mirrors (Agree R) (e.block opening separator terminator wrap s)
      (e.block opening' separator terminator wrap s') := by
  have hStatements : Mirrors (AgreeBehind R [] [])
      (e.statementsFrom separator terminator wrap e.rounds [] s) _ :=
    mirrors_statementsFrom hR he h
  refine hStatements.bind (fun {r v} hNode => ?_) fun hAgree => .some ?_
  · cases hNode
    exact r.2.continues_alloc _ _
  · obtain ⟨later, later', hChildren, hChildren', hLater⟩ := hAgree
    rw [hChildren, hChildren']
    exact .alloc hLater.course rfl rfl hLater.trees

/-! ### Literals -/

theorem agree_attachFaults (he : e.RunsBy g) {node node' target target' : NodeId}
    {faults faults' : List (SyntaxFault × SourceRange)} (h : Agree R (node, s) (node', s')) :
    Agree R (node, e.attachFaults target faults s) (node', e.attachFaults target' faults' s') := by
  have hWords (id : NodeId) (faults : List (SyntaxFault × SourceRange)) (s : Session) :
      (e.attachFaults id faults s).words = s.words := by
    unfold attachFaults
    induction faults generalizing s with
    | nil => rfl
    | cons fault faults ih => exact ih _
  refine ⟨?_, h.tree.mono ?_ ?_⟩
  · rw [hWords, hWords]
    exact h.course
  · exact (Run.continues (run_attachFaults he _ _ _)).arena
  · exact (Run.continues (run_attachFaults he _ _ _)).arena

variable {token token' : Token}

theorem agree_number (separators : Separators) (h : R s.words s'.words)
    (hToken : token.word s.source = token'.word s'.source) :
    Agree R (e.number separators token s) (e.number separators token' s') := by
  have hPayload : s.payload token = s'.payload token' := congrArg Word.text hToken
  unfold number
  rw [hPayload]
  split
  · exact .alloc h rfl rfl .nil
  · exact .invalidNode h hToken
  · exact .rejectedNode h hToken

theorem agree_boolean (h : R s.words s'.words)
    (hToken : token.word s.source = token'.word s'.source) :
    Agree R (boolean token s) (boolean token' s') := by
  have hPayload : s.payload token = s'.payload token' := congrArg Word.text hToken
  unfold boolean
  rw [hPayload]
  exact .alloc h rfl rfl .nil

theorem agree_string (he : e.RunsBy g) (escape : Option Char) (h : R s.words s'.words)
    (hToken : token.word s.source = token'.word s'.source) :
    Agree R (e.string escape token s) (e.string escape token' s') := by
  have hPayload : s.payload token = s'.payload token' := congrArg Word.text hToken
  unfold string
  rw [hPayload]
  cases escape with
  | none => exact .alloc h rfl rfl .nil
  | some escape =>
      have hNode (value : Literal) : Agree R (s.alloc (.literal value) token.range)
          (s'.alloc (.literal value) token'.range) := .alloc h rfl rfl .nil
      exact agree_attachFaults he (hNode _)

/-! ### Operators and functions -/

theorem mirrors_prefixOperator (he : e.Parallels g R) {power : BindingPower}
    (h : R s.words s'.words) (hSymbol : token.symbol = token'.symbol) :
    Mirrors (Agree R) (e.prefixOperator power token s) (e.prefixOperator power token' s') := by
  refine (he.mirrors h).bind (fun {r v} hNode => ?_) fun hOperand => ?_
  · cases hNode
    exact r.2.continues_alloc _ _
  · rw [hSymbol]
    exact .some (.alloc hOperand.course rfl rfl (.cons hOperand.tree .nil))

theorem mirrors_binaryOperator (he : e.Parallels g R) {associativity : Associativity}
    {power : BindingPower} {left left' : NodeId} (h : R s.words s'.words)
    (hLeft : s.arena.SameTree s'.arena left left') (hSymbol : token.symbol = token'.symbol) :
    Mirrors (Agree R) (e.binaryOperator associativity power left token s)
      (e.binaryOperator associativity power left' token' s') := by
  refine (he.accord h).bind (fun {r v} hNode => ?_) fun hRight => ?_
  · cases hNode
    exact r.2.continues_alloc _ _
  · rw [hSymbol]
    refine .some (.alloc hRight.agree.course rfl rfl (.cons ?_ (.cons hRight.agree.tree .nil)))
    exact hLeft.mono hRight.front.arena hRight.back.arena

/-- Where the first sequence has ended behind a condition, the last branch is missing. -/
theorem mirrors_ternary (hR : g.IsCourse R) (he : e.Parallels g R) {second : Symbol}
    {power : BindingPower} {condition condition' : NodeId} (h : R s.words s'.words)
    (hCondition : s.arena.SameTree s'.arena condition condition') :
    Mirrors (Agree R) (e.ternary second power condition s)
      (e.ternary second power condition' s') := by
  have hExpected (t : Session) : t.Continues (t.expect e.symbols second).2 := by
    rw [he.symbols]
    exact Run.continues (run_expect g t second)
  refine (he.accord h).bind (fun {r v} hRest => ?_) fun {r r'} hThen => ?_
  · simp only [Option.bind_eq_bind, Option.bind_eq_some_iff, Prod.exists] at hRest
    obtain ⟨elseBranch, u, hElse, hNode⟩ := hRest
    cases hNode
    exact ((hExpected r.2).trans (Run.continues (he.run_expression hElse))).trans
      (u.continues_alloc _ _)
  · have hElse : Mirrors (Accord (Agree R) (r.2.expect e.symbols second).2
        (r'.2.expect e.symbols second).2)
        (e.expression power.below (r.2.expect e.symbols second).2)
        (e.expression power.below (r'.2.expect e.symbols second).2) := by
      rcases hR hThen.agree.course with ⟨hHead, hTail, -⟩ | ⟨hEnd, -, -⟩
      · exact he.accord (related_expect hThen.agree.course hHead hTail)
      · refine .of_lacks fun v hMissing => he.lacks hMissing ?_
        have hOver : (r.2.expect e.symbols second).2.words.head.symbol = .eof := by
          rw [words_expect]
          split
          · exact hEnd 1
          · exact hEnd 0
        exact hOver
    refine hElse.bind (fun {q v} hNode => ?_) fun {q q'} hLast => .some ?_
    · cases hNode
      exact q.2.continues_alloc _ _
    · have hGrows := ((hExpected r.2).trans hLast.front).arena
      have hGrows' := ((hExpected r'.2).trans hLast.back).arena
      refine .alloc hLast.agree.course rfl rfl (.cons ?_ (.cons ?_ (.cons hLast.agree.tree .nil)))
      · exact (hCondition.mono hThen.front.arena hThen.back.arena).mono hGrows hGrows'
      · exact hThen.agree.tree.mono hGrows hGrows'

theorem mirrors_lambda (he : e.Parallels g R) {power : BindingPower} {left left' : NodeId}
    (h : R s.words s'.words) (hLeft : s.arena.SameTree s'.arena left left') :
    Mirrors (Agree R) (e.lambda power left s) (e.lambda power left' s') := by
  obtain ⟨hSame, hParams⟩ := hLeft.parameters
  refine (he.accord h).bind (fun {r v} hRest => ?_) fun {r r'} hBody => ?_
  · dsimp only at hRest
    have hNode := r.2.continues_alloc (.lambda ((s.arena.parameters? left).getD [left]) r.1)
      (r.2.rangeFrom (r.2.nodeRange left))
    split at hRest
    · cases hRest
      exact hNode
    · cases hRest
      exact (hNode.trans (continues_report _ _)).trans (continues_attach _ _ _)
  · have hNode : Agree R
        (r.2.alloc (.lambda ((s.arena.parameters? left).getD [left]) r.1)
          (r.2.rangeFrom (r.2.nodeRange left)))
        (r'.2.alloc (.lambda ((s'.arena.parameters? left').getD [left']) r'.1)
          (r'.2.rangeFrom (r'.2.nodeRange left'))) := by
      refine .alloc hBody.agree.course rfl rfl (List.rel_append ?_ (.cons hBody.agree.tree .nil))
      exact hParams.mono hBody.front.arena hBody.back.arena
    dsimp only
    rw [hSame]
    exact .ite (fun _ => .some hNode) fun _ => .some (Agree.attach (Agree.fault hNode))

end Engine

end Precedence
