import Precedence.Proofs.Lexer.Reports
import Precedence.Proofs.Source.Position

/-!
The positions that the lexer records. A cursor carries the position along while it moves, with a
line feed behind a carriage return in view; so the ends of tokens have the positions of their
offsets if no token starts or ends inside such a pair. The end of an invalid token is reckoned
without reading its character, which comes to the same unless that breaks the line.
-/
namespace Precedence

/-! ### Cursors -/

namespace Cursor

variable {source : List Char} {c : Cursor}

/-- A cursor has been reached by reading a source: its offset and position are those of what was
read, with the rest in view. -/
def IsPlaced (source : List Char) (c : Cursor) : Prop :=
  ∃ read, source = read ++ c.rest ∧ c.offset = Text.byteLength read ∧
    c.position = Position.origin.reading read c.rest

theorem isPlaced_ofSource (source : List Char) : (Cursor.ofSource source).IsPlaced source :=
  ⟨[], rfl, rfl, rfl⟩

theorem IsPlaced.isIn (h : c.IsPlaced source) : c.IsIn source := by
  obtain ⟨read, hSource, hOffset, -⟩ := h
  exact ⟨read, hSource, hOffset⟩

theorem IsPlaced.advance (h : c.IsPlaced source) : c.advance.IsPlaced source := by
  obtain ⟨read, hSource, hOffset, hPosition⟩ := h
  unfold Cursor.advance
  split
  · exact ⟨read, hSource, hOffset, hPosition⟩
  · next x rest hRest =>
    rw [hRest] at hSource hPosition
    refine ⟨read ++ [x], by simp [hSource], by simp [hOffset], ?_⟩
    dsimp only
    rw [hPosition, Position.reading_append]
    rfl

theorem IsPlaced.advanceBy (h : c.IsPlaced source) (n : Nat) : (c.advanceBy n).IsPlaced source := by
  induction n generalizing c with
  | zero => exact h
  | succ n ih =>
      rw [Cursor.advanceBy]
      split
      · exact h
      · exact ih h.advance

/-- A cursor that is not inside a line break has the position of its offset. -/
theorem IsPlaced.isOf (h : c.IsPlaced source)
    (hWhole : c.rest.head? = some '\n' → ¬ Text.SplitsPair source c.offset) :
    c.position.IsOf source c.offset := by
  obtain ⟨read, rfl, hOffset, hPosition⟩ := h
  rw [hPosition, hOffset, Position.reading_eq_advance]
  · exact Position.isOf_append read c.rest
  · intro hReturn hFeed
    apply hWhole hFeed
    rw [hOffset]
    exact Text.splitsPair_of_append hReturn hFeed

/-- The range from one such cursor to another agrees with the source. -/
theorem IsPlaced.agreesWith (h : c.IsPlaced source) {n : Nat}
    (hStart : c.rest.head? = some '\n' → ¬ Text.SplitsPair source c.offset)
    (hStop : (c.advanceBy n).rest.head? = some '\n' →
      ¬ Text.SplitsPair source (c.advanceBy n).offset) :
    (c.rangeTo (c.advanceBy n)).AgreesWith source :=
  ⟨h.isOf hStart, (h.advanceBy n).isOf hStop⟩

end Cursor

/-- A character leads one column further exactly if the line goes on with it. -/
theorem Position.after_eq_iff (p : Position) (c : Char) (rest : List Char) :
    p.after c rest = ⟨p.line, p.column + 1⟩ ↔ IgnoreRule.isWithinLine c = true := by
  rw [IgnoreRule.isWithinLine, Bool.and_eq_true, bne_iff_ne, bne_iff_ne, ← not_or]
  unfold after
  split
  · next hPair =>
    obtain ⟨line, column⟩ := p
    simp [hPair.1]
  · split
    · next hBreak => simp [hBreak]
    · next hWithin => simp [hWithin]

/-! ### What is skipped -/

/-- Whether a rule starts with a text that goes over no line break, if it starts with a text. -/
def IgnoreRule.opensWithinLine : IgnoreRule → Bool
  | .blockComment opening _ => opening.all isWithinLine
  | _ => true

/-- A content that is never closed is all that is left. -/
theorem Delimited.length_of_not_closed {closing : List Char} {escape : Option Char} {read : Nat}
    {cs : List Char} (h : (scan closing escape read cs).closed = false) :
    (scan closing escape read cs).length = read + cs.length := by
  fun_induction scan closing escape read cs with
  | case1 => rfl
  | case2 => rfl
  | case3 read c hEscape d cs ih =>
      rw [ih h, List.length_cons, List.length_cons]
      omega
  | case4 => cases h
  | case5 read c cs hEscape hClosing ih =>
      rw [ih h, List.length_cons]
      omega

/-- A text that a cursor starts with starts with the same character. -/
theorem Cursor.head?_of_startsWith {c : Cursor} {text : List Char} (hSome : text ≠ [])
    (h : c.startsWith text = true) : text.head? = c.rest.head? := by
  obtain ⟨rest, hRest⟩ := List.isPrefixOf_iff_prefix.mp h
  obtain ⟨x, later, rfl⟩ := List.exists_cons_of_ne_nil hSome
  rw [← hRest]
  rfl

namespace IgnoreRule

variable {source : List Char} {c : Cursor} {reading : Reading}

/-- A comment that is never closed is reported up to the end of the source. -/
theorem agreesWith_read? {rule : IgnoreRule} (hBuiltIn : rule.isBuiltIn = true)
    (hOpens : rule.opensWithinLine = true) (hPlaced : c.IsPlaced source)
    (h : rule.read? c = some reading) : ∀ m ∈ reading.messages, m.range.AgreesWith source := by
  cases rule with
  | custom read? => cases hBuiltIn
  | blockComment opening closing =>
      rw [read?] at h
      split at h
      · next hOpening =>
        cases h
        unfold readBlockComment
        dsimp only
        split
        · exact List.forall_mem_nil _
        · next hOpen =>
          rw [Bool.not_eq_true] at hOpen
          rw [List.forall_mem_singleton]
          refine hPlaced.agreesWith (fun hFeed => ?_) fun hFeed => ?_
          · have hHead := Cursor.head?_of_startsWith hOpening.1 hOpening.2
            rw [hFeed] at hHead
            have hWithin := List.all_eq_true.mp hOpens '\n' (List.mem_of_head? hHead)
            cases hWithin
          · have hAll := Delimited.length_of_not_closed hOpen
            rw [Cursor.rest_advanceBy, Delimited.width, if_neg (by rw [hOpen]; decide), hAll,
              Nat.zero_add, ← List.drop_drop, List.drop_length] at hFeed
            cases hFeed
      · cases h
  | _ =>
      rw [read?] at h
      split at h
      · cases h
        exact List.forall_mem_nil _
      · cases h

theorem agreesWith_readFirst {rules : List IgnoreRule}
    (hBuiltIn : ∀ rule ∈ rules, rule.isBuiltIn = true)
    (hOpens : ∀ rule ∈ rules, rule.opensWithinLine = true) (hPlaced : c.IsPlaced source) :
    ∀ m ∈ (readFirst c rules).messages, m.range.AgreesWith source := by
  induction rules with
  | nil => exact List.forall_mem_nil _
  | cons rule rules ih =>
      obtain ⟨hRule, hRules⟩ := List.forall_mem_cons.mp hBuiltIn
      obtain ⟨hOpen, hOthers⟩ := List.forall_mem_cons.mp hOpens
      rw [readFirst]
      split
      · exact ih hRules hOthers
      · next reading hRead =>
        have hReading := agreesWith_read? hRule hOpen hPlaced hRead
        split
        · exact List.forall_mem_append.mpr ⟨hReading, ih hRules hOthers⟩
        · exact hReading

end IgnoreRule

theorem Lexicon.agreesWith_skip {lx : Lexicon} {source : List Char} {c : Cursor}
    (hBuiltIn : lx.isBuiltIn = true) (hOpens : ∀ rule ∈ lx.ignores, rule.opensWithinLine = true)
    (hPlaced : c.IsPlaced source) :
    (lx.skip c).1.IsPlaced source ∧ ∀ m ∈ (lx.skip c).2, m.range.AgreesWith source := by
  have hIgnores := isBuiltIn_of_mem_ignores hBuiltIn
  suffices h : ∀ reported : List Message, (∀ m ∈ reported, m.range.AgreesWith source) →
      (lx.skipFrom reported c).1.IsPlaced source ∧
        ∀ m ∈ (lx.skipFrom reported c).2, m.range.AgreesWith source from
    h [] (List.forall_mem_nil _)
  intro reported hReported
  fun_induction skipFrom lx reported c with
  | case1 => exact ⟨hPlaced, hReported⟩
  | case2 reported c reading hMore hNone =>
      exact ⟨hPlaced, List.forall_mem_append.mpr
        ⟨hReported, IgnoreRule.agreesWith_readFirst hIgnores hOpens hPlaced⟩⟩
  | case3 reported c reading hMore hSome ih =>
      exact ih (hPlaced.advanceBy _) (List.forall_mem_append.mpr
        ⟨hReported, IgnoreRule.agreesWith_readFirst hIgnores hOpens hPlaced⟩)

/-! ### Tokens -/

/-- Whether a rule starts with a text that goes over no line break, if it starts with a text. -/
def LiteralRule.opensWithinLine : LiteralRule → Bool
  | .string opening _ _ => opening.all IgnoreRule.isWithinLine
  | _ => true

/-- A token covers a number of characters from a cursor on, all that is said about it has its range,
and its text is a part of it that starts on the line where the token does. -/
structure Cursor.Covers (c : Cursor) (τ : Token) (messages : List Message) : Prop where
  range : ∃ n, τ.range = c.rangeTo (c.advanceBy n)
  messages : ∀ m ∈ messages, m.range = τ.range
  text : ∃ k n, τ.text = ⟨(c.advanceBy k).offset, (c.advanceBy (k + n)).offset⟩ ∧
    (c.rest.take k).all IgnoreRule.isWithinLine = true

namespace Cursor

theorem covers_tokenTo (c : Cursor) (n : Nat) (symbol : Symbol) {messages : List Message}
    (hMessages : ∀ m ∈ messages, m.range = c.rangeTo (c.advanceBy n)) :
    c.Covers (c.tokenTo (c.advanceBy n) symbol) messages := by
  refine ⟨⟨n, rfl⟩, hMessages, 0, n, ?_, rfl⟩
  rw [Nat.zero_add]
  rfl

end Cursor

theorem LiteralRule.covers_read? {rule : LiteralRule} {c : Cursor} {reading : LiteralReading}
    (hBuiltIn : rule.isBuiltIn = true) (hOpens : rule.opensWithinLine = true)
    (h : rule.read? c = some reading) : c.Covers reading.token reading.messages := by
  cases rule with
  | number format =>
      rw [read?] at h
      split at h
      · cases h
        apply c.covers_tokenTo
        unfold readNumber
        dsimp only
        split
        · exact List.forall_mem_nil _
        · exact List.forall_mem_singleton.mpr rfl
      · cases h
  | string opening closing escape =>
      rw [read?] at h
      split at h
      · next hOpening =>
        cases h
        refine ⟨⟨_, rfl⟩, ?_, opening.length,
          (Delimited.scan closing escape 0 (c.advanceBy opening.length).rest).length, ?_, ?_⟩
        · unfold readString
          dsimp only
          split
          · exact List.forall_mem_nil _
          · exact List.forall_mem_singleton.mpr rfl
        · simp only [readString, Cursor.advanceBy_advanceBy]
        · obtain ⟨rest, hRest⟩ := List.isPrefixOf_iff_prefix.mp hOpening.2
          rw [← hRest, List.take_left]
          exact hOpens
      · cases h
  | boolean ignoreCase =>
      obtain ⟨word, -, rfl⟩ := Option.map_eq_some_iff.mp h
      exact c.covers_tokenTo _ _ (List.forall_mem_nil _)
  | custom read? => cases hBuiltIn

namespace Lexicon

variable {lx : Lexicon} {source : List Char} {c : Cursor}

/-- The character of an invalid token ends one column further, unless it breaks the line. -/
theorem covers_recogniseInvalid (hMore : c.rest ≠ [])
    (hWithin : IgnoreRule.isWithinLine c.current = true) :
    c.Covers (recogniseInvalid c).token (recogniseInvalid c).messages := by
  have hRange : (recogniseInvalid c).token.range = c.rangeTo (c.advanceBy 1) := by
    have hAfter := (c.position.after_eq_iff c.current c.rest.tail).mpr hWithin
    rw [c.advanceBy_one, Cursor.advance_of_ne_nil hMore, hAfter]
    rfl
  refine ⟨⟨1, hRange⟩, List.forall_mem_singleton.mpr rfl, 0, 1, ?_, rfl⟩
  exact congrArg (·.span) hRange

/-- Every token of the library's rules covers what it was made of. -/
theorem covers_recognise (hBuiltIn : lx.isBuiltIn = true)
    (hOpens : ∀ rule ∈ lx.literals, rule.opensWithinLine = true) (hMore : c.rest ≠ [])
    (hWithin : (lx.recognise c).token = (recogniseInvalid c).token →
      IgnoreRule.isWithinLine c.current = true) :
    c.Covers (lx.recognise c).token (lx.recognise c).messages := by
  rcases recognise_cases hBuiltIn hMore with
    ⟨rule, hMem, reading, hRule, hFound⟩ | ⟨n, symbol, hFound⟩ | hFound
  all_goals rw [hFound] at hWithin ⊢
  · have hLiteral := isBuiltIn_of_mem_literals hBuiltIn rule hMem
    exact LiteralRule.covers_read? hLiteral (hOpens rule hMem) hRule
  · exact c.covers_tokenTo n symbol (List.forall_mem_nil _)
  · exact covers_recogniseInvalid hMore (hWithin rfl)

end Lexicon

/-! ### All tokens -/

/-- The positions of a token are those of its offsets in a source, it does not start within a line
break, and its text is a part of it that starts on the line where the token does. -/
structure Token.IsPlaced (source : List Char) (τ : Token) : Prop where
  range : τ.range.AgreesWith source
  whole : ¬ Text.SplitsPair source τ.range.span.start
  text : ∃ before opening content after, source = before ++ (opening ++ (content ++ after)) ∧
    τ.range.span.start = Text.byteLength before ∧
    τ.text = ⟨Text.byteLength (before ++ opening), Text.byteLength (before ++ opening ++ content)⟩ ∧
    opening.all IgnoreRule.isWithinLine = true

/-- The range neither starts nor ends within a line break. -/
def SourceRange.IsWhole (r : SourceRange) (source : List Char) : Prop :=
  ¬ Text.SplitsPair source r.span.start ∧ ¬ Text.SplitsPair source r.span.stop
deriving Decidable

section

variable {source : List Char} {c : Cursor}

/-- The token of no width at a cursor is placed where the cursor is. -/
theorem Cursor.IsPlaced.isPlaced_emptyToken (h : c.IsPlaced source)
    (hWhole : ¬ Text.SplitsPair source c.offset) (symbol : Symbol) :
    (c.emptyToken symbol).IsPlaced source := by
  have hHere := h.isOf fun _ => hWhole
  obtain ⟨read, hSource, hOffset, -⟩ := h
  refine ⟨⟨hHere, hHere⟩, hWhole, read, [], [], c.rest, hSource, hOffset, ?_, rfl⟩
  rw [List.append_nil, List.append_nil, ← hOffset]
  rfl

/-- So is a token that covers something behind the cursor, with all that is said about it. -/
theorem Cursor.Covers.isPlaced {τ : Token} {messages : List Message} (h : c.Covers τ messages)
    (hPlaced : c.IsPlaced source) (hWhole : τ.range.IsWhole source) :
    τ.IsPlaced source ∧ ∀ m ∈ messages, m.range.AgreesWith source := by
  obtain ⟨n, hRange⟩ := h.range
  have hAgrees : τ.range.AgreesWith source := by
    rw [SourceRange.IsWhole, hRange] at hWhole
    rw [hRange]
    exact hPlaced.agreesWith (fun _ => hWhole.1) fun _ => hWhole.2
  refine ⟨⟨hAgrees, hWhole.1, ?_⟩, fun m hMem => h.messages m hMem ▸ hAgrees⟩
  obtain ⟨k, n, hText, hWithin⟩ := h.text
  obtain ⟨read, hSource, hOffset, -⟩ := hPlaced
  refine ⟨read, c.rest.take k, (c.rest.drop k).take n, (c.rest.drop k).drop n, ?_, ?_, ?_, hWithin⟩
  · rw [List.take_append_drop, List.take_append_drop, hSource]
  · rw [hRange, ← hOffset]
    rfl
  · rw [hText, List.append_assoc, ← List.take_add, Text.byteLength_append, Text.byteLength_append,
      ← hOffset, Cursor.offset_advanceBy, Cursor.offset_advanceBy]

end

namespace Lexicon

variable {lx : Lexicon} {source : List Char} {c : Cursor} {lexemes : List Lexeme}

/-- The payload of a character that starts no token is the character. -/
theorem payload_recogniseInvalid (hIn : c.IsIn source) (hMore : c.rest ≠ []) :
    (recogniseInvalid c).token.payload source = [c.current] := by
  obtain ⟨x, rest, hRest⟩ := List.exists_cons_of_ne_nil hMore
  have hPayload := hIn.payload_tokenTo 1 .invalid
  have hCurrent : c.current = x := by simp [Cursor.current, Cursor.peek, hRest]
  simp only [Token.payload, Cursor.tokenTo, Cursor.rangeTo, Token.covering,
    Cursor.offset_advanceBy, hRest, List.take_succ_cons, List.take_zero, Text.byteLength_cons,
    Text.byteLength_nil, Nat.add_zero] at hPayload
  simpa only [Token.payload, recogniseInvalid, Token.covering, hCurrent] using hPayload

/-- Whether no rule starts with a text that goes over a line break. -/
def opensWithinLine (lx : Lexicon) : Bool :=
  lx.literals.all LiteralRule.opensWithinLine && lx.ignores.all IgnoreRule.opensWithinLine

/-- Every token of a source and everything that is said on the way to it has the positions of its
offsets, if no character that starts no token breaks a line. -/
theorem Reads.isPlaced (h : lx.Reads c lexemes) (hBuiltIn : lx.isBuiltIn = true)
    (hOpens : lx.opensWithinLine = true) (hPlaced : c.IsPlaced source)
    (hInvalid : ∀ lexeme ∈ lexemes, lexeme.token.symbol = .invalid →
      (lexeme.token.payload source).all IgnoreRule.isWithinLine = true)
    (hWhole : ∀ lexeme ∈ lexemes, lexeme.token.range.IsWhole source) :
    ∀ lexeme ∈ lexemes, lexeme.token.IsPlaced source ∧
      ∀ m ∈ lexeme.messages, m.range.AgreesWith source := by
  obtain ⟨hLiterals, hIgnores⟩ := (Bool.and_eq_true _ _).mp hOpens
  induction h with
  | @ending c hEnd =>
      obtain ⟨hSkipped, hReported⟩ :=
        agreesWith_skip hBuiltIn (List.all_eq_true.mp hIgnores) hPlaced
      refine List.forall_mem_singleton.mpr ⟨?_, hReported⟩
      exact hSkipped.isPlaced_emptyToken (hWhole _ (List.mem_singleton_self _)).1 .eof
  | @next c lexemes hMore hRest ih =>
      obtain ⟨hSkipped, hReported⟩ :=
        agreesWith_skip hBuiltIn (List.all_eq_true.mp hIgnores) hPlaced
      obtain ⟨hFirst, hLater⟩ := List.forall_mem_cons.mp hInvalid
      obtain ⟨hFirstWhole, hLaterWhole⟩ := List.forall_mem_cons.mp hWhole
      have hWithin : (lx.recognise (lx.skip c).1).token = (recogniseInvalid (lx.skip c).1).token →
          IgnoreRule.isWithinLine (lx.skip c).1.current = true := by
        intro hSame
        dsimp only at hFirst
        rw [hSame, payload_recogniseInvalid hSkipped.isIn hMore] at hFirst
        exact List.all_eq_true.mp (hFirst rfl) _ (List.mem_singleton_self _)
      obtain ⟨hToken, hFound⟩ := (covers_recognise hBuiltIn (List.all_eq_true.mp hLiterals) hMore
        hWithin).isPlaced hSkipped hFirstWhole
      exact List.forall_mem_cons.mpr ⟨⟨hToken, List.forall_mem_append.mpr ⟨hReported, hFound⟩⟩,
        ih (hSkipped.advanceBy _) hLater hLaterWhole⟩

end Lexicon

end Precedence
