import Precedence.Proofs.Lexer.Layout

/-!
What the lexer reports. Each message of the library's rules is about a text that has just been read,
so the messages about a source stand one behind the other, like its tokens; and one about a
character that starts no token has the range of the token that was made of it.
-/
namespace Precedence

/-- Messages about texts one behind the other, between two offsets. -/
structure AreLaid (messages : List Message) (start stop : Nat) : Prop where
  within : ∀ m ∈ messages, start ≤ m.range.span.start ∧
    m.range.span.start < m.range.span.stop ∧ m.range.span.stop ≤ stop
  pairwise : messages.Pairwise fun m m' => m.range.span.stop ≤ m'.range.span.start

namespace AreLaid

variable {messages later : List Message} {start middle stop : Nat}

theorem nil (start stop : Nat) : AreLaid [] start stop := ⟨List.forall_mem_nil _, .nil⟩

theorem singleton {m : Message} (hSome : m.range.span.start < m.range.span.stop) :
    AreLaid [m] m.range.span.start m.range.span.stop :=
  ⟨List.forall_mem_singleton.mpr ⟨Nat.le_refl _, hSome, Nat.le_refl _⟩, List.pairwise_singleton _ _⟩

theorem mono {start' stop' : Nat} (h : AreLaid messages start stop) (hStart : start' ≤ start)
    (hStop : stop ≤ stop') : AreLaid messages start' stop' :=
  ⟨fun m hMem => ⟨Nat.le_trans hStart (h.within m hMem).1, (h.within m hMem).2.1,
    Nat.le_trans (h.within m hMem).2.2 hStop⟩, h.pairwise⟩

theorem append (h : AreLaid messages start middle) (h' : AreLaid later middle stop)
    (hStart : start ≤ middle) (hStop : middle ≤ stop) : AreLaid (messages ++ later) start stop := by
  have hFirst := h.mono (Nat.le_refl start) hStop
  have hLater := h'.mono hStart (Nat.le_refl stop)
  refine ⟨List.forall_mem_append.mpr ⟨hFirst.within, hLater.within⟩,
    List.pairwise_append.mpr ⟨h.pairwise, h'.pairwise, fun m hMem m' hMem' => ?_⟩⟩
  exact Nat.le_trans (h.within m hMem).2.2 (h'.within m' hMem').1

/-- No two of them have the same span. -/
theorem filter_eq (h : AreLaid messages start stop) {m : Message} (hMem : m ∈ messages) :
    messages.filter (·.range.span = m.range.span) = [m] := by
  obtain ⟨before, behind, rfl⟩ := List.append_of_mem hMem
  obtain ⟨-, hBehind, hBefore⟩ := List.pairwise_append.mp h.pairwise
  have hSome := (h.within m hMem).2.1
  rw [List.filter_append, List.filter_cons_of_pos (by simp),
    List.filter_eq_nil_iff.mpr fun m' hMem' => ?_, List.filter_eq_nil_iff.mpr fun m' hMem' => ?_]
  · rfl
  · have hLess := (List.pairwise_cons.mp hBehind).1 m' hMem'
    simp only [decide_eq_true_eq]
    intro hSame
    rw [hSame] at hLess
    omega
  · have hLess := hBefore m' hMem' m List.mem_cons_self
    simp only [decide_eq_true_eq]
    intro hSame
    rw [hSame] at hLess
    omega

end AreLaid

/-- What is reported about a number of characters from a cursor on, if they make no character that
starts no token: texts one behind the other among them. -/
structure Cursor.Accounts (c : Cursor) (width : Nat) (messages : List Message) : Prop where
  laid : AreLaid messages c.offset (c.advanceBy width).offset
  other : ∀ m ∈ messages, m.code ≠ .invalidCharacter
  none : width = 0 → messages = []

namespace Cursor

variable {c : Cursor} {width : Nat}

theorem accounts_nil (c : Cursor) (width : Nat) : c.Accounts width [] :=
  ⟨.nil _ _, List.forall_mem_nil _, fun _ => rfl⟩

/-- A fault of all of them. -/
theorem accounts_fault (hMore : c.rest ≠ []) (hSome : 0 < width) {f : LexicalFault}
    (hCode : f.code ≠ .invalidCharacter) :
    c.Accounts width [f.message (c.rangeTo (c.advanceBy width))] :=
  ⟨.singleton (offset_lt_advanceBy hMore hSome), List.forall_mem_singleton.mpr hCode,
    fun hNone => absurd hNone (Nat.ne_of_gt hSome)⟩

end Cursor

/-! ### What is skipped -/

/-- Whether a rule is one of the library's. -/
def IgnoreRule.isBuiltIn : IgnoreRule → Bool
  | .custom _ => false
  | _ => true

namespace IgnoreRule

variable {c : Cursor} {reading : Reading}

theorem accounts_read? {rule : IgnoreRule} (hBuiltIn : rule.isBuiltIn = true) (hMore : c.rest ≠ [])
    (h : rule.read? c = some reading) : c.Accounts reading.width reading.messages := by
  cases rule with
  | custom read? => cases hBuiltIn
  | blockComment opening closing =>
      rw [read?] at h
      split at h
      · next hOpening =>
        cases h
        have hWide : 0 < (readBlockComment opening closing c).width :=
          Nat.lt_of_lt_of_le (List.length_pos_iff.mpr hOpening.1) (Nat.le_add_right _ _)
        by_cases hClosed :
            (Delimited.scan closing none 0 (c.rest.drop opening.length)).closed = true
        · rw [readBlockComment, if_pos hClosed]
          exact c.accounts_nil _
        · rw [readBlockComment, if_neg hClosed]
          exact Cursor.accounts_fault hMore hWide (by decide)
      · cases h
  | _ =>
      rw [read?] at h
      split at h
      · cases h
        exact c.accounts_nil _
      · cases h

theorem accounts_readFirst {rules : List IgnoreRule}
    (hBuiltIn : ∀ rule ∈ rules, rule.isBuiltIn = true) (hMore : c.rest ≠ []) :
    c.Accounts (readFirst c rules).width (readFirst c rules).messages := by
  induction rules with
  | nil => exact c.accounts_nil 0
  | cons rule rules ih =>
      obtain ⟨hRule, hRules⟩ := List.forall_mem_cons.mp hBuiltIn
      rw [readFirst]
      split
      · exact ih hRules
      · next reading hRead =>
        have hReading := accounts_read? hRule hMore hRead
        split
        · next hWidth =>
          dsimp only
          rw [hReading.none hWidth, List.nil_append]
          exact ih hRules
        · exact hReading

end IgnoreRule

/-! ### Literals and names -/

/-- The text of a token lies within its range. -/
def Token.HoldsText (τ : Token) : Prop := τ.text.IsWithin τ.range.span

theorem Token.holdsText_covering (symbol : Symbol) (range : SourceRange) :
    (Token.covering symbol range).HoldsText :=
  .refl _

/-- A number that lacks its digits has at least the mark of its base. -/
theorem NumberFormat.width_pos_of_missing {format : NumberFormat} {cs : List Char} {radix : Radix}
    (h : (format.extent cs).missing = some radix) : 0 < (format.extent cs).width := by
  unfold extent at h ⊢
  dsimp only at h ⊢
  split
  · dsimp only
    omega
  · next hNone =>
    rw [hNone] at h
    cases h

namespace LiteralRule

variable {c : Cursor} {reading : LiteralReading}

theorem accounts_read? {rule : LiteralRule} (hBuiltIn : rule.isBuiltIn = true)
    (hMore : c.rest ≠ []) (h : rule.read? c = some reading) :
    c.Accounts reading.width reading.messages ∧ reading.token.HoldsText := by
  cases rule with
  | number format =>
      rw [read?] at h
      split at h
      · cases h
        refine ⟨?_, Token.holdsText_covering _ _⟩
        simp only [readNumber]
        split
        · exact c.accounts_nil _
        · next radix hMissing =>
          exact Cursor.accounts_fault hMore (NumberFormat.width_pos_of_missing hMissing)
            fun hCode => by cases hCode
      · cases h
  | string opening closing escape =>
      rw [read?] at h
      split at h
      · next hOpening =>
        cases h
        have hWide : 0 < (readString opening closing escape c).width :=
          Nat.lt_of_lt_of_le (List.length_pos_iff.mpr hOpening.1) (Nat.le_add_right _ _)
        constructor
        · by_cases hClosed : (Delimited.scan closing escape 0
              (c.advanceBy opening.length).rest).closed = true
          · simp only [readString, if_pos hClosed]
            exact c.accounts_nil _
          · simp only [readString, if_neg hClosed]
            exact Cursor.accounts_fault hMore hWide fun hCode => by cases hCode
        · refine ⟨c.offset_le_advanceBy _, ?_⟩
          simp only [readString, Cursor.advanceBy_advanceBy]
          apply c.offset_advanceBy_le
          unfold Delimited.width
          split <;> omega
      · cases h
  | boolean ignoreCase =>
      obtain ⟨word, -, rfl⟩ := Option.map_eq_some_iff.mp h
      exact ⟨c.accounts_nil _, Token.holdsText_covering _ _⟩
  | custom read? => cases hBuiltIn

/-- The library's rules report nothing unless they read something. -/
theorem messages_readFirst {rules : List LiteralRule}
    (hBuiltIn : ∀ rule ∈ rules, rule.isBuiltIn = true) (hMore : c.rest ≠ []) :
    (readFirst c rules).1 = [] := by
  induction rules with
  | nil => rfl
  | cons rule rules ih =>
      obtain ⟨hRule, hRules⟩ := List.forall_mem_cons.mp hBuiltIn
      rw [readFirst]
      split
      · exact ih hRules
      · next reading hRead =>
        split
        · next hWidth =>
          dsimp only
          rw [(accounts_read? hRule hMore hRead).1.none hWidth, ih hRules]
          rfl
        · rfl

end LiteralRule

/-- Whether a policy is one of the library's. -/
def NamePolicy.isBuiltIn : NamePolicy → Bool
  | .custom _ _ => false
  | _ => true

theorem NamePolicy.messages_read {policy : NamePolicy} (h : policy.isBuiltIn = true) (c : Cursor) :
    (policy.read c).messages = [] := by
  cases policy with
  | custom isStart read => cases h
  | _ => rfl

/-- Whether all rules of a lexicon are the library's. -/
def Lexicon.isBuiltIn (lx : Lexicon) : Bool :=
  lx.literals.all (·.isBuiltIn) && lx.ignores.all (·.isBuiltIn) && lx.names.isBuiltIn

namespace Lexicon

variable {lx : Lexicon} {c : Cursor}

section

variable (hBuiltIn : lx.isBuiltIn = true)

include hBuiltIn

theorem isBuiltIn_of_mem_literals : ∀ rule ∈ lx.literals, rule.isBuiltIn = true := by
  rw [isBuiltIn, Bool.and_eq_true, Bool.and_eq_true] at hBuiltIn
  exact List.all_eq_true.mp hBuiltIn.1.1

theorem isBuiltIn_of_mem_ignores : ∀ rule ∈ lx.ignores, rule.isBuiltIn = true := by
  rw [isBuiltIn, Bool.and_eq_true, Bool.and_eq_true] at hBuiltIn
  exact List.all_eq_true.mp hBuiltIn.1.2

theorem isBuiltIn_names : lx.names.isBuiltIn = true := by
  rw [isBuiltIn, Bool.and_eq_true, Bool.and_eq_true] at hBuiltIn
  exact hBuiltIn.2

/-- What is reported about what is skipped. -/
theorem areLaid_skip (c : Cursor) : AreLaid (lx.skip c).2 c.offset (lx.skip c).1.offset ∧
    ∀ m ∈ (lx.skip c).2, m.code ≠ .invalidCharacter := by
  have hIgnores := isBuiltIn_of_mem_ignores hBuiltIn
  suffices h : ∀ reported, ∃ found, (lx.skipFrom reported c).2 = reported ++ found ∧
      c.offset ≤ (lx.skipFrom reported c).1.offset ∧
      AreLaid found c.offset (lx.skipFrom reported c).1.offset ∧
      ∀ m ∈ found, m.code ≠ .invalidCharacter by
    obtain ⟨found, hFound, -, hLaid⟩ := h []
    rw [List.nil_append] at hFound
    rw [skip, hFound]
    exact hLaid
  intro reported
  fun_induction skipFrom lx reported c with
  | case1 =>
      exact ⟨[], (List.append_nil _).symm, Nat.le_refl _, .nil _ _, List.forall_mem_nil _⟩
  | case2 reported c reading hMore hNone =>
      have hReading := IgnoreRule.accounts_readFirst hIgnores hMore
      have hLaid := hReading.laid
      rw [show (IgnoreRule.readFirst c lx.ignores).width = 0 from hNone] at hLaid
      exact ⟨_, rfl, Nat.le_refl _, hLaid, hReading.other⟩
  | case3 reported c reading hMore hSome ih =>
      obtain ⟨found, hFound, hLe, hLaid, hOther⟩ := ih
      have hReading := IgnoreRule.accounts_readFirst hIgnores hMore
      have hMoved := c.offset_le_advanceBy reading.width
      exact ⟨reading.messages ++ found, by rw [hFound, List.append_assoc],
        Nat.le_trans hMoved hLe, hReading.laid.append hLaid hMoved hLe,
        List.forall_mem_append.mpr ⟨hReading.other, hOther⟩⟩

end

/-- What is reported about a token that has been found at a cursor, and that it holds its text. -/
structure Reports (r : Recognition) (c : Cursor) : Prop where
  laid : AreLaid r.messages c.offset (c.advanceBy r.taken).offset
  character : ∀ m ∈ r.messages, m.code = .invalidCharacter →
    r.token.symbol = .invalid ∧ r.token.range = m.range
  text : r.token.HoldsText

theorem reports_of_accounts {r : Recognition} (h : c.Accounts r.width r.messages)
    (hText : r.token.HoldsText) : Reports r c := by
  have hTaken : r.width ≤ r.taken := by
    unfold Recognition.taken
    split <;> omega
  exact ⟨h.laid.mono (Nat.le_refl _) (c.offset_advanceBy_le hTaken),
    fun m hMem hCode => absurd hCode (h.other m hMem), hText⟩

theorem reports_recogniseInvalid (hMore : c.rest ≠ []) : Reports (recogniseInvalid c) c := by
  have hStands := standsAt_recogniseInvalid hMore
  refine ⟨AreLaid.mono (.singleton hStands.solid) (Nat.le_refl _) hStands.stop, ?_,
    Token.holdsText_covering _ _⟩
  exact List.forall_mem_singleton.mpr fun _ => ⟨rfl, rfl⟩

/-- What the library's rules find at a cursor, with messages of its own alone: a literal, the text
of a spelling or an identifier, or a character that starts no token. -/
theorem recognise_cases (hBuiltIn : lx.isBuiltIn = true) (hMore : c.rest ≠ []) :
    (∃ rule ∈ lx.literals, ∃ reading, rule.read? c = some reading ∧
      lx.recognise c = ⟨reading.token, reading.messages, reading.width⟩) ∨
    (∃ n symbol, lx.recognise c = ⟨c.tokenTo (c.advanceBy n) symbol, [], n⟩) ∨
    lx.recognise c = recogniseInvalid c := by
  have hQuiet := LiteralRule.messages_readFirst (isBuiltIn_of_mem_literals hBuiltIn) hMore
  unfold recognise
  split
  · next messages reading hRead =>
    obtain ⟨rule, hMem, hRule⟩ := LiteralRule.mem_of_readFirst hRead
    rw [hRead] at hQuiet
    dsimp only at hQuiet
    rw [hQuiet, List.nil_append]
    exact .inl ⟨rule, hMem, reading, hRule, rfl⟩
  · next messages hRead =>
    right
    rw [hRead] at hQuiet
    dsimp only at hQuiet
    rw [hQuiet]
    simp only [List.nil_append]
    split
    · next p hFound => exact .inl ⟨p.length, p.symbol, rfl⟩
    · split
      · left
        have hNames : (lx.recogniseName c).messages = [] :=
          NamePolicy.messages_read (isBuiltIn_names hBuiltIn) c
        rw [hNames]
        exact ⟨_, _, rfl⟩
      · exact .inr rfl

theorem reports_recognise (hBuiltIn : lx.isBuiltIn = true) (hMore : c.rest ≠ []) :
    Reports (lx.recognise c) c := by
  rcases recognise_cases hBuiltIn hMore with
    ⟨rule, hMem, reading, hRule, hFound⟩ | ⟨n, symbol, hFound⟩ | hFound
  all_goals rw [hFound]
  · obtain ⟨hAccounts, hText⟩ :=
      LiteralRule.accounts_read? (isBuiltIn_of_mem_literals hBuiltIn rule hMem) hMore hRule
    exact reports_of_accounts hAccounts hText
  · exact reports_of_accounts (c.accounts_nil _) (Token.holdsText_covering _ _)
  · exact reports_recogniseInvalid hMore

/-! ### All messages -/

variable {lexemes : List Lexeme}

/-- The messages about a source stand one behind the other. -/
theorem Reads.exists_areLaid (h : lx.Reads c lexemes) (hBuiltIn : lx.isBuiltIn = true) :
    ∃ stop, c.offset ≤ stop ∧ AreLaid (lexemes.flatMap (·.messages)) c.offset stop := by
  induction h with
  | @ending c hEnd =>
      refine ⟨(lx.skip c).1.offset, lx.offset_le_skip c, ?_⟩
      simpa using (areLaid_skip hBuiltIn c).1
  | @next c lexemes hMore hRest ih =>
      obtain ⟨stop, hLe, hLater⟩ := ih
      have hSkip := lx.offset_le_skip c
      have hRead := (lx.skip c).1.offset_le_advanceBy (lx.recognise (lx.skip c).1).taken
      have hToken := (areLaid_skip hBuiltIn c).1.append (reports_recognise hBuiltIn hMore).laid
        hSkip hRead
      exact ⟨stop, by omega, hToken.append hLater (by omega) hLe⟩

/-- A character that starts no token is reported with the token that was made of it. -/
theorem Reads.character (h : lx.Reads c lexemes) (hBuiltIn : lx.isBuiltIn = true) :
    ∀ lexeme ∈ lexemes, ∀ m ∈ lexeme.messages, m.code = .invalidCharacter →
      lexeme.token.symbol = .invalid ∧ lexeme.token.range = m.range := by
  induction h with
  | @ending c hEnd =>
      refine List.forall_mem_singleton.mpr fun m hMem hCode => ?_
      exact absurd hCode ((areLaid_skip hBuiltIn c).2 m hMem)
  | @next c lexemes hMore hRest ih =>
      refine List.forall_mem_cons.mpr ⟨fun m hMem hCode => ?_, ih⟩
      rcases List.mem_append.mp hMem with hSkipped | hFound
      · exact absurd hCode ((areLaid_skip hBuiltIn c).2 m hSkipped)
      · exact (reports_recognise hBuiltIn hMore).character m hFound hCode

theorem Reads.holdsText (h : lx.Reads c lexemes) (hBuiltIn : lx.isBuiltIn = true) :
    ∀ lexeme ∈ lexemes, lexeme.token.HoldsText := by
  induction h with
  | ending hEnd => exact List.forall_mem_singleton.mpr (Token.holdsText_covering _ _)
  | next hMore hRest ih =>
      exact List.forall_mem_cons.mpr ⟨(reports_recognise hBuiltIn hMore).text, ih⟩

end Lexicon

end Precedence
