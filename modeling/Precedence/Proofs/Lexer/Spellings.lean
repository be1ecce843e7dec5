import Precedence.Proofs.Grammar.Registered
import Precedence.Proofs.Isolation.Spacing
import Precedence.Proofs.Lexer.Sentinels

/-!
Where a registered spelling is found. At a place where nothing is ignored and no literal stands, the
spellings that no identifier could start like are tried first, and the longest of them that fits is
taken; of equally long ones, the one that was registered first. Only then an identifier is read, and
its word is a spelling if it is spelled like one from end to end. So a spelling is not found in its
own text if another one is in front of it in this order, or if it starts like an identifier without
being one.
-/
namespace Precedence

namespace Lexicon

/-- Nothing is ignored at a cursor, and no literal stands there. -/
structure IsQuietAt (lx : Lexicon) (c : Cursor) : Prop where
  ignores : ∀ rule ∈ lx.ignores, rule.read? c = none
  literals : ∀ rule ∈ lx.literals, rule.read? c = none

/-- Whether a spelling starts like an identifier. Such a spelling is found as a whole word only. -/
def isWordLike (lx : Lexicon) (spelling : List Char) : Bool :=
  spelling.head?.any lx.names.isStart

/-- A spelling stands at a cursor, and is none that is found as a whole word only. -/
def MatchesAt (lx : Lexicon) (c : Cursor) (r : Registration) : Prop :=
  lx.isWordLike r.spelling = false ∧ r.Fits c.rest
deriving Decidable

variable {lx : Lexicon} {c : Cursor} {requests : List Registration} {r : Registration}

theorem IsQuietAt.skip_eq (h : lx.IsQuietAt c) : (lx.skip c).1 = c := by
  apply skipFrom_of_still
  rw [IgnoreRule.width_readFirst_eq_zero_iff]
  intro rule hMem
  rw [IgnoreRule.width, h.ignores rule hMem]
  rfl

theorem IsQuietAt.readFirst_eq (h : lx.IsQuietAt c) :
    (LiteralRule.readFirst c lx.literals).2 = none := by
  cases hRead : LiteralRule.readFirst c lx.literals with
  | mk messages found =>
      cases found with
      | none => rfl
      | some reading =>
          obtain ⟨rule, hMem, hRule⟩ := LiteralRule.mem_of_readFirst hRead
          rw [h.literals rule hMem] at hRule
          cases hRule

/-- What the lexicon searches its entries for at a cursor. -/
theorem accepts_iff (p : Punctuator) :
    (!p.spelling.head?.any lx.names.isStart && p.startsText c.rest) = true ↔
      lx.MatchesAt c p.registration := by
  rw [Bool.and_eq_true, Bool.not_eq_true', Punctuator.startsText_iff]
  rfl

theorem leads_of_punctuatorAt? (h : lx.punctuators.Records requests) {p : Punctuator}
    (hFound : lx.punctuatorAt? c = some p) : p.registration.Leads requests (lx.MatchesAt c) :=
  h.leads_of_find? accepts_iff hFound

theorem punctuatorAt?_eq_none_iff (h : lx.punctuators.Records requests) :
    lx.punctuatorAt? c = none ↔
      ∀ r : Registration, r.IsGranted requests → ¬lx.MatchesAt c r :=
  h.find?_eq_none_iff accepts_iff

/-- A spelling only stands where something is left. -/
theorem MatchesAt.rest_ne_nil (h : lx.MatchesAt c r) (hSpelling : r.spelling ≠ []) :
    c.rest ≠ [] := by
  intro hEnd
  have hLength := Registration.Spells.length_eq h.2
  rw [hEnd, List.take_nil, List.length_nil] at hLength
  exact hSpelling (List.length_eq_zero_iff.mp hLength.symm)

end Lexicon

namespace Lexer

variable {l : Lexer}

/-- At a quiet place the next token is the spelling that the search finds, and ends with it. -/
theorem next_of_punctuatorAt? (hStarted : l.started = true)
    (hQuiet : l.lexicon.IsQuietAt l.cursor) (hMore : l.cursor.rest ≠ []) {p : Punctuator}
    (hFound : l.lexicon.punctuatorAt? l.cursor = some p) :
    l.next.1 = l.cursor.tokenTo l.next.2.cursor p.symbol ∧
      l.next.2.cursor = l.cursor.advanceBy p.spelling.length := by
  obtain ⟨hToken, hWidth⟩ := Lexicon.recognise_of_other hQuiet.readFirst_eq
  have hNext : l.next.1 = (l.lexicon.recognise l.cursor).token ∧
      l.next.2.cursor = l.cursor.advanceBy (l.lexicon.recognise l.cursor).width := by
    simp [next, hStarted, Lexicon.next, hQuiet.skip_eq, hMore]
  rw [hNext.1, hNext.2, hToken, hWidth, Lexicon.recogniseOther, hFound, ← p.length_eq]
  exact ⟨rfl, rfl⟩

end Lexer

namespace Grammar

variable {g : Grammar} {rules : Rules} {options : Options}

/-- Where nothing is ignored and no literal stands, and where some registered spelling stands that
does not start like an identifier, the next token is such a spelling: the longest, and of those that
are equally long the one that was registered first. The token has the symbol of the spelling, and
covers exactly the text that is spelled like it. -/
theorem next_of_registered (hRules : rules.grammar options = .ok g) {l : Lexer}
    {source : List Char} (hOver : l.IsOver g.lexicon source) (hStarted : l.started = true)
    (hQuiet : g.lexicon.IsQuietAt l.cursor)
    (hSome : ∃ r : Registration, r.IsGranted (g.registrations rules) ∧
      g.lexicon.MatchesAt l.cursor r) :
    ∃ (r : Registration) (front rest : List Char),
      r.Leads (g.registrations rules) (g.lexicon.MatchesAt l.cursor) ∧
      g.symbols.find? (String.ofList r.spelling) = some r.symbol ∧
      l.cursor.rest = front ++ rest ∧ r.Spells front ∧
      l.next.1 = l.cursor.tokenTo l.next.2.cursor r.symbol ∧ l.next.1.payload source = front ∧
      l.next.2.cursor.rest = rest ∧
      l.next.2.cursor.offset = l.cursor.offset + Text.byteLength front := by
  obtain ⟨hLexicon, hIn⟩ := hOver
  obtain ⟨hRecords, hNames⟩ := records_of_rules hRules
  cases hFound : g.lexicon.punctuatorAt? l.cursor with
  | none =>
      obtain ⟨r, hGranted, hMatches⟩ := hSome
      exact absurd hMatches ((Lexicon.punctuatorAt?_eq_none_iff hRecords).mp hFound r hGranted)
  | some p =>
      have hLeads := Lexicon.leads_of_punctuatorAt? hRecords hFound
      have hMore := hLeads.holds.rest_ne_nil p.spelling_ne_nil
      rw [← hLexicon] at hQuiet hFound
      obtain ⟨hToken, hCursor⟩ := Lexer.next_of_punctuatorAt? hStarted hQuiet hMore hFound
      refine ⟨p.registration, l.cursor.rest.take p.spelling.length,
        l.cursor.rest.drop p.spelling.length, hLeads, (hNames _ hLeads.granted.mem).2,
        (List.take_append_drop _ _).symm, hLeads.holds.2, hToken, ?_, ?_, ?_⟩
      · rw [hToken, hCursor]
        exact hIn.payload_tokenTo _ _
      · rw [hCursor, Cursor.rest_advanceBy]
      · rw [hCursor, Cursor.offset_advanceBy]

end Grammar

namespace Sample

/-- Arrows, one of them with a letter in any case. -/
def arrows : Rules where
  lexical := [.ignore .blanks, .spelling "→", .spelling "→→", .keyword "→X", .spelling "->"]
  declarations := Declaration.names

/-- Behind a name and a blank the longest arrow is found up to case, and takes its four bytes. -/
theorem next_of_registered_arrows :
    ∃ (g : Grammar) (l : Lexer) (r : Registration), arrows.grammar .standard = .ok g ∧
      l.IsOver g.lexicon "a →x→".toList ∧ l.cursor.offset = 2 ∧
      r.Leads (g.registrations arrows) (g.lexicon.MatchesAt l.cursor) ∧
      r.Spells "→x".toList ∧ l.next.1.symbol = r.symbol ∧
      l.next.1.payload "a →x→".toList = "→x".toList ∧ l.next.2.cursor.offset = 6 := by
  let g := (arrows.grammar .standard).toOption.getD default
  have hRules : arrows.grammar .standard = .ok g := Except.eq_ok_getD (by decide +kernel) default
  let l := (Lexer.ofSource g.lexicon "a →x→".toList).next.2.advanceBy 2
  have hStart : (Lexer.ofSource g.lexicon "a →x→".toList).IsOver g.lexicon "a →x→".toList :=
    ⟨rfl, Cursor.isIn_ofSource _⟩
  have hOver : l.IsOver g.lexicon "a →x→".toList := hStart.next.1.advanceBy 2
  have hSome : ∃ r ∈ g.registrations arrows, r.IsGranted (g.registrations arrows) ∧
      g.lexicon.MatchesAt l.cursor r := by decide +kernel
  obtain ⟨r, -, hSome⟩ := hSome
  obtain ⟨r, front, rest, hLeads, -, -, hSpells, hToken, hPayload, -, -⟩ :=
    Grammar.next_of_registered hRules hOver rfl ⟨by decide +kernel, by decide +kernel⟩ ⟨r, hSome⟩
  have hFront : l.next.1.payload "a →x→".toList = "→x".toList := by decide +kernel
  rw [← hPayload, hFront] at hSpells
  exact ⟨g, l, r, hRules, hOver, by decide +kernel, hLeads, hSpells, congrArg Token.symbol hToken,
    hFront, by decide +kernel⟩

end Sample

end Precedence
