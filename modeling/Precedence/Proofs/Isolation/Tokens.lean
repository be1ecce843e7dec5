import Precedence.Proofs.Isolation.Rules
import Precedence.Proofs.Lexer.Partition

/-!
Tokens on their own. A token that is cut out of its source is recognised as what it was, provided
that no white space stands in the texts of the rules, and that it is no string that clips a truth
value.
-/
namespace Precedence

/-- Two recognitions are of tokens of one kind and length. -/
structure Recognition.Resembles (r s : Recognition) : Prop where
  symbol : r.token.symbol = s.token.symbol
  width : r.width = s.width

theorem Recognition.Resembles.taken_eq {r s : Recognition} (h : r.Resembles s) :
    r.taken = s.taken := by
  rw [taken, taken, h.symbol, h.width]

namespace Lexicon

/-- A token of a source is no string that clips a truth value. -/
def LeavesTruthValues (lx : Lexicon) (source : List Char) (τ : Token) : Prop :=
  τ.symbol = .string → ∀ c : Cursor, c.IsPlaced source → c.offset = τ.range.span.start →
    ¬LiteralRule.ClipsTruthValue c lx.literals

/-- No token is, if no string opens with a letter that a truth value has in front. -/
theorem leavesTruthValues_of_openings {lx : Lexicon} (hBuiltIn : lx.isBuiltIn = true)
    (h : lx.literals.any LiteralRule.opensTruthValue = false) (source : List Char) (τ : Token) :
    lx.LeavesTruthValues source τ := by
  rintro - c - -
  rintro ⟨before, rule, behind, reading, ignoreCase, hSplit, -, hRead, -, hClips⟩
  have hMem : rule ∈ lx.literals := by simp [hSplit]
  have hRule := isBuiltIn_of_mem_literals hBuiltIn rule hMem
  exact List.any_eq_false.mp h rule hMem (LiteralRule.opensTruthValue_of_clips hRule hRead hClips)

/-- What is recognised at a cursor where no literal stands. -/
def recogniseOther (lx : Lexicon) (c : Cursor) : Recognition :=
  match lx.punctuatorAt? c with
  | some p => ⟨c.tokenTo (c.advanceBy p.length) p.symbol, [], p.length⟩
  | none => if lx.names.isStart c.current then lx.recogniseName c else recogniseInvalid c

theorem recognise_of_literal {lx : Lexicon} {c : Cursor} {reading : LiteralReading}
    (h : (LiteralRule.readFirst c lx.literals).2 = some reading) :
    (lx.recognise c).token = reading.token ∧ (lx.recognise c).width = reading.width := by
  unfold recognise
  split
  · next hRead =>
    rw [hRead, Option.some.injEq] at h
    subst h
    exact ⟨rfl, rfl⟩
  · next hRead =>
    rw [hRead] at h
    cases h

theorem recognise_of_other {lx : Lexicon} {c : Cursor}
    (h : (LiteralRule.readFirst c lx.literals).2 = none) :
    (lx.recognise c).token = (lx.recogniseOther c).token ∧
      (lx.recognise c).width = (lx.recogniseOther c).width := by
  unfold recognise
  split
  · next hRead =>
    rw [hRead] at h
    cases h
  · exact ⟨rfl, rfl⟩

/-- A lexicon of the library's rules, with names of the standard form, in which white space is
ignored and stands in no text. -/
structure IsSpacious (lx : Lexicon) : Prop where
  ordinary : lx.IsOrdinary
  builtIn : lx.isBuiltIn = true
  names : lx.names = .standard
  blanks : .blanks ∈ lx.ignores
  unspaced : lx.isUnspaced = true

namespace IsSpacious

variable {lx : Lexicon} (hSpacious : lx.IsSpacious) {c d : Cursor} {n : Nat}

include hSpacious

theorem isUnspaced_of_mem_punctuators :
    ∀ p ∈ lx.punctuators.entries, Text.isUnspaced p.spelling = true := by
  have hAll := hSpacious.unspaced
  simp only [isUnspaced, Bool.and_eq_true, List.all_eq_true] at hAll
  exact hAll.1.1

theorem isUnspaced_of_mem_literals : ∀ rule ∈ lx.literals, rule.isUnspaced = true := by
  have hAll := hSpacious.unspaced
  simp only [isUnspaced, Bool.and_eq_true, List.all_eq_true] at hAll
  exact hAll.1.2

theorem isUnspaced_of_mem_ignores : ∀ rule ∈ lx.ignores, rule.isUnspaced = true := by
  have hAll := hSpacious.unspaced
  simp only [isUnspaced, Bool.and_eq_true, List.all_eq_true] at hAll
  exact hAll.2

/-- A spelling that is found where a text was cut out stood there before. -/
theorem startsText_of_isolated (h : Text.Isolates c.rest n d.rest) {p : Punctuator}
    (hMem : p ∈ lx.punctuators.entries) (hFound : p.startsText d.rest = true) :
    p.startsText c.rest = true :=
  (h.startsAs_of_isUnspaced (hSpacious.isUnspaced_of_mem_punctuators p hMem) hFound).2

theorem punctuatorAt?_isolated (h : Text.Isolates c.rest n d.rest) {found : Option Punctuator}
    (hFound : lx.punctuatorAt? c = found) (hWidth : ∀ p ∈ found, p.length = n) :
    lx.punctuatorAt? d = found := by
  have hBack (p : Punctuator) (hMem : p ∈ lx.punctuators.entries)
      (hThere : (!p.spelling.head?.any lx.names.isStart && p.startsText d.rest) = true) :
      (!p.spelling.head?.any lx.names.isStart && p.startsText c.rest) = true := by
    rw [Bool.and_eq_true] at hThere ⊢
    exact ⟨hThere.1, hSpacious.startsText_of_isolated h hMem hThere.2⟩
  subst hFound
  unfold punctuatorAt? at hWidth ⊢
  cases hHere : lx.punctuators.entries.find? fun p =>
      !p.spelling.head?.any lx.names.isStart && p.startsText c.rest with
  | none =>
      rw [List.find?_eq_none] at hHere ⊢
      exact fun p hMem hThere => hHere p hMem (hBack p hMem hThere)
  | some p =>
      rw [hHere] at hWidth
      apply find?_eq_some_of_imp hHere hBack
      have hStands := List.find?_some hHere
      rw [Bool.and_eq_true] at hStands ⊢
      have hLength : p.spelling.length = n := p.length_eq.symm.trans (hWidth p rfl)
      exact ⟨hStands.1, (h.startsAs_eq (Nat.le_of_eq hLength)).trans hStands.2⟩

/-- A spelling that no name could start with clips no truth value. -/
theorem not_clipsTruthValue_of_punctuatorAt? {p : Punctuator} (h : lx.punctuatorAt? c = some p)
    (ignoreCase : Bool) : ¬c.ClipsTruthValue ignoreCase n := by
  intro hClips
  obtain ⟨x, rest, hRest, hLetter⟩ := hClips.head_mem
  have hStands := List.find?_some h
  rw [Bool.and_eq_true, Bool.not_eq_true', hSpacious.names, hRest] at hStands
  obtain ⟨hStart, hFound⟩ := hStands
  obtain ⟨y, spelling, hSpelling⟩ := List.exists_cons_of_ne_nil p.spelling_ne_nil
  have hFront : Text.startsAs p.ignoreCase (y :: spelling) (x :: rest) = true := by
    rw [← hSpelling]
    exact hFound
  rw [Text.startsAs_iff] at hFront
  have hFirst := Text.mem_of_fold_eq (List.head_eq_of_cons_eq hFront).symm hLetter
  rw [hSpelling, List.head?_cons, Option.any_some] at hStart
  simp only [List.mem_cons, List.not_mem_nil, or_false] at hFirst
  rcases hFirst with rfl | rfl | rfl | rfl
  all_goals
    revert hStart
    decide

/-- A name goes on as far as its word does. -/
theorem width_recogniseName (c : Cursor) :
    (lx.recogniseName c).width = max (c.countWhile LiteralRule.isWordPart) 1 := by
  simp only [recogniseName, NamePolicy.read, hSpacious.names]
  rfl

theorem taken_recogniseName (c : Cursor) :
    (lx.recogniseName c).taken = (lx.recogniseName c).width := by
  apply if_neg
  simp only [recogniseName, Cursor.tokenTo, Token.covering]
  cases hWord : lx.punctuators.findSpelling? (c.rest.take (lx.names.read c).width) with
  | none =>
      rw [Option.getD_none]
      decide
  | some symbol =>
      obtain ⟨p, hMem, rfl⟩ := PunctuatorSet.mem_of_findSpelling? hWord
      exact (hSpacious.ordinary.symbol_ne hMem).2.2

/-- A name that was cut out is the same name, or the same keyword. -/
theorem recogniseName_isolated (h : Text.Isolates c.rest (lx.recogniseName c).width d.rest) :
    (lx.recogniseName d).Resembles (lx.recogniseName c) := by
  have hCount : d.countWhile LiteralRule.isWordPart = c.countWhile LiteralRule.isWordPart := by
    rw [hSpacious.width_recogniseName] at h
    rw [Cursor.countWhile, Cursor.countWhile, h.takeWhile_eq (by decide) (Nat.le_max_left _ _)]
  have hWidth : (lx.recogniseName d).width = (lx.recogniseName c).width := by
    rw [hSpacious.width_recogniseName, hSpacious.width_recogniseName, hCount]
  refine ⟨?_, hWidth⟩
  have hWord := h.take_eq (Nat.le_refl _)
  rw [← hWidth] at hWord
  show (lx.punctuators.findSpelling? (d.rest.take (lx.recogniseName d).width)).getD .name =
    (lx.punctuators.findSpelling? (c.rest.take (lx.recogniseName c).width)).getD .name
  rw [hWord, hWidth]

/-- What is no literal is recognised by what was cut out alone, and clips no truth value. -/
theorem recogniseOther_isolated (h : Text.Isolates c.rest (lx.recogniseOther c).taken d.rest) :
    (lx.recogniseOther d).Resembles (lx.recogniseOther c) ∧
      ∀ ignoreCase, ¬c.ClipsTruthValue ignoreCase (lx.recogniseOther c).taken := by
  unfold recogniseOther at h ⊢
  cases hFound : lx.punctuatorAt? c with
  | some p =>
      have hSymbol := (hSpacious.ordinary.symbol_ne (List.mem_of_find?_eq_some hFound)).2.2
      have hTaken : Recognition.taken ⟨c.tokenTo (c.advanceBy p.length) p.symbol, [], p.length⟩ =
          p.length := if_neg hSymbol
      simp only [hFound, hTaken] at h
      have hThere := hSpacious.punctuatorAt?_isolated h hFound
        (fun q hMem => by cases hMem; rfl)
      rw [hThere]
      exact ⟨⟨rfl, rfl⟩, hSpacious.not_clipsTruthValue_of_punctuatorAt? hFound⟩
  | none =>
      have hThere {n : Nat} (h : Text.Isolates c.rest n d.rest) : lx.punctuatorAt? d = none :=
        hSpacious.punctuatorAt?_isolated h hFound fun p hMem => by cases hMem
      simp only [hFound] at h ⊢
      by_cases hStart : lx.names.isStart c.current = true
      · rw [if_pos hStart, hSpacious.taken_recogniseName] at h
        have hPos : 0 < (lx.recogniseName c).width := by
          rw [hSpacious.width_recogniseName]
          exact Nat.le_max_right _ _
        rw [hThere h]
        simp only [Cursor.current_isolated h hPos, if_pos hStart]
        refine ⟨hSpacious.recogniseName_isolated h, fun ignoreCase hClips => ?_⟩
        rw [hSpacious.taken_recogniseName, hSpacious.width_recogniseName] at hClips
        have hLong := hClips.one_lt
        rw [Nat.max_eq_left (by omega)] at hClips
        obtain ⟨-, -, -, -, hPart⟩ := hClips
        rw [c.peek_countWhile (p := LiteralRule.isWordPart) (by decide)] at hPart
        cases hPart
      · rw [if_neg hStart] at h
        have hOne : Text.Isolates c.rest 1 d.rest := h
        rw [hThere h]
        simp only [Cursor.current_isolated hOne Nat.one_pos, if_neg hStart]
        exact ⟨⟨rfl, rfl⟩, fun ignoreCase hClips => Nat.lt_irrefl 1 hClips.one_lt⟩

/-- A token that was cut out of its source is recognised as what it was, unless it is a string that
clips a truth value. -/
theorem recognise_isolated (h : Text.Isolates c.rest (lx.recognise c).taken d.rest)
    (hLeaves : (lx.recognise c).token.symbol = .string →
      ¬LiteralRule.ClipsTruthValue c lx.literals) :
    (lx.recognise d).Resembles (lx.recognise c) := by
  have hBuiltIn := isBuiltIn_of_mem_literals hSpacious.builtIn
  have hUnspaced := hSpacious.isUnspaced_of_mem_literals
  have hPos := lx.taken_recognise_pos c
  cases hLiteral : (LiteralRule.readFirst c lx.literals).2 with
  | some reading =>
      obtain ⟨hToken, hWidth⟩ := recognise_of_literal hLiteral
      have hTaken : (lx.recognise c).taken = reading.width := by
        obtain ⟨rule, hMem, hRule⟩ := LiteralRule.mem_of_readFirst (Prod.ext rfl hLiteral)
        have hSymbol := LiteralRule.symbol_of_read? (hBuiltIn rule hMem) hRule
        rw [Recognition.taken, hToken, hWidth, if_neg]
        rcases hSymbol with hSymbol | hSymbol | hSymbol
        all_goals
          rw [hSymbol]
          decide
      have hWhole : ¬LiteralRule.ClipsTruthValue c lx.literals := fun hClips =>
        hLeaves (by rw [hToken, hClips.symbol_of_readFirst hBuiltIn hLiteral]) hClips
      rw [hTaken] at h
      obtain ⟨there, hThere, hSame, hSymbol⟩ :=
        LiteralRule.exists_readFirst_isolated hBuiltIn hUnspaced hWhole hLiteral h
      obtain ⟨hTokenThere, hWidthThere⟩ := recognise_of_literal hThere
      exact ⟨by rw [hTokenThere, hToken, hSymbol], by rw [hWidthThere, hWidth, hSame]⟩
  | none =>
      obtain ⟨hToken, hWidth⟩ := recognise_of_other hLiteral
      have hTaken : (lx.recognise c).taken = (lx.recogniseOther c).taken := by
        rw [Recognition.taken, Recognition.taken, hToken, hWidth]
      rw [hTaken] at h hPos
      obtain ⟨hResembles, hWhole⟩ := hSpacious.recogniseOther_isolated h
      obtain ⟨hTokenThere, hWidthThere⟩ := recognise_of_other
        (LiteralRule.readFirst_isolated hBuiltIn hUnspaced h hPos hWhole hLiteral)
      exact ⟨by rw [hTokenThere, hToken, hResembles.symbol],
        by rw [hWidthThere, hWidth, hResembles.width]⟩

end IsSpacious

end Lexicon

end Precedence
