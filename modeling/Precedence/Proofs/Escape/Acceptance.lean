import Precedence.Proofs.Escape.Units

/-!
The contents without a bad escape. They are sequences of units, and of two more forms of a code
point in braces: it may have a plus sign in front of its digits, and at the end of the content its
closing brace may be missing. Everything else is a bad escape.
-/
namespace Precedence.Escape

variable {escape : Char} {cs digits more : List Char}

/-- A code point in braces with a plus sign in front of its digits. -/
def IsSigned (escape : Char) (piece : List Char) : Prop :=
  ∃ digits, IsScalar digits ∧
    piece = escape :: 'u' :: '\x7b' :: '+' :: (digits ++ ['\x7d'])

/-- A code point without its closing brace, with a plus sign in front of its digits or not. -/
def IsUnclosed (escape : Char) (piece : List Char) : Prop :=
  ∃ digits, IsScalar digits ∧
    (piece = escape :: 'u' :: '\x7b' :: digits ∨ piece = escape :: 'u' :: '\x7b' :: '+' :: digits)

/-- A unit, or a code point with a plus sign. -/
def IsPiece (escape : Char) (piece : List Char) : Prop :=
  (∃ unit : EscapeUnit, unit.IsOf escape ∧ piece = unit.text escape) ∨ IsSigned escape piece

/-- Pieces one behind the other, of which the last one may lack its closing brace. -/
def IsWellFormed (escape : Char) (content : List Char) : Prop :=
  ∃ (pieces : List (List Char)) (last : List Char), content = pieces.flatten ++ last ∧
    (∀ piece ∈ pieces, IsPiece escape piece) ∧ (last = [] ∨ IsUnclosed escape last)

theorem isWellFormed_nil (escape : Char) : IsWellFormed escape [] :=
  ⟨[], [], rfl, List.forall_mem_nil _, .inl rfl⟩

theorem IsUnclosed.isWellFormed (h : IsUnclosed escape cs) : IsWellFormed escape cs :=
  ⟨[], cs, rfl, List.forall_mem_nil _, .inr h⟩

theorem IsPiece.isWellFormed_append (h : IsPiece escape cs) (hMore : IsWellFormed escape more) :
    IsWellFormed escape (cs ++ more) := by
  obtain ⟨pieces, last, rfl, hPieces, hLast⟩ := hMore
  refine ⟨cs :: pieces, last, ?_, List.forall_mem_cons.mpr ⟨h, hPieces⟩, hLast⟩
  rw [List.flatten_cons, List.append_assoc]

/-! ### What stands for a character is well formed -/

theorem mem_letters_of_simple? {c value : Char} (h : simple? c = some value) :
    c ∈ letters.map Prod.fst := by
  unfold simple? at h
  split at h
  · decide
  · decide
  · decide
  · decide
  · decide
  · decide
  · decide
  · cases h

/-- What is read as a code point is a scalar value, behind a plus sign or not. -/
theorem codePoint?_eq_some_iff {value : Char} : codePoint? cs = some value ↔
    IsScalar (Radix.withoutPlus cs) ∧
      value = Char.ofNat (Numeral.magnitude 16 (Radix.withoutPlus cs)) := by
  simp only [codePoint?, Option.bind_eq_some_iff, Radix.read?_eq_some_iff,
    Option.ite_none_right_eq_some, Option.some.injEq]
  constructor
  · rintro ⟨_, ⟨hDigits, rfl⟩, hValid, rfl⟩
    exact ⟨⟨hDigits, hValid⟩, rfl⟩
  · rintro ⟨hScalar, rfl⟩
    exact ⟨_, ⟨hScalar.toAreDigits, rfl⟩, hScalar.valid, rfl⟩

/-- What is in braces is read up to the end of the content if there is no closing one. -/
theorem readCodePoint_unclosed (hOpen : ∀ c ∈ digits, c ≠ '\x7d') :
    readCodePoint ('\x7b' :: digits) = ⟨digits.length + 1, codePoint? digits⟩ := by
  have hTake : digits.takeWhile (· != '\x7d') = digits :=
    List.takeWhile_eq_self_iff.mpr (by simpa using hOpen)
  simp only [readCodePoint, hTake, Nat.lt_irrefl, if_false, Reading.mk.injEq, and_true]
  omega

theorem isPiece_of_closed (h : (codePoint? digits).isSome = true) :
    IsPiece escape (escape :: 'u' :: '\x7b' :: (digits ++ ['\x7d'])) := by
  obtain ⟨value, hValue⟩ := Option.isSome_iff_exists.mp h
  obtain ⟨hScalar, -⟩ := codePoint?_eq_some_iff.mp hValue
  rcases Radix.withoutPlus_eq_or digits with hPlain | hPlus
  · rw [← hPlain] at hScalar
    exact .inl ⟨.braced digits, hScalar, rfl⟩
  · rw [hPlus]
    exact .inr ⟨Radix.withoutPlus digits, hScalar, rfl⟩

theorem isUnclosed_of_open (h : (codePoint? digits).isSome = true) :
    IsUnclosed escape (escape :: 'u' :: '\x7b' :: digits) := by
  obtain ⟨value, hValue⟩ := Option.isSome_iff_exists.mp h
  obtain ⟨hScalar, -⟩ := codePoint?_eq_some_iff.mp hValue
  refine ⟨Radix.withoutPlus digits, hScalar, ?_⟩
  rcases Radix.withoutPlus_eq_or digits with hPlain | hPlus
  · exact .inl (by rw [← hPlain])
  · exact .inr (by rw [← hPlus])

/-- A code point that is not in braces and stands for a character has four digits. -/
theorem isPiece_of_unbraced (hBrace : ∀ rest, cs ≠ '\x7b' :: rest)
    (h : (readCodePoint cs).value.isSome = true) :
    IsPiece escape (escape :: 'u' :: cs.take (readCodePoint cs).width) := by
  have hRead : readCodePoint cs = ⟨((cs.take 4).takeWhile Radix.hexadecimal.isDigit).length,
      if ((cs.take 4).takeWhile Radix.hexadecimal.isDigit).length = 4 then
        codePoint? ((cs.take 4).takeWhile Radix.hexadecimal.isDigit) else none⟩ := by
    unfold readCodePoint
    split
    · next rest => exact absurd rfl (hBrace rest)
    · rfl
  have hDigits := List.all_eq_true.mp
    (List.all_takeWhile (l := cs.take 4) (p := Radix.hexadecimal.isDigit))
  have hPrefix : (cs.take 4).takeWhile Radix.hexadecimal.isDigit <+: cs :=
    (List.takeWhile_prefix _).trans (List.take_prefix _ _)
  generalize (cs.take 4).takeWhile Radix.hexadecimal.isDigit = digits at hRead hDigits hPrefix
  rw [hRead] at h ⊢
  rw [← List.prefix_iff_eq_take.mp hPrefix]
  split at h
  · next hLength =>
    obtain ⟨value, hValue⟩ := Option.isSome_iff_exists.mp h
    obtain ⟨hScalar, -⟩ := codePoint?_eq_some_iff.mp hValue
    rw [Radix.withoutPlus_of_digits hDigits] at hScalar
    exact .inl ⟨.fourDigits digits, ⟨hLength, hScalar⟩, rfl⟩
  · cases h

/-- A code point that stands for a character is a piece, or it is not closed and nothing stands
behind it. -/
theorem isPiece_or_isUnclosed_of_readCodePoint (h : (readCodePoint cs).value.isSome = true) :
    IsPiece escape (escape :: 'u' :: cs.take (readCodePoint cs).width) ∨
      IsUnclosed escape (escape :: 'u' :: cs.take (readCodePoint cs).width) ∧
        cs.drop (readCodePoint cs).width = [] := by
  by_cases hBrace : ∃ rest, cs = '\x7b' :: rest
  · obtain ⟨rest, rfl⟩ := hBrace
    by_cases hClosed : '\x7d' ∈ rest
    · obtain ⟨digits, more, rfl, hOpen⟩ := List.eq_append_cons_of_mem hClosed
      rw [readCodePoint_braced (fun c hMem hSame => hOpen (hSame ▸ hMem))] at h ⊢
      left
      have hSplit : '\x7b' :: (digits ++ '\x7d' :: more) =
          '\x7b' :: (digits ++ ['\x7d']) ++ more := by simp
      rw [hSplit, List.take_left' (by simp)]
      exact isPiece_of_closed h
    · rw [readCodePoint_unclosed (fun c hMem hSame => hClosed (hSame ▸ hMem))] at h ⊢
      right
      rw [List.take_succ_cons, List.take_length, List.drop_succ_cons, List.drop_length]
      exact ⟨isUnclosed_of_open h, rfl⟩
  · exact .inl (isPiece_of_unbraced (fun rest hSame => hBrace ⟨rest, hSame⟩) h)

/-- So is every sequence that stands for a character. -/
theorem isPiece_or_isUnclosed_of_read (h : (read escape cs).value.isSome = true) :
    IsPiece escape (escape :: cs.take (read escape cs).width) ∨
      IsUnclosed escape (escape :: cs.take (read escape cs).width) ∧
        cs.drop (read escape cs).width = [] := by
  cases cs with
  | nil => cases h
  | cons c rest =>
      rw [read] at h ⊢
      split at h
      · next hSame =>
        rw [if_pos hSame, hSame]
        exact .inl (.inl ⟨.doubled, trivial, rfl⟩)
      · next hOther =>
        rw [if_neg hOther]
        split at h
        · next value hSimple =>
          exact .inl (.inl ⟨.simple c, mem_letters_of_simple? hSimple, rfl⟩)
        · split at h
          · next hPoint =>
            subst hPoint
            simp only [if_true, Nat.add_comm 1, List.take_succ_cons, List.drop_succ_cons]
            exact isPiece_or_isUnclosed_of_readCodePoint h
          · cases h

theorem isWellFormed_of_errors_eq_nil {offset : Nat}
    (h : (resolveFrom escape offset cs).errors = []) : IsWellFormed escape cs := by
  fun_induction resolveFrom escape offset cs with
  | case1 => exact isWellFormed_nil escape
  | case2 offset rest reading value hValue sequence later ih =>
      have hSplit : escape :: rest = sequence ++ rest.drop reading.width := by
        rw [List.cons_append, List.take_append_drop]
      rcases isPiece_or_isUnclosed_of_read (by rw [hValue]; rfl) with hPiece | ⟨hLast, hNothing⟩
      · rw [hSplit]
        exact hPiece.isWellFormed_append (ih h)
      · rw [hSplit, hNothing, List.append_nil]
        exact hLast.isWellFormed
  | case3 => cases h
  | case4 offset c rest hPlain later ih =>
      have hUnit : IsPiece escape [c] := .inl ⟨.plain c, hPlain, rfl⟩
      exact hUnit.isWellFormed_append (ih h)

/-! ### What is well formed stands for characters -/

/-- A content without a bad escape, whatever stands in front of it. -/
def IsClean (escape : Char) (content : List Char) : Prop :=
  ∀ offset, (resolveFrom escape offset content).errors = []

theorem isClean_nil (escape : Char) : IsClean escape [] := fun offset => by rw [resolveFrom]

theorem IsClean.plain {c : Char} (hPlain : c ≠ escape) (h : IsClean escape more) :
    IsClean escape (c :: more) := fun offset => by
  rw [resolveFrom_plain hPlain]
  exact h _

theorem IsClean.plains (hPlain : ∀ c ∈ cs, c ≠ escape) (h : IsClean escape more) :
    IsClean escape (cs ++ more) := by
  induction cs with
  | nil => exact h
  | cons c cs ih =>
      obtain ⟨hFirst, hRest⟩ := List.forall_mem_cons.mp hPlain
      exact (ih hRest).plain hFirst

theorem IsClean.sequence (taken : List Char) {value : Char}
    (hRead : read escape (taken ++ more) = ⟨taken.length, some value⟩) (h : IsClean escape more) :
    IsClean escape (escape :: (taken ++ more)) := fun offset => by
  rw [resolveFrom_of_read taken hRead]
  exact h _

theorem IsClean.doubled (h : IsClean escape more) : IsClean escape (escape :: escape :: more) :=
  IsClean.sequence [escape] (if_pos rfl) h

/-- Where `u` is the escape character itself, a code point is this character, doubled, with plain
text behind it. -/
theorem IsClean.codePoint {value : Char} (hPlain : ∀ c ∈ cs, c ≠ 'u')
    (hRead : readCodePoint (cs ++ more) = ⟨cs.length, some value⟩) (h : IsClean escape more) :
    IsClean escape (escape :: 'u' :: (cs ++ more)) := by
  by_cases hSame : escape = 'u'
  · subst hSame
    exact (h.plains hPlain).doubled
  · have hWhole : read escape ('u' :: cs ++ more) = ⟨('u' :: cs).length, some value⟩ := by
      rw [List.cons_append, read_codePoint hSame, hRead, List.length_cons, Nat.add_comm]
    exact h.sequence _ hWhole

theorem ne_of_isScalar (h : IsScalar (Radix.withoutPlus cs)) :
    ∀ c ∈ cs, c ≠ 'u' ∧ c ≠ '\x7d' := by
  have hDigits : ∀ c ∈ Radix.withoutPlus cs, c ≠ 'u' ∧ c ≠ '\x7d' := by
    intro c hMem
    have hDigit := h.all c hMem
    refine ⟨?_, (ne_brace_of_isDigit hDigit).2⟩
    rintro rfl
    cases hDigit
  rcases Radix.withoutPlus_eq_or cs with hPlain | hPlus
  · rwa [← hPlain] at hDigits
  · rw [hPlus, List.forall_mem_cons]
    exact ⟨by decide, hDigits⟩

theorem IsClean.closed (hScalar : IsScalar (Radix.withoutPlus cs)) (h : IsClean escape more) :
    IsClean escape (escape :: 'u' :: '\x7b' :: (cs ++ ['\x7d']) ++ more) := by
  have hInside := ne_of_isScalar hScalar
  have hRead := readCodePoint_braced (fun c hMem => (hInside c hMem).2) more
  rw [codePoint?_eq_some_iff.mpr ⟨hScalar, rfl⟩] at hRead
  have hPlain : ∀ c ∈ '\x7b' :: (cs ++ ['\x7d']), c ≠ 'u' := by
    rw [List.forall_mem_cons, List.forall_mem_append, List.forall_mem_singleton]
    exact ⟨by decide, fun c hMem => (hInside c hMem).1, by decide⟩
  apply IsClean.codePoint hPlain _ h
  · exact Char.ofNat (Numeral.magnitude 16 (Radix.withoutPlus cs))
  · simpa using hRead

theorem isClean_unclosed (hScalar : IsScalar (Radix.withoutPlus cs)) :
    IsClean escape (escape :: 'u' :: '\x7b' :: cs) := by
  have hInside := ne_of_isScalar hScalar
  have hRead := readCodePoint_unclosed fun c hMem => (hInside c hMem).2
  rw [codePoint?_eq_some_iff.mpr ⟨hScalar, rfl⟩, ← List.append_nil ('\x7b' :: cs)] at hRead
  have hPlain : ∀ c ∈ '\x7b' :: cs, c ≠ 'u' :=
    List.forall_mem_cons.mpr ⟨by decide, fun c hMem => (hInside c hMem).1⟩
  have hClean := IsClean.codePoint hPlain hRead (isClean_nil escape)
  rwa [List.append_nil] at hClean

theorem IsClean.unit {unit : EscapeUnit} (hUnit : unit.IsOf escape) (h : IsClean escape more) :
    IsClean escape (unit.text escape ++ more) := by
  cases unit with
  | plain c => exact h.plain hUnit
  | doubled => exact h.doubled
  | simple letter =>
      by_cases hSame : letter = escape
      · subst hSame
        exact h.doubled
      · have hMeaning := simple?_of_mem_letters hUnit
        have hRead : read escape ([letter] ++ more) = ⟨1, (simple? letter)⟩ := by
          rw [List.singleton_append, read, if_neg hSame, hMeaning]
        rw [hMeaning] at hRead
        exact h.sequence [letter] hRead
  | fourDigits digits =>
      obtain ⟨hLength, hScalar⟩ := hUnit
      refine IsClean.codePoint (fun c hMem => ?_) (readCodePoint_fourDigits hLength hScalar more) h
      rw [← Radix.withoutPlus_of_digits hScalar.all] at hScalar
      exact (ne_of_isScalar hScalar c hMem).1
  | braced digits =>
      have hScalar : IsScalar digits := hUnit
      rw [← Radix.withoutPlus_of_digits hScalar.all] at hScalar
      exact h.closed hScalar

theorem IsPiece.isClean_append (hPiece : IsPiece escape cs) (h : IsClean escape more) :
    IsClean escape (cs ++ more) := by
  rcases hPiece with ⟨unit, hUnit, rfl⟩ | ⟨digits, hScalar, rfl⟩
  · exact h.unit hUnit
  · have hSigned : IsScalar (Radix.withoutPlus ('+' :: digits)) := hScalar
    exact h.closed hSigned

theorem IsUnclosed.isClean (h : IsUnclosed escape cs) : IsClean escape cs := by
  obtain ⟨digits, hScalar, rfl | rfl⟩ := h
  · rw [← Radix.withoutPlus_of_digits hScalar.all] at hScalar
    exact isClean_unclosed hScalar
  · have hSigned : IsScalar (Radix.withoutPlus ('+' :: digits)) := hScalar
    exact isClean_unclosed hSigned

theorem IsWellFormed.isClean (h : IsWellFormed escape cs) : IsClean escape cs := by
  obtain ⟨pieces, last, rfl, hPieces, hLast⟩ := h
  induction pieces with
  | nil =>
      rcases hLast with rfl | hUnclosed
      · exact isClean_nil escape
      · exact hUnclosed.isClean
  | cons piece pieces ih =>
      obtain ⟨hPiece, hRest⟩ := List.forall_mem_cons.mp hPieces
      rw [List.flatten_cons, List.append_assoc]
      exact hPiece.isClean_append (ih hRest)

/-- A content has no bad escape exactly if it splits into pieces, each a unit or a code point with a
plus sign in its braces, behind which there may be a code point whose brace is not closed. -/
theorem errors_eq_nil_iff (escape : Char) (content : List Char) :
    (unescape escape content).errors = [] ↔
      ∃ (pieces : List (List Char)) (last : List Char), content = pieces.flatten ++ last ∧
        (∀ piece ∈ pieces, (∃ unit : EscapeUnit, unit.IsOf escape ∧ piece = unit.text escape) ∨
          IsSigned escape piece) ∧
        (last = [] ∨ IsUnclosed escape last) :=
  ⟨isWellFormed_of_errors_eq_nil, fun h => IsWellFormed.isClean h 0⟩

/-- Among units, a code point in braces is one of them. -/
theorem exists_of_units (hNotU : escape ≠ 'u') {units : List EscapeUnit}
    (hUnits : ∀ unit ∈ units, unit.IsOf escape)
    (h : escape :: 'u' :: '\x7b' :: cs = units.flatMap (·.text escape)) :
    ∃ digits more, IsScalar digits ∧ cs = digits ++ '\x7d' :: more := by
  cases units with
  | nil => cases h
  | cons unit units =>
      obtain ⟨hUnit, -⟩ := List.forall_mem_cons.mp hUnits
      rw [List.flatMap_cons] at h
      cases unit with
      | plain c =>
          obtain ⟨rfl, -⟩ := List.cons.inj h
          exact absurd rfl hUnit
      | doubled =>
          obtain ⟨-, hSecond⟩ := List.cons.inj h
          exact absurd (List.cons.inj hSecond).1.symm hNotU
      | simple letter =>
          obtain ⟨-, hSecond⟩ := List.cons.inj h
          obtain ⟨rfl, -⟩ := List.cons.inj hSecond
          have hLetter : 'u' ∈ letters.map Prod.fst := hUnit
          exact absurd hLetter (by decide)
      | fourDigits digits =>
          obtain ⟨-, hScalar⟩ := hUnit
          obtain ⟨d, later, rfl⟩ := List.exists_cons_of_ne_nil hScalar.some
          obtain ⟨-, hSecond⟩ := List.cons.inj h
          obtain ⟨-, hThird⟩ := List.cons.inj hSecond
          obtain ⟨rfl, -⟩ := List.cons.inj hThird
          exact absurd rfl (ne_brace_of_isDigit (hScalar.all _ List.mem_cons_self)).1
      | braced digits =>
          refine ⟨digits, units.flatMap (·.text escape), hUnit, ?_⟩
          simpa [EscapeUnit.text] using h

end Precedence.Escape

namespace Precedence.Sample

/-- A code point with a plus sign, and one that is not closed: neither is made of units, and neither
is a bad escape. -/
theorem errors_eq_nil_without_units :
    (unescape '\\' ['\\', 'u', '\x7b', '+', '4', '1', '\x7d']).errors = [] ∧
      (unescape '\\' ['\\', 'u', '\x7b', '4', '1']).errors = [] ∧
      ∀ units : List EscapeUnit, (∀ unit ∈ units, unit.IsOf '\\') →
        units.flatMap (·.text '\\') ≠ ['\\', 'u', '\x7b', '+', '4', '1', '\x7d'] ∧
        units.flatMap (·.text '\\') ≠ ['\\', 'u', '\x7b', '4', '1'] := by
  have hScalar : Escape.IsScalar ['4', '1'] := by decide
  have hSigned : Escape.IsPiece '\\' ['\\', 'u', '\x7b', '+', '4', '1', '\x7d'] :=
    .inr ⟨_, hScalar, rfl⟩
  have hUnclosed : Escape.IsUnclosed '\\' ['\\', 'u', '\x7b', '4', '1'] :=
    ⟨_, hScalar, .inl rfl⟩
  refine ⟨hSigned.isClean_append (Escape.isClean_nil _) 0, hUnclosed.isClean 0,
    fun units hUnits => ⟨fun hSplit => ?_, fun hSplit => ?_⟩⟩
  · obtain ⟨digits, more, hDigits, hInside⟩ :=
      Escape.exists_of_units (by decide) hUnits hSplit.symm
    obtain ⟨d, later, rfl⟩ := List.exists_cons_of_ne_nil hDigits.some
    obtain ⟨rfl, -⟩ := List.cons.inj hInside
    exact absurd (hDigits.all _ List.mem_cons_self) (by decide)
  · obtain ⟨digits, more, -, hInside⟩ := Escape.exists_of_units (by decide) hUnits hSplit.symm
    have hBrace : '\x7d' ∈ ['4', '1'] := by
      rw [hInside]
      exact List.mem_append_right _ List.mem_cons_self
    exact absurd hBrace (by decide)

end Precedence.Sample
