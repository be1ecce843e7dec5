import Mathlib.Data.List.Basic
import Mathlib.Data.Nat.Digits.Defs
import Precedence.Proofs.Numeral.Notation

/-!
The digits of numbers. Digits write a number to a base, with separators among them or without; and
digits with a fraction and an exponent, or without, are read as the floating-point number nearest to
the decimal that they write. A text that is no word is read in no other case.
-/
namespace Precedence

/-- Whether the separators are two characters, none of which stands in a number otherwise. -/
def Separators.areApart (s : Separators) : Bool :=
  s.areMarks && s.fraction != '+' && s.fraction != '-' &&
    s.digit.all fun c => c != '+' && c != '-' && c != s.fraction

/-- The number that the digits in a text write to a base. What is no digit does not count. -/
def Numeral.magnitude (base : Nat) (cs : List Char) : Nat :=
  Nat.ofDigits base (cs.filterMap Radix.digitValue?).reverse

/-- The number that an exponent writes. -/
def NumberExponent.value (e : NumberExponent) : Int :=
  if e.sign = some true then -(Numeral.magnitude 10 e.digits : Int)
  else Numeral.magnitude 10 e.digits

/-! ### Digits and separators -/

theorem Char.isAlphanum_of_isDigit {c : Char} (h : c.isDigit = true) : c.isAlphanum = true :=
  Bool.or_eq_true_iff.mpr (.inr h)

namespace Separators

variable {s : Separators} {isDigit : Char → Bool} {cs : List Char}

theorem areMarks_of_areApart (h : s.areApart = true) : s.areMarks = true := by
  simp only [areApart, Bool.and_eq_true] at h
  exact h.1.1.1

theorem ne_sign_of_areApart (h : s.areApart = true) {c : Char} (hSign : c = '+' ∨ c = '-') :
    s.digit ≠ some c ∧ c ≠ s.fraction := by
  simp only [areApart, Bool.and_eq_true, bne_iff_ne] at h
  obtain ⟨⟨⟨-, hPlus⟩, hMinus⟩, hDigit⟩ := h
  constructor
  · intro hSame
    rw [hSame, Option.all_some] at hDigit
    rcases hSign with rfl | rfl <;> simp at hDigit
  · rcases hSign with rfl | rfl
    · exact Ne.symm hPlus
    · exact Ne.symm hMinus

theorem ne_fraction_of_areApart (h : s.areApart = true) : s.digit ≠ some s.fraction := by
  simp only [areApart, Bool.and_eq_true] at h
  intro hSame
  have hDigit := h.2
  rw [hSame, Option.all_some] at hDigit
  simp at hDigit

/-- What is left of a text when the separators among its digits are dropped. -/
def kept (s : Separators) (cs : List Char) : List Char := cs.filter fun c => s.digit != some c

@[simp] theorem kept_append (xs ys : List Char) : s.kept (xs ++ ys) = s.kept xs ++ s.kept ys :=
  List.filter_append xs ys

theorem kept_cons {c : Char} (h : s.digit ≠ some c) (cs : List Char) :
    s.kept (c :: cs) = c :: s.kept cs :=
  List.filter_cons_of_pos (by simpa using h)

theorem IsRun.of_mem_kept (h : s.IsRun isDigit cs) {c : Char} (hMem : c ∈ s.kept cs) :
    isDigit c = true := by
  obtain ⟨hRun, hKept⟩ := List.mem_filter.mp hMem
  apply (h.members c hRun).resolve_right
  intro hSeparator
  simp [hSeparator] at hKept

/-- A run keeps at least the digit in front. -/
theorem IsRun.exists_kept (h : s.IsRun isDigit cs) (hMarks : s.areMarks = true)
    (hAlphanum : ∀ c, isDigit c = true → c.isAlphanum = true) :
    ∃ d later, s.kept cs = d :: later ∧ isDigit d = true := by
  cases cs with
  | nil => cases h.head
  | cons d rest =>
      have hDigit : isDigit d = true := by simpa using h.head
      exact ⟨d, s.kept rest, kept_cons (ne_digit hMarks (hAlphanum d hDigit)) rest, hDigit⟩

/-- What is dropped is no digit. -/
theorem filterMap_kept (hMarks : s.areMarks = true) (cs : List Char) :
    (s.kept cs).filterMap Radix.digitValue? = cs.filterMap Radix.digitValue? := by
  rw [kept, List.filterMap_filter]
  apply List.filterMap_congr
  intro c _
  split
  · rfl
  · next hDropped =>
    cases hValue : Radix.digitValue? c with
    | none => rfl
    | some value =>
        have hAlphanum := Radix.isAlphanum_of_digitValue? (c := c) (by rw [hValue]; rfl)
        exact absurd (by simpa using hDropped) (ne_digit hMarks hAlphanum)

end Separators

namespace Numeral

theorem magnitude_kept {s : Separators} (hMarks : s.areMarks = true) (base : Nat)
    (cs : List Char) : magnitude base (s.kept cs) = magnitude base cs := by
  rw [magnitude, Separators.filterMap_kept hMarks, magnitude]

/-- Reading digits from the left comes to the number that they write. -/
theorem foldl_eq_magnitude (base : Nat) {valueOf : Char → Nat} {cs : List Char}
    (h : ∀ c ∈ cs, Radix.digitValue? c = some (valueOf c)) :
    cs.foldl (fun n c => base * n + valueOf c) 0 = magnitude base cs := by
  rw [magnitude, List.filterMap_eq_map_iff_forall_eq_some.mpr h, Nat.ofDigits_eq_foldr,
    List.foldr_reverse, List.foldl_map]
  simp [Nat.add_comm]

theorem digitsValue_eq {cs : List Char} (h : ∀ c ∈ cs, c.isDigit = true) :
    Decimal.digitsValue cs = magnitude 10 cs :=
  foldl_eq_magnitude 10 fun c hMem => if_pos (h c hMem)

theorem length_filterMap_digits {cs : List Char} (h : ∀ c ∈ cs, c.isDigit = true) :
    (cs.filterMap Radix.digitValue?).length = cs.length := by
  have hValues : ∀ c ∈ cs, Radix.digitValue? c = some (c.toNat - 48) := fun c hMem =>
    if_pos (h c hMem)
  rw [List.filterMap_eq_map_iff_forall_eq_some.mpr hValues, List.length_map]

end Numeral

/-! ### Reading whole numbers -/

namespace Radix

variable {radix : Radix} {cs : List Char}

/-- Digits of a base, of which there is at least one. -/
structure AreDigits (radix : Radix) (cs : List Char) : Prop where
  some : cs ≠ []
  all : ∀ c ∈ cs, radix.isDigit c = true

theorem value_of_digits (h : ∀ c ∈ cs, radix.isDigit c = true) :
    radix.value cs = Numeral.magnitude radix.base cs := by
  apply Numeral.foldl_eq_magnitude
  intro c hMem
  obtain ⟨value, hValue⟩ := Option.isSome_iff_exists.mp (isSome_digitValue? (h c hMem))
  simp [hValue]

theorem withoutPlus_of_digits (h : ∀ c ∈ cs, radix.isDigit c = true) : withoutPlus cs = cs := by
  unfold withoutPlus
  split
  · next rest =>
    have hDigit := h '+' List.mem_cons_self
    cases radix <;> cases hDigit
  · rfl

theorem withoutPlus_eq_or (cs : List Char) : cs = withoutPlus cs ∨ cs = '+' :: withoutPlus cs := by
  unfold withoutPlus
  split
  · exact .inr rfl
  · exact .inl rfl

/-- What is read as a number are digits, with a plus sign in front of them or without. -/
theorem read?_eq_some_iff {n : Nat} : radix.read? cs = some n ↔
    radix.AreDigits (withoutPlus cs) ∧ n = Numeral.magnitude radix.base (withoutPlus cs) := by
  simp only [read?, Option.ite_none_right_eq_some, Option.some.injEq, List.all_eq_true]
  constructor
  · rintro ⟨⟨hSome, hAll⟩, rfl⟩
    exact ⟨⟨hSome, hAll⟩, value_of_digits hAll⟩
  · rintro ⟨⟨hSome, hAll⟩, rfl⟩
    exact ⟨⟨hSome, hAll⟩, value_of_digits hAll⟩

/-- Digits of a base are read as the number that they write. -/
theorem read?_of_digits (hSome : cs ≠ []) (hDigits : ∀ c ∈ cs, radix.isDigit c = true) :
    radix.read? cs = some (Numeral.magnitude radix.base cs) := by
  rw [read?_eq_some_iff, withoutPlus_of_digits hDigits]
  exact ⟨⟨hSome, hDigits⟩, rfl⟩

end Radix

/-! ### Reading floating-point numbers -/

/-- Decimal digits, of which there is at least one. -/
structure Numeral.AreDigits (cs : List Char) : Prop where
  some : cs ≠ []
  all : ∀ c ∈ cs, c.isDigit = true

/-- An exponent with a mark and digits, and no separator among these. -/
structure NumberExponent.IsReadable (e : NumberExponent) : Prop where
  mark : e.mark = 'e' ∨ e.mark = 'E'
  digits : Numeral.AreDigits e.digits

namespace Decimal

open Numeral

/-- A sign in front of another character is told from it. -/
theorem readSign_signText (sign : Option Bool) {c : Char} (h : c ≠ '+' ∧ c ≠ '-')
    (cs : List Char) :
    readSign (NumberExponent.signText sign ++ c :: cs) = (sign == some true, c :: cs) := by
  rcases sign with - | minus
  · show readSign (c :: cs) = (false, c :: cs)
    unfold readSign
    split
    · next hSame => exact absurd (List.cons.inj hSame).1 h.2
    · next hSame => exact absurd (List.cons.inj hSame).1 h.1
    · rfl
  · cases minus <;> rfl

theorem takeWhile_digits {cs : List Char} (h : ∀ c ∈ cs, c.isDigit = true) {more : List Char}
    (hMore : more.head?.any Char.isDigit = false) :
    (cs ++ more).takeWhile Char.isDigit = cs ∧ (cs ++ more).dropWhile Char.isDigit = more := by
  rw [List.takeWhile_append_of_pos h, List.dropWhile_append_of_pos h]
  cases more with
  | nil => simp
  | cons c more =>
      have hNone : c.isDigit = false := by simpa using hMore
      simp [hNone]

theorem toLower_of_isDigit {c : Char} (h : c.isDigit = true) : c.toLower = c := by
  simp only [Char.isDigit, Bool.and_eq_true, decide_eq_true_eq] at h
  apply dif_neg
  rintro ⟨hUpper, -⟩
  have hLess := UInt32.le_trans hUpper h.2
  revert hLess
  decide

/-- A character at the front of a decimal: a digit or the point. -/
def IsLeading (c : Char) : Prop := c.isDigit = true ∨ c = '.'

theorem IsLeading.ne_sign {c : Char} (h : IsLeading c) : c ≠ '+' ∧ c ≠ '-' := by
  constructor
  all_goals
    rintro rfl
    rcases h with hDigit | hPoint
    · cases hDigit
    · cases hPoint

/-- A text that starts like a decimal is no word. -/
theorem ofList_toLower_ne {c : Char} (h : IsLeading c) (cs : List Char) {word : String}
    (hWord : word.toList.head?.any (fun c => c.isDigit || c == '.') = false) :
    String.ofList ((c :: cs).map Char.toLower) ≠ word := by
  have hLower : c.toLower = c := by
    rcases h with hDigit | rfl
    · exact toLower_of_isDigit hDigit
    · rfl
  rintro rfl
  rw [String.toList_ofList, List.map_cons, List.head?_cons, Option.any_some, hLower,
    Bool.or_eq_false_iff, beq_eq_false_iff_ne] at hWord
  rcases h with hDigit | hPoint
  · exact Bool.false_ne_true (hWord.1.symm.trans hDigit)
  · exact hWord.2 hPoint

/-- The parts of a decimal as it is read: digits with a point among or beside them, or without one,
and an exponent or none. -/
structure AreParts (whole : List Char) (fraction : Option (List Char))
    (exponent : Option NumberExponent) : Prop where
  digits : AreDigits (whole ++ fraction.getD [])
  readable : ∀ e ∈ exponent, e.IsReadable

/-- The parts of a decimal in writing. -/
def partsText (whole : List Char) (fraction : Option (List Char))
    (exponent : Option NumberExponent) : List Char :=
  whole ++ (fraction.elim [] ('.' :: ·) ++ NumberBody.exponentText exponent)

variable {exponent : Option NumberExponent} (hExponent : ∀ e ∈ exponent, e.IsReadable)

include hExponent

theorem head_exponentText :
    (NumberBody.exponentText exponent).head?.any Char.isDigit = false ∧
      (NumberBody.exponentText exponent).head? ≠ some '.' := by
  cases exponent with
  | none => exact ⟨rfl, by simp [NumberBody.exponentText]⟩
  | some e =>
      simp only [NumberBody.exponentText, Option.elim_some, NumberExponent.text, List.head?_cons]
      rcases (hExponent e rfl).mark with hMark | hMark
      · simp [hMark]
      · simp [hMark]

/-- What is written as an exponent is read as what it writes. -/
theorem readExponent?_exponentText :
    readExponent? (NumberBody.exponentText exponent) = some (exponent.elim 0 (·.value)) := by
  cases exponent with
  | none => rfl
  | some e =>
      obtain ⟨hMark, hDigits⟩ := hExponent e rfl
      have hValue : digitsValue e.digits = magnitude 10 e.digits := digitsValue_eq hDigits.all
      have hAll : e.digits.all Char.isDigit = true := List.all_eq_true.mpr hDigits.all
      have hSign : readSign (NumberExponent.signText e.sign ++ e.digits) =
          (e.sign == some true, e.digits) := by
        obtain ⟨d, later, hCons⟩ := List.exists_cons_of_ne_nil hDigits.some
        have hLeading : IsLeading d := .inl (hDigits.all d (by simp [hCons]))
        rw [hCons]
        exact readSign_signText e.sign hLeading.ne_sign later
      simp only [NumberBody.exponentText, Option.elim_some, NumberExponent.text, readExponent?,
        hMark, if_true, hSign, hDigits.some, hAll, hValue, ne_eq, not_false_eq_true, and_self,
        NumberExponent.value, beq_iff_eq]

omit hExponent

variable {whole : List Char} {fraction : Option (List Char)}

/-- The parts of a decimal are read as the decimal that they write. -/
theorem readMagnitude?_partsText (h : AreParts whole fraction exponent) :
    readMagnitude? (partsText whole fraction exponent) =
      some ⟨magnitude 10 (whole ++ fraction.getD []),
        exponent.elim 0 (·.value) - (fraction.getD []).length⟩ := by
  obtain ⟨⟨hSome, hDigits⟩, hExponent⟩ := h
  obtain ⟨hWhole, hPlaces⟩ := List.forall_mem_append.mp hDigits
  obtain ⟨hNoDigit, hNoPoint⟩ := head_exponentText hExponent
  have hRead := readExponent?_exponentText hExponent
  unfold partsText
  generalize NumberBody.exponentText exponent = exponentText at hNoDigit hNoPoint hRead
  cases fraction with
  | none =>
      obtain ⟨hTake, hDrop⟩ := takeWhile_digits hWhole hNoDigit
      have hValue := digitsValue_eq hWhole
      rw [Option.getD_none, List.append_nil] at hSome
      simp only [Option.elim_none, List.nil_append, readMagnitude?, hTake, hDrop]
      split
      · next hSame => exact absurd (by simp) hNoPoint
      · simp [hSome, hRead, hValue]
  | some places =>
      rw [Option.getD_some] at hSome hDigits hPlaces
      have hPoint : ('.' :: (places ++ exponentText)).head?.any Char.isDigit = false := rfl
      obtain ⟨hTake, hDrop⟩ := takeWhile_digits hWhole hPoint
      obtain ⟨hTakePlaces, hDropPlaces⟩ := takeWhile_digits hPlaces hNoDigit
      have hValue := digitsValue_eq hDigits
      have hNotBoth : ¬(whole = [] ∧ places = []) := by
        rwa [← List.append_eq_nil_iff]
      simp only [Option.elim_some, List.cons_append, readMagnitude?, hTake, hDrop, hTakePlaces,
        hDropPlaces, if_neg hNotBoth]
      simp [hRead, hValue]

theorem AreParts.exists_leading (h : AreParts whole fraction exponent) :
    ∃ c later, partsText whole fraction exponent = c :: later ∧ IsLeading c := by
  cases whole with
  | cons d later => exact ⟨d, _, rfl, .inl (h.digits.all d (by simp))⟩
  | nil =>
      cases fraction with
      | none => exact absurd rfl h.digits.some
      | some places => exact ⟨'.', _, rfl, .inr rfl⟩

/-- With a sign it is read as the floating-point number that is nearest to that. -/
theorem Binary64.read?_partsText (sign : Option Bool) (h : AreParts whole fraction exponent) :
    read? (NumberExponent.signText sign ++ partsText whole fraction exponent) =
      some (.ofDecimal (sign == some true) (magnitude 10 (whole ++ fraction.getD []))
        (exponent.elim 0 (·.value) - (fraction.getD []).length)) := by
  have hMagnitude := readMagnitude?_partsText h
  obtain ⟨c, later, hText, hLeading⟩ := h.exists_leading
  rw [hText] at hMagnitude ⊢
  have hSign := readSign_signText sign hLeading.ne_sign later
  have hNoWord (word : String)
      (hWord : word.toList.head?.any (fun c => c.isDigit || c == '.') = false) :=
    ofList_toLower_ne hLeading later hWord
  simp only [read?, hSign, hNoWord "inf" rfl, hNoWord "infinity" rfl, hNoWord "nan" rfl, or_self,
    if_false, hMagnitude, Option.map_some]

theorem Binary64.read?_minusText (negative : Bool) (h : AreParts whole fraction exponent) :
    read? (minusText negative ++ partsText whole fraction exponent) =
      some (.ofDecimal negative (magnitude 10 (whole ++ fraction.getD []))
        (exponent.elim 0 (·.value) - (fraction.getD []).length)) := by
  cases negative with
  | true => exact read?_partsText (some true) h
  | false => exact read?_partsText none h

/-- A decimal with digits on both sides of its point is one of those that are read. -/
theorem areParts (hWhole : AreDigits whole) (hFraction : ∀ places ∈ fraction, AreDigits places)
    (hExponent : ∀ e ∈ exponent, e.IsReadable) : AreParts whole fraction exponent := by
  refine ⟨⟨List.append_ne_nil_of_left_ne_nil hWhole.some _, ?_⟩, hExponent⟩
  refine List.forall_mem_append.mpr ⟨hWhole.all, ?_⟩
  cases fraction with
  | none => exact List.forall_mem_nil _
  | some places => exact (hFraction places rfl).all

/-! ### What is read as a floating-point number -/

theorem exists_signText (cs : List Char) :
    ∃ sign, cs = NumberExponent.signText sign ++ (readSign cs).2 := by
  unfold readSign
  split
  · exact ⟨some true, rfl⟩
  · exact ⟨some false, rfl⟩
  · exact ⟨none, rfl⟩

/-- What is read as an exponent is one in writing. -/
theorem exists_exponent_of_readExponent? {cs : List Char} {value : Int}
    (h : readExponent? cs = some value) :
    ∃ exponent, (∀ e ∈ exponent, e.IsReadable) ∧ cs = NumberBody.exponentText exponent := by
  cases cs with
  | nil => exact ⟨none, by simp, rfl⟩
  | cons mark rest =>
      simp only [readExponent?] at h
      obtain ⟨hMark, hRead⟩ := Option.ite_none_right_eq_some.mp h
      obtain ⟨⟨hSome, hAll⟩, -⟩ := Option.ite_none_right_eq_some.mp hRead
      obtain ⟨sign, hSign⟩ := exists_signText rest
      refine ⟨some ⟨mark, sign, (readSign rest).2⟩, ?_, congrArg (mark :: ·) hSign⟩
      rintro e ⟨⟩
      exact ⟨hMark, hSome, List.all_eq_true.mp hAll⟩

/-- What is read as an unsigned decimal are the parts of one in writing. -/
theorem exists_parts_of_readMagnitude? {cs : List Char} {d : Scientific}
    (h : readMagnitude? cs = some d) :
    ∃ whole fraction exponent, AreParts whole fraction exponent ∧
      cs = partsText whole fraction exponent := by
  have hDigits (xs : List Char) : ∀ c ∈ xs.takeWhile Char.isDigit, c.isDigit = true :=
    fun c hMem => List.mem_takeWhile_imp hMem
  have hWhole := List.takeWhile_append_dropWhile (p := Char.isDigit) (l := cs)
  simp only [readMagnitude?] at h
  split at h
  · next after hAfter =>
    obtain ⟨hSome, hRead⟩ := Option.ite_none_left_eq_some.mp h
    obtain ⟨value, hValue, -⟩ := Option.map_eq_some_iff.mp hRead
    obtain ⟨exponent, hExponent, hRest⟩ := exists_exponent_of_readExponent? hValue
    refine ⟨cs.takeWhile Char.isDigit, some (after.takeWhile Char.isDigit), exponent,
      ⟨⟨?_, ?_⟩, hExponent⟩, ?_⟩
    · rwa [Option.getD_some, ne_eq, List.append_eq_nil_iff]
    · exact List.forall_mem_append.mpr ⟨hDigits cs, hDigits after⟩
    · rw [partsText, ← hRest, Option.elim_some, List.cons_append,
        List.takeWhile_append_dropWhile, ← hAfter, hWhole]
  · obtain ⟨hSome, hRead⟩ := Option.ite_none_left_eq_some.mp h
    obtain ⟨value, hValue, -⟩ := Option.map_eq_some_iff.mp hRead
    obtain ⟨exponent, hExponent, hRest⟩ := exists_exponent_of_readExponent? hValue
    refine ⟨cs.takeWhile Char.isDigit, none, exponent, ⟨⟨?_, ?_⟩, hExponent⟩, ?_⟩
    · simpa using hSome
    · exact List.forall_mem_append.mpr ⟨hDigits cs, List.forall_mem_nil _⟩
    · rw [partsText, ← hRest, Option.elim_none, List.nil_append, hWhole]

/-- A text that is no word is only read as a floating-point number if it is a sign, or none, and the
parts of a decimal. -/
theorem Binary64.exists_parts_of_read? {cs : List Char} {value : Binary64}
    (h : read? cs = some value) (hPart : ∃ c ∈ cs, c = '.' ∨ c = 'e' ∨ c = 'E') :
    ∃ sign whole fraction exponent, AreParts whole fraction exponent ∧
      cs = NumberExponent.signText sign ++ partsText whole fraction exponent := by
  obtain ⟨sign, hSign⟩ := exists_signText cs
  have hNoWord (word : String) (hWord : '.' ∉ word.toList ∧ 'e' ∉ word.toList) :
      String.ofList ((readSign cs).2.map Char.toLower) ≠ word := by
    rintro rfl
    rw [String.toList_ofList] at hWord
    obtain ⟨c, hMem, hPart⟩ := hPart
    rw [hSign] at hMem
    have hRest : c ∈ (readSign cs).2 := by
      apply (List.mem_append.mp hMem).resolve_left
      intro hIn
      rcases NumberExponent.mem_signText hIn with rfl | rfl <;> simp at hPart
    have hLower := List.mem_map_of_mem (f := Char.toLower) hRest
    rcases hPart with rfl | rfl | rfl
    · exact hWord.1 hLower
    · exact hWord.2 hLower
    · exact hWord.2 hLower
  simp only [read?, hNoWord "inf" (by decide), hNoWord "infinity" (by decide),
    hNoWord "nan" (by decide), or_self, if_false] at h
  obtain ⟨d, hMagnitude, -⟩ := Option.map_eq_some_iff.mp h
  obtain ⟨whole, fraction, exponent, hParts, hText⟩ := exists_parts_of_readMagnitude? hMagnitude
  exact ⟨sign, whole, fraction, exponent, hParts, hText ▸ hSign⟩

end Decimal

end Precedence
