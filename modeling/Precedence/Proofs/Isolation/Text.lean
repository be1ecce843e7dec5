import Mathlib.Data.List.TakeWhile
import Precedence.Lexer.Delimited
import Precedence.Text.Blank
import Precedence.Text.Case

/-!
Texts on their own. The front of a text is cut out, with a space behind it or nothing at all. What
is found there without a look at more than the character behind it is found as it was before, if it
neither holds a space nor could go on with one.
-/
namespace Precedence

/-- The first characters of a text have been cut out: they stand alone, or a space stands behind
them, though not where the whole text was cut out. -/
def Text.Isolates (cs : List Char) (n : Nat) (ds : List Char) : Prop :=
  ds = cs.take n ∨ ∃ later, ds = cs.take n ++ ' ' :: later ∧ cs.drop n ≠ []

/-- Whether no white space stands in a text. -/
def Text.isUnspaced (cs : List Char) : Bool := !cs.any isBlank

namespace Text

variable {cs ds : List Char} {n k : Nat}

theorem ne_space_of_isUnspaced (h : isUnspaced cs = true) {c : Char} (hMem : c ∈ cs) : c ≠ ' ' := by
  rintro rfl
  rw [isUnspaced, Bool.not_eq_true', List.any_eq_false] at h
  exact h ' ' hMem isBlank_space

namespace Isolates

theorem take_eq (h : Isolates cs n ds) (hLe : k ≤ n) : ds.take k = cs.take k := by
  rcases h with rfl | ⟨later, rfl, hMore⟩
  · rw [List.take_take, Nat.min_eq_left hLe]
  · have hLess : n < cs.length := by simpa using hMore
    rw [List.take_append_of_le_length (by rw [List.length_take]; omega), List.take_take,
      Nat.min_eq_left hLe]

theorem drop (h : Isolates cs n ds) (hLe : k ≤ n) : Isolates (cs.drop k) (n - k) (ds.drop k) := by
  rcases h with rfl | ⟨later, rfl, hMore⟩
  · left
    rw [List.drop_take]
  · have hLess : n < cs.length := by simpa using hMore
    right
    refine ⟨later, ?_, ?_⟩
    · rw [List.drop_append_of_le_length (by rw [List.length_take]; omega), List.drop_take]
    · rwa [List.drop_drop, Nat.add_sub_of_le hLe]

theorem getElem?_eq (h : Isolates cs n ds) (hLess : k < n) : ds[k]? = cs[k]? := by
  have hTake := h.take_eq (Nat.succ_le_of_lt hLess)
  rw [← List.getElem?_take_of_lt (Nat.lt_succ_self k), hTake,
    List.getElem?_take_of_lt (Nat.lt_succ_self k)]

/-- Behind what was cut out stands nothing, or a space. -/
theorem getElem?_self (h : Isolates cs n ds) : ds[n]? = none ∨ ds[n]? = some ' ' := by
  rcases h with rfl | ⟨later, rfl, hMore⟩
  · left
    exact List.getElem?_eq_none (by rw [List.length_take]; omega)
  · right
    have hLess : n < cs.length := by simpa using hMore
    have hLength : (cs.take n).length = n := by rw [List.length_take]; omega
    rw [List.getElem?_append_right (Nat.le_of_eq hLength), hLength, Nat.sub_self]
    rfl

theorem head?_eq (h : Isolates cs n ds) (hSome : 0 < n) : ds.head? = cs.head? := by
  rw [List.head?_eq_getElem?, List.head?_eq_getElem?, h.getElem?_eq hSome]

theorem ne_nil (h : Isolates cs n ds) (hSome : 0 < n) (hMore : cs ≠ []) : ds ≠ [] := by
  have hHead := h.head?_eq hSome
  rintro rfl
  rw [List.head?_nil, eq_comm, List.head?_eq_none_iff] at hHead
  exact hMore hHead

/-- What was cut out of a text as a whole is the text. -/
theorem eq_of_length_le (h : Isolates cs n ds) (hAll : cs.length ≤ n) : ds = cs := by
  rcases h with rfl | ⟨later, -, hMore⟩
  · exact List.take_of_length_le hAll
  · exact absurd (List.drop_eq_nil_of_le hAll) hMore

theorem eq_cons {x : Char} (h : Isolates (x :: cs) (n + 1) ds) :
    ∃ rest, ds = x :: rest ∧ Isolates cs n rest := by
  have hRest := h.drop (Nat.succ_le_succ (Nat.zero_le n))
  have hHead := h.head?_eq (Nat.succ_pos n)
  cases ds with
  | nil => cases hHead
  | cons y rest =>
      cases hHead
      exact ⟨rest, rfl, hRest⟩

/-- Nothing that was cut out starts with nothing, or with a space. -/
theorem head?_any_eq_false (h : Isolates cs 0 ds) {p : Char → Bool} (hSpace : p ' ' = false) :
    ds.head?.any p = false := by
  rw [List.head?_eq_getElem?]
  rcases h.getElem?_self with hNone | hBlank
  · rw [hNone]
    rfl
  · rw [hBlank]
    exact hSpace

/-- A run of characters that ends where the text was cut, or before, is the same run still. -/
theorem takeWhile_eq (h : Isolates cs n ds) {p : Char → Bool} (hSpace : p ' ' = false)
    (hLe : (cs.takeWhile p).length ≤ n) : ds.takeWhile p = cs.takeWhile p := by
  have hStop {xs : List Char} (hNone : xs.head?.any p = false) : xs.takeWhile p = [] := by
    cases xs with
    | nil => rfl
    | cons x xs => exact List.takeWhile_cons_of_neg (by simpa using hNone)
  induction cs generalizing n ds with
  | nil =>
      rw [h.eq_of_length_le (Nat.zero_le n)]
  | cons x cs ih =>
      by_cases hRun : p x = true
      · rw [List.takeWhile_cons_of_pos hRun] at hLe ⊢
        obtain ⟨n, rfl⟩ := Nat.exists_eq_succ_of_ne_zero (Nat.ne_zero_of_lt hLe)
        obtain ⟨rest, rfl, hRest⟩ := h.eq_cons
        rw [List.takeWhile_cons_of_pos hRun, ih hRest (Nat.le_of_succ_le_succ hLe)]
      · rw [List.takeWhile_cons_of_neg hRun]
        apply hStop
        cases n with
        | zero => exact h.head?_any_eq_false hSpace
        | succ n =>
            obtain ⟨rest, rfl, -⟩ := h.eq_cons
            simpa using hRun

end Isolates

/-- Whether a text starts with a pattern, minding the case of its letters or not. -/
def startsAs (ignoreCase : Bool) (pattern text : List Char) : Bool :=
  if ignoreCase then startsWithUpToCase pattern text else pattern.isPrefixOf text

/-- A letter as it counts in a comparison. -/
def fold (ignoreCase : Bool) (c : Char) : Char := if ignoreCase then c.toLower else c

theorem startsAs_iff {ignoreCase : Bool} {pattern text : List Char} :
    startsAs ignoreCase pattern text = true ↔
      (text.take pattern.length).map (fold ignoreCase) = pattern.map (fold ignoreCase) := by
  cases ignoreCase with
  | true =>
      have hFold : fold true = Char.toLower := rfl
      rw [hFold, startsAs, if_pos rfl, startsWithUpToCase, agreesUpToCase, foldCase, foldCase,
        beq_iff_eq]
  | false =>
      have hFold : fold false = id := rfl
      rw [hFold, List.map_id, List.map_id, startsAs, if_neg Bool.false_ne_true,
        List.isPrefixOf_iff_prefix, List.prefix_iff_eq_take, eq_comm]

/-- Nothing else counts as a space. -/
theorem eq_space_of_fold_eq {ignoreCase : Bool} {c : Char}
    (h : fold ignoreCase c = fold ignoreCase ' ') : c = ' ' := by
  cases ignoreCase with
  | false => exact h
  | true =>
      have hLower : c.toLower = ' ' := h
      unfold Char.toLower at hLower
      split at hLower
      · next hUpper =>
        have hValue := congrArg (fun d : Char => d.val.toNat) hLower
        simp only [UInt32.toNat_add, ge_iff_le, UInt32.le_iff_toNat_le] at hValue hUpper
        have hFirst : 'A'.val.toNat = 65 := rfl
        have hLast : 'Z'.val.toNat = 90 := rfl
        have hSpace : ' '.val.toNat = 32 := rfl
        have hStep : ('a'.val - 'A'.val).toNat = 32 := rfl
        omega
      · exact hLower

namespace Isolates

variable {ignoreCase : Bool} {pattern : List Char}

theorem startsAs_eq (h : Isolates cs n ds) (hLe : pattern.length ≤ n) :
    startsAs ignoreCase pattern ds = startsAs ignoreCase pattern cs := by
  rw [Bool.eq_iff_iff, startsAs_iff, startsAs_iff, h.take_eq hLe]

/-- A pattern without white space that is found at the front ends where the text was cut, or
before, so it stood there before the text was cut. -/
theorem startsAs_of_isUnspaced (h : Isolates cs n ds) (hPattern : isUnspaced pattern = true)
    (hFound : startsAs ignoreCase pattern ds = true) :
    pattern.length ≤ n ∧ startsAs ignoreCase pattern cs = true := by
  have hLe : pattern.length ≤ n := by
    by_contra hLong
    have hLess : n < pattern.length := Nat.lt_of_not_le hLong
    have hThere := congrArg (·[n]?) (startsAs_iff.mp hFound)
    simp only [List.getElem?_map, List.getElem?_take_of_lt hLess,
      List.getElem?_eq_getElem hLess, Option.map_some] at hThere
    rcases h.getElem?_self with hNone | hBlank
    · rw [hNone] at hThere
      cases hThere
    · rw [hBlank, Option.map_some, Option.some.injEq] at hThere
      have hSpace := eq_space_of_fold_eq hThere.symm
      exact ne_space_of_isUnspaced hPattern (List.getElem_mem hLess) hSpace
  exact ⟨hLe, h.startsAs_eq hLe ▸ hFound⟩

theorem isPrefixOf_eq (h : Isolates cs n ds) (hLe : pattern.length ≤ n) :
    pattern.isPrefixOf ds = pattern.isPrefixOf cs := by
  show startsAs false pattern ds = startsAs false pattern cs
  exact h.startsAs_eq hLe

theorem isPrefixOf_of_isUnspaced (h : Isolates cs n ds) (hPattern : isUnspaced pattern = true)
    (hFound : pattern.isPrefixOf ds = true) :
    pattern.length ≤ n ∧ pattern.isPrefixOf cs = true := by
  have hThere : startsAs false pattern ds = true := hFound
  exact h.startsAs_of_isUnspaced hPattern hThere

end Isolates

end Text

/-! ### Delimited texts -/

namespace Delimited

variable {closing : List Char} {escape : Option Char} {read n : Nat} {cs ds : List Char}

theorem scan_of_ne {c : Char} (h : escape ≠ some c) :
    scan closing escape read (c :: cs) =
      if closing.isPrefixOf (c :: cs) then ⟨read, true⟩
      else scan closing escape (read + 1) cs := by
  rw [scan.eq_def]
  exact if_neg h

theorem le_length_scan (closing : List Char) (escape : Option Char) (read : Nat) (cs : List Char) :
    read ≤ (scan closing escape read cs).length := by
  fun_induction scan closing escape read cs with
  | case1 => exact Nat.le_refl _
  | case2 => exact Nat.le_succ _
  | case3 read c hEscape d cs ih => omega
  | case4 => exact Nat.le_refl _
  | case5 read c cs hEscape hClosing ih => omega

theorem le_width_scan : read ≤ (scan closing escape read cs).width closing := by
  apply Nat.le_trans (le_length_scan closing escape read cs)
  unfold width
  split <;> omega

/-- A content that was cut out with its closing delimiter, or with all that is left, goes as far as
it did. -/
theorem width_scan_isolated (hClosing : Text.isUnspaced closing = true)
    (hEscape : escape ≠ some ' ') (h : Text.Isolates cs n ds)
    (hWidth : (scan closing escape read cs).width closing = read + n) :
    (scan closing escape read ds).width closing = read + n := by
  fun_induction scan closing escape read cs generalizing n ds with
  | case1 read => rw [h.eq_of_length_le (Nat.zero_le n), scan, hWidth]
  | case2 read c hSame =>
      have hOne : read + 1 = read + n := hWidth
      rw [h.eq_of_length_le (by simp; omega), scan, if_pos hSame, hWidth]
  | case3 read c hSame d cs ih =>
      have hTwo : read + 2 ≤ read + n := hWidth ▸ le_width_scan
      obtain ⟨n, rfl⟩ := Nat.exists_eq_add_of_le' (Nat.le_of_add_le_add_left hTwo)
      obtain ⟨rest, rfl, hRest⟩ := h.eq_cons
      obtain ⟨later, rfl, hLater⟩ := hRest.eq_cons
      rw [scan, if_pos hSame, ih hLater (by omega)]
      omega
  | case4 read c cs hOther hFound =>
      have hAll : closing.length = n := Nat.add_left_cancel hWidth
      have hThere : closing.isPrefixOf ds = true :=
        (h.isPrefixOf_eq (Nat.le_of_eq hAll)).trans hFound
      cases ds with
      | nil =>
          have hNone : closing = [] := by simpa using hThere
          rw [scan, ← hAll, hNone]
          rfl
      | cons x rest =>
          have hPlain : escape ≠ some x := by
            cases n with
            | zero =>
                rcases h.getElem?_self with hCut | hCut
                · cases hCut
                · cases hCut
                  exact hEscape
            | succ n =>
                obtain ⟨later, hCons, -⟩ := h.eq_cons
                cases hCons
                exact hOther
          rw [scan_of_ne hPlain, if_pos hThere, ← hAll]
          rfl
  | case5 read c cs hOther hNone ih =>
      have hOne : read + 1 ≤ read + n := hWidth ▸ le_width_scan
      obtain ⟨n, rfl⟩ := Nat.exists_eq_add_of_le' (Nat.le_of_add_le_add_left hOne)
      have hNowhere : ¬closing.isPrefixOf ds = true := fun hFound =>
        hNone (h.isPrefixOf_of_isUnspaced hClosing hFound).2
      obtain ⟨rest, rfl, hRest⟩ := h.eq_cons
      rw [scan_of_ne hOther, if_neg hNowhere, ih hRest (by omega)]
      omega

end Delimited

end Precedence
