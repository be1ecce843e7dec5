import Mathlib.Data.List.DropRight
import Precedence.Diagnostic.Document
import Precedence.Lexer.Ignore
import Precedence.Proofs.Source.Position

/-!
Lines and positions. The lines of a document end with line feeds alone, while a position also counts
a carriage return that no line feed follows. So the line of a position is the line of the document
with that number as long as every carriage return in front of it belongs to a line feed; and then
the column says how much of that line stands in front of the position.
-/
namespace Precedence

/-- A text in front of a place ends there with a line feed, or is empty. -/
def Text.IsWholeLines (text : List Char) : Prop := text = [] ∨ text.getLast? = some '\n'

/-- Every carriage return in the front of a text belongs to a line feed, which may be the first
character of the rest. -/
def Text.PairsReturns (front rest : List Char) : Prop :=
  ∀ i < front.length, front[i]? = some '\r' → (front ++ rest)[i + 1]? = some '\n'

namespace Text

/-- The first bytes of a text are a front of it. -/
theorem prefix_of_takeBytes? {n : Nat} {cs text : List Char} (h : takeBytes? n cs = some text) :
    text <+: cs := by
  fun_induction takeBytes? n cs generalizing text with
  | case1 => cases h; exact List.nil_prefix
  | case2 => cases h
  | case3 n c cs hFits ih =>
      obtain ⟨rest, hRest, rfl⟩ := Option.map_eq_some_iff.mp h
      exact List.prefix_cons_inj c |>.mpr (ih hRest)
  | case4 => cases h

theorem PairsReturns.tail {c : Char} {front rest : List Char} (h : PairsReturns (c :: front) rest) :
    PairsReturns front rest :=
  fun i hLess hReturn => h (i + 1) (Nat.succ_lt_succ hLess) hReturn

theorem PairsReturns.head {front rest : List Char} (h : PairsReturns ('\r' :: front) rest) :
    (front ++ rest).head? = some '\n' := by
  have hNext := h 0 (Nat.succ_pos _) rfl
  rwa [List.cons_append, List.getElem?_cons_succ, ← List.head?_eq_getElem?] at hNext

theorem IsWholeLines.tail {c : Char} {text : List Char} (h : IsWholeLines (c :: text)) :
    IsWholeLines text := by
  cases text with
  | nil => exact .inl rfl
  | cons d text =>
      right
      rcases h with hNone | hLast
      · cases hNone
      · rwa [List.getLast?_cons_cons] at hLast

/-- Whole lines that are not empty hold a line feed. -/
theorem IsWholeLines.count_pos {text : List Char} (h : IsWholeLines text) (hSome : text ≠ []) :
    0 < text.count '\n' :=
  List.count_pos_iff.mpr (List.mem_of_getLast? (h.resolve_left hSome))

end Text

/-! ### Positions -/

namespace Position

/-- Whole lines lead to the first column of the line behind them. -/
theorem advance_of_isWholeLines (p : Position) {text rest : List Char}
    (hLines : Text.IsWholeLines text) (hReturns : Text.PairsReturns text rest) (hSome : text ≠ []) :
    p.advance text = ⟨p.line + text.count '\n', 1⟩ := by
  induction text generalizing p with
  | nil => exact absurd rfl hSome
  | cons c text ih =>
      by_cases hLast : text = []
      · subst hLast
        obtain rfl : c = '\n' := by
          rcases hLines with hNone | hFeed
          · cases hNone
          · simpa using hFeed
        simp [after]
      · have hRest (q : Position) : q.advance text = ⟨q.line + text.count '\n', 1⟩ :=
          ih q hLines.tail hReturns.tail hLast
        rw [advance_cons, hRest]
        by_cases hFeed : c = '\n'
        · subst hFeed
          simp [after, Nat.add_comm, Nat.add_left_comm]
        · rw [List.count_cons_of_ne hFeed]
          congr 2
          by_cases hReturn : c = '\r'
          · subst hReturn
            have hNext := hReturns.head
            rw [List.head?_append_of_ne_nil _ hLast] at hNext
            simp [after, hNext]
          · simp [after, hFeed, hReturn]

/-- Characters within a line lead on along it. -/
theorem advance_of_isWithinLine (p : Position) {text : List Char}
    (h : text.all IgnoreRule.isWithinLine = true) :
    p.advance text = ⟨p.line, p.column + text.length⟩ := by
  induction text generalizing p with
  | nil => rfl
  | cons c text ih =>
      rw [List.all_cons, Bool.and_eq_true, IgnoreRule.isWithinLine, Bool.and_eq_true, bne_iff_ne,
        bne_iff_ne] at h
      have hAfter : p.after c text = ⟨p.line, p.column + 1⟩ := by simp [after, h.1]
      rw [advance_cons, hAfter, ih _ h.2, List.length_cons, Nat.add_assoc, Nat.add_comm 1]

end Position

/-! ### Lines -/

namespace Document

theorem splitLines_ne_nil (text : List Char) : splitLines text ≠ [] := by
  cases text with
  | nil => exact List.cons_ne_nil _ _
  | cons c text =>
      rw [splitLines]
      split
      · exact List.cons_ne_nil _ _
      · split <;> exact List.cons_ne_nil _ _

theorem splitLines_cons_of_ne {c : Char} (h : c ≠ '\n') {text line : List Char}
    {lines : List (List Char)} (hLines : splitLines text = line :: lines) :
    splitLines (c :: text) = (c :: line) :: lines := by
  rw [splitLines, if_neg h, hLines]

/-- Behind whole lines the lines go on with those of the rest. -/
theorem getElem?_splitLines_append {text : List Char} (hLines : Text.IsWholeLines text)
    (rest : List Char) :
    (splitLines (text ++ rest))[text.count '\n']? = (splitLines rest)[0]? := by
  induction text with
  | nil => rfl
  | cons c text ih =>
      have hRest := ih hLines.tail
      by_cases hFeed : c = '\n'
      · subst hFeed
        rw [List.cons_append, splitLines, if_pos rfl, List.count_cons_self,
          List.getElem?_cons_succ, hRest]
      · have hSome : text ≠ [] := by
          rintro rfl
          rcases hLines with hNone | hLast
          · cases hNone
          · exact hFeed (by simpa using hLast)
        obtain ⟨line, lines, hSplit⟩ :=
          List.exists_cons_of_ne_nil (splitLines_ne_nil (text ++ rest))
        obtain ⟨n, hCount⟩ :=
          Nat.exists_eq_succ_of_ne_zero (Nat.ne_of_gt (hLines.tail.count_pos hSome))
        rw [List.count_cons_of_ne hFeed, List.cons_append, splitLines_cons_of_ne hFeed hSplit]
        rw [hSplit] at hRest
        rw [hCount] at hRest ⊢
        exact hRest

/-- The first line goes on with that of the rest. -/
theorem head_splitLines_append {text : List Char} (h : '\n' ∉ text) (rest : List Char) :
    ∃ tail, (splitLines (text ++ rest))[0]? = some (text ++ tail) := by
  induction text with
  | nil =>
      obtain ⟨line, lines, hSplit⟩ := List.exists_cons_of_ne_nil (splitLines_ne_nil rest)
      exact ⟨line, by rw [List.nil_append, hSplit]; rfl⟩
  | cons c text ih =>
      rw [List.mem_cons, not_or] at h
      obtain ⟨hFirst, hRest⟩ := h
      obtain ⟨tail, hTail⟩ := ih hRest
      obtain ⟨line, lines, hSplit⟩ :=
        List.exists_cons_of_ne_nil (splitLines_ne_nil (text ++ rest))
      rw [hSplit] at hTail
      refine ⟨tail, ?_⟩
      rw [List.cons_append, splitLines_cons_of_ne (Ne.symm hFirst) hSplit]
      exact congrArg (fun line => some (c :: line)) (Option.some.inj hTail)

theorem dropWhile_reverse {text : List Char} (h : '\r' ∉ text) :
    text.reverse.dropWhile (· == '\r') = text.reverse := by
  rw [List.dropWhile_eq_self_iff]
  intro hSome hLast
  exact h (List.mem_reverse.mp (beq_iff_eq.mp hLast ▸ List.getElem_mem _))

/-- Trimming a line keeps what no carriage return stands in. -/
theorem prefix_trimReturns {text : List Char} (h : '\r' ∉ text) (tail : List Char) :
    text <+: trimReturns (text ++ tail) := by
  rw [trimReturns, List.reverse_append, List.dropWhile_append, dropWhile_reverse h]
  split
  · exact (List.reverse_reverse text).symm ▸ List.prefix_rfl
  · rw [List.reverse_append, List.reverse_reverse]
    exact List.prefix_append _ _

end Document

/-! ### The line of a position -/

/-- What stands in a text behind its last line break. -/
def Text.sinceBreak (text : List Char) : List Char := text.rtakeWhile IgnoreRule.isWithinLine

namespace Text

theorem PairsReturns.left {front more rest : List Char} (h : PairsReturns (front ++ more) rest) :
    PairsReturns front (more ++ rest) := by
  intro i hLess hReturn
  rw [← List.append_assoc]
  apply h i (Nat.lt_of_lt_of_le hLess (by simp))
  rw [List.getElem?_append_left hLess, hReturn]

theorem PairsReturns.right {front more rest : List Char} (h : PairsReturns (front ++ more) rest) :
    PairsReturns more rest := by
  intro i hLess hReturn
  have hHere : (front ++ more)[front.length + i]? = some '\r' := by
    rwa [List.getElem?_append_right (Nat.le_add_right _ _), Nat.add_sub_cancel_left]
  have hNext := h (front.length + i) (by simpa using hLess) hHere
  rwa [List.append_assoc, Nat.add_assoc, List.getElem?_append_right (Nat.le_add_right _ _),
    Nat.add_sub_cancel_left] at hNext

theorem notMem_of_isWithinLine {text : List Char}
    (h : text.all IgnoreRule.isWithinLine = true) : '\n' ∉ text ∧ '\r' ∉ text := by
  constructor
  all_goals
    intro hMem
    have hBreak := List.all_eq_true.mp h _ hMem
    cases hBreak

theorem all_sinceBreak (text : List Char) :
    (sinceBreak text).all IgnoreRule.isWithinLine = true :=
  List.all_eq_true.mpr fun _ hMem => List.mem_rtakeWhile_imp hMem

/-- In front of the last line are whole lines, if every carriage return belongs to a line feed that
stands there as well. -/
theorem exists_eq_append_sinceBreak {front rest : List Char} (hReturns : PairsReturns front rest)
    (hWhole : front.getLast? = some '\r' → rest.head? ≠ some '\n') :
    ∃ lines, front = lines ++ sinceBreak front ∧ IsWholeLines lines := by
  have hSplit : front.rdropWhile IgnoreRule.isWithinLine ++ sinceBreak front = front :=
    List.rdropWhile_append_rtakeWhile
  refine ⟨front.rdropWhile IgnoreRule.isWithinLine, hSplit.symm, ?_⟩
  rcases List.eq_nil_or_concat (front.rdropWhile IgnoreRule.isWithinLine) with hNone | hLast
  · exact .inl hNone
  obtain ⟨lines, last, hLines⟩ := hLast
  rw [List.concat_eq_append] at hLines
  have hBreak := List.rdropWhile_last_not IgnoreRule.isWithinLine front (by simp [hLines])
  simp only [hLines, List.getLast_append_singleton] at hBreak
  rw [hLines, List.append_assoc, List.singleton_append] at hSplit
  right
  rw [hLines, List.getLast?_concat]
  by_contra hOther
  obtain rfl : last = '\r' := by
    by_contra hNeither
    simp_all [IgnoreRule.isWithinLine]
  -- The line feed of this carriage return would be behind it, but no line break is.
  rw [← hSplit] at hReturns
  have hFeed := hReturns.right.head
  cases hCurrent : sinceBreak front with
  | nil =>
      rw [hCurrent, List.nil_append] at hFeed
      rw [hCurrent] at hSplit
      exact hWhole (by simp [← hSplit]) hFeed
  | cons x later =>
      have hWithin := all_sinceBreak front
      rw [hCurrent, List.cons_append, List.head?_cons, Option.some.injEq] at hFeed
      rw [hCurrent, hFeed] at hWithin
      cases hWithin

end Text

namespace Document

open Position

/-- A position behind whole lines is as far along its line as the text behind them goes. -/
theorem advance_append_of_isWholeLines {lines text rest : List Char}
    (hLines : Text.IsWholeLines lines) (hReturns : Text.PairsReturns lines rest)
    (hWithin : text.all IgnoreRule.isWithinLine = true) :
    origin.advance (lines ++ text) = ⟨lines.count '\n' + 1, text.length + 1⟩ := by
  have hApart : lines.getLast? = some '\r' → text.head? ≠ some '\n' := by
    rintro hReturn
    rcases hLines with rfl | hFeed
    · cases hReturn
    · rw [hFeed] at hReturn
      cases hReturn
  have hBehind : origin.advance lines = ⟨lines.count '\n' + 1, 1⟩ := by
    by_cases hSome : lines = []
    · subst hSome
      rfl
    · rw [advance_of_isWholeLines origin hLines hReturns hSome, Nat.add_comm]
      rfl
  rw [← advance_advance origin hApart, hBehind, advance_of_isWithinLine _ hWithin, Nat.add_comm 1]

/-- The document has the line of every position of its source, and what stands in front of the
position on that line is what stands behind the last line break, as far as the column says: provided
that every carriage return in front of the position belongs to a line feed. -/
theorem lineText?_of_advance? (d : Document) {offset : Nat} {front : List Char} {p : Position}
    (hFront : Text.takeBytes? offset d.source.toList = some front)
    (hWhole : ¬ Text.SplitsPair d.source.toList offset)
    (hReturns : ∀ i < front.length, d.source.toList[i]? = some '\r' →
      d.source.toList[i + 1]? = some '\n')
    (hPosition : origin.advance? front = some p) :
    ∃ line, d.lineText? p.line = some line ∧
      line.take (p.column - 1) = Text.sinceBreak front ∧
      (Text.sinceBreak front).length = p.column - 1 := by
  obtain ⟨rest, hSource⟩ := Text.prefix_of_takeBytes? hFront
  have hOffset := Text.byteLength_of_takeBytes? hFront
  rw [← hSource] at hWhole hReturns
  have hPaired : Text.PairsReturns front rest := fun i hLess hReturn =>
    hReturns i hLess (by rwa [List.getElem?_append_left hLess])
  obtain ⟨lines, hSplit, hLines⟩ := Text.exists_eq_append_sinceBreak hPaired
    fun hReturn hFeed => hWhole (hOffset ▸ Text.splitsPair_of_append hReturn hFeed)
  have hWithin := Text.all_sinceBreak front
  generalize Text.sinceBreak front = current at hSplit hWithin
  subst hSplit
  have hPlace : p = ⟨lines.count '\n' + 1, current.length + 1⟩ := by
    rw [← advance_of_advance?_eq_some hPosition]
    exact advance_append_of_isWholeLines hLines hPaired.left hWithin
  have hNoBreak := Text.notMem_of_isWithinLine hWithin
  obtain ⟨tail, hTail⟩ := head_splitLines_append hNoBreak.1 rest
  obtain ⟨more, hMore⟩ := prefix_trimReturns hNoBreak.2 tail
  refine ⟨trimReturns (current ++ tail), ?_, ?_, ?_⟩
  · rw [hPlace, lineText?, if_neg (Nat.succ_ne_zero _), ← hSource, Nat.add_sub_cancel,
      List.append_assoc, getElem?_splitLines_append hLines, hTail, Option.map_some]
  · rw [hPlace, Nat.add_sub_cancel, ← hMore, List.take_left]
  · rw [hPlace, Nat.add_sub_cancel]

end Document

namespace Sample

open Document

/-- Lines that end in both ways, and a return alone on the last of them. -/
def listing : Document := ofSource "list.txt" "one\r\ntwo $\nthree\rfour"

/-- The column of the dollar sign says that four characters of its line stand in front of it. -/
theorem lineText?_of_advance?_listing :
    Text.takeBytes? 9 listing.source.toList = some "one\r\ntwo ".toList ∧
      Position.origin.advance? "one\r\ntwo ".toList = some ⟨2, 5⟩ ∧
      ∃ line, listing.lineText? 2 = some line ∧ line.take 4 = "two ".toList := by
  have hFront : Text.takeBytes? 9 listing.source.toList = some "one\r\ntwo ".toList := by
    decide +kernel
  have hPosition : Position.origin.advance? "one\r\ntwo ".toList = some ⟨2, 5⟩ := by decide
  obtain ⟨line, hLine, hTake, -⟩ := lineText?_of_advance? listing hFront (by decide +kernel)
    (by decide +kernel) hPosition
  have hSince : Text.sinceBreak "one\r\ntwo ".toList = "two ".toList := by decide
  exact ⟨hFront, hPosition, line, hLine, hTake.trans hSince⟩

/-- A carriage return that stands alone counts for positions and not for lines: the document has no
line for the place behind it. -/
theorem lineText?_behind_lone_return :
    Text.takeBytes? 2 "a\rb".toList = some ['a', '\r'] ∧ ¬ Text.SplitsPair "a\rb".toList 2 ∧
      Position.origin.advance? ['a', '\r'] = some ⟨2, 1⟩ ∧
      (ofSource "list.txt" "a\rb").lineText? 2 = none := by
  decide +kernel

end Sample

end Precedence
