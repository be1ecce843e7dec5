import Precedence.Diagnostic.Terminal
import Precedence.Proofs.Diagnostic.Lines

/-!
The line under a message. Where the positions of a message are those of its offsets, the line that
is shown is the one on which the message starts, and the carets below it stay on that line, but for
one caret that may stand behind its last character. A message that does not leave its line has a
caret under each of its characters and under no other.
-/
namespace Precedence

namespace Text

/-- What stands in a text in front of its first line break. -/
def untilBreak (text : List Char) : List Char := text.takeWhile IgnoreRule.isWithinLine

/-- The line on which the place between two parts of a text stands, without its line break. -/
def lineAround (front rest : List Char) : List Char := sinceBreak front ++ untilBreak rest

theorem all_untilBreak (text : List Char) :
    (untilBreak text).all IgnoreRule.isWithinLine = true :=
  List.all_takeWhile

theorem untilBreak_append {text : List Char} (h : text.all IgnoreRule.isWithinLine = true)
    (rest : List Char) : untilBreak (text ++ rest) = text ++ untilBreak rest :=
  List.takeWhile_append_of_pos fun c hMem => List.all_eq_true.mp h c hMem

theorem sinceBreak_append {text : List Char} (h : text.all IgnoreRule.isWithinLine = true)
    (front : List Char) : sinceBreak (front ++ text) = sinceBreak front ++ text := by
  rw [sinceBreak, sinceBreak, List.rtakeWhile, List.rtakeWhile, List.reverse_append,
    List.takeWhile_append_of_pos, List.reverse_append, List.reverse_reverse]
  intro c hMem
  exact List.all_eq_true.mp h c (List.mem_reverse.mp hMem)

/-- Up to its first line feed a text reaches up to its first line break, and on to the carriage
return if it is with that that the line break starts. -/
theorem takeWhile_feed {text : List Char} (h : PairsReturns text []) :
    text.takeWhile (· != '\n') = untilBreak text ∨
      text.takeWhile (· != '\n') = untilBreak text ++ ['\r'] := by
  induction text with
  | nil => exact .inl rfl
  | cons c text ih =>
      by_cases hFeed : c = '\n'
      · subst hFeed
        exact .inl rfl
      by_cases hReturn : c = '\r'
      · subst hReturn
        have hNext := h.head
        rw [List.append_nil] at hNext
        obtain ⟨later, rfl⟩ := List.head?_eq_some_iff.mp hNext
        exact .inr rfl
      · have hGoesOn : IgnoreRule.isWithinLine c = true := by
          simp [IgnoreRule.isWithinLine, hFeed, hReturn]
        simpa [untilBreak, hFeed, hGoesOn] using ih h.tail

/-- A text with no line feed has no line break at all, if every carriage return belongs to a line
feed and the text does not end in front of it. -/
theorem isWithinLine_of_count {text rest : List Char} (hReturns : PairsReturns text rest)
    (hWhole : text.getLast? = some '\r' → rest.head? ≠ some '\n') (hCount : text.count '\n' = 0) :
    text.all IgnoreRule.isWithinLine = true := by
  induction text with
  | nil => rfl
  | cons c text ih =>
      have hNotFeed : c ≠ '\n' := by
        rintro rfl
        simp at hCount
      rw [List.count_cons_of_ne hNotFeed] at hCount
      have hNotReturn : c ≠ '\r' := by
        rintro rfl
        have hNext := hReturns.head
        cases text with
        | nil => exact hWhole rfl hNext
        | cons d text =>
            obtain rfl : d = '\n' := by simpa using hNext
            simp at hCount
      have hWholeRest : text.getLast? = some '\r' → rest.head? ≠ some '\n' := by
        intro hLast
        apply hWhole
        rw [List.getLast?_cons, hLast]
        rfl
      rw [List.all_cons, ih hReturns.tail hWholeRest hCount]
      simp [IgnoreRule.isWithinLine, hNotFeed, hNotReturn]

end Text

/-! ### The line of a place -/

/-- What is in front of a place are whole lines and a part of its own line, and the line feeds are
all in the lines. -/
theorem Text.exists_lines {front rest : List Char} (hReturns : PairsReturns front rest)
    (hWhole : front.getLast? = some '\r' → rest.head? ≠ some '\n') :
    ∃ lines current, front = lines ++ current ∧ sinceBreak front = current ∧ IsWholeLines lines ∧
      current.all IgnoreRule.isWithinLine = true ∧ lines.count '\n' = front.count '\n' := by
  obtain ⟨lines, hSplit, hLines⟩ := exists_eq_append_sinceBreak hReturns hWhole
  have hWithin := all_sinceBreak front
  have hNone : (sinceBreak front).count '\n' = 0 :=
    List.count_eq_zero.mpr (notMem_of_isWithinLine hWithin).1
  have hCount := congrArg (List.count '\n') hSplit
  rw [List.count_append, hNone, Nat.add_zero] at hCount
  exact ⟨lines, sinceBreak front, hSplit, rfl, hLines, hWithin, hCount.symm⟩

/-- The line of a place is one more than the line feeds in front of it, and the column one more than
the characters in front of it on that line. -/
theorem Position.advance_origin {front rest : List Char} (hReturns : Text.PairsReturns front rest)
    (hWhole : front.getLast? = some '\r' → rest.head? ≠ some '\n') :
    origin.advance front = ⟨front.count '\n' + 1, (Text.sinceBreak front).length + 1⟩ := by
  obtain ⟨lines, current, rfl, hSince, hLines, hWithin, hCount⟩ := Text.exists_lines hReturns hWhole
  rw [Document.advance_append_of_isWholeLines hLines hReturns.left hWithin, hCount, hSince]

namespace Document

theorem head_splitLines (text : List Char) :
    (splitLines text)[0]? = some (text.takeWhile (· != '\n')) := by
  induction text with
  | nil => rfl
  | cons c text ih =>
      by_cases hFeed : c = '\n'
      · subst hFeed
        rfl
      · obtain ⟨line, lines, hSplit⟩ := List.exists_cons_of_ne_nil (splitLines_ne_nil text)
        rw [hSplit] at ih
        rw [splitLines_cons_of_ne hFeed hSplit, List.takeWhile_cons, if_pos (by simpa using hFeed)]
        exact congrArg (fun line => some (c :: line)) (Option.some.inj ih)

theorem trimReturns_of_notMem {line : List Char} (h : '\r' ∉ line) : trimReturns line = line := by
  rw [trimReturns, dropWhile_reverse h, List.reverse_reverse]

theorem trimReturns_concat (line : List Char) :
    trimReturns (line ++ ['\r']) = trimReturns line := by
  simp [trimReturns]

/-- A text without its line feeds, and without the carriage return in front of the first of them,
is the text up to its first line break. -/
theorem trimReturns_takeWhile {text : List Char} (h : Text.PairsReturns text []) :
    trimReturns (text.takeWhile (· != '\n')) = Text.untilBreak text := by
  have hKept : trimReturns (Text.untilBreak text) = Text.untilBreak text :=
    trimReturns_of_notMem (Text.notMem_of_isWithinLine (Text.all_untilBreak text)).2
  rcases Text.takeWhile_feed h with hFeed | hReturn
  · rw [hFeed, hKept]
  · rw [hReturn, trimReturns_concat, hKept]

/-- The line that a document has for a place is the line on which the place stands. -/
theorem lineText?_of_place (d : Document) {front rest : List Char}
    (hSource : d.source.toList = front ++ rest) (hReturns : Text.PairsReturns (front ++ rest) [])
    (hWhole : front.getLast? = some '\r' → rest.head? ≠ some '\n') :
    d.lineText? (front.count '\n' + 1) = some (Text.lineAround front rest) := by
  have hFront : Text.PairsReturns front rest := by simpa using hReturns.left
  obtain ⟨lines, current, rfl, hSince, hLines, hWithin, hCount⟩ := Text.exists_lines hFront hWhole
  rw [List.append_assoc] at hSource hReturns
  rw [lineText?, if_neg (Nat.succ_ne_zero _), Nat.add_sub_cancel, ← hCount, hSource,
    getElem?_splitLines_append hLines, head_splitLines, Option.map_some,
    trimReturns_takeWhile hReturns.right, Text.untilBreak_append hWithin, Text.lineAround, hSince]

end Document

/-! ### The carets -/

namespace Terminal

/-- A line behind its number, and below it a row of blanks and carets that starts where the line
starts. -/
def underlined (number : Nat) (line : List Char) (blanks carets : Nat) : String :=
  let margin := repeated (toString number).length ' '
  margin ++ " |\n" ++
    (toString number ++ " | " ++ String.ofList line ++ "\n") ++
    (margin ++ " | " ++ repeated blanks ' ' ++ repeated carets '^' ++ "\n\n")

theorem excerpt_eq_underlined (m : Message) (line : List Char) :
    excerpt false m line = underlined m.range.start.line line (m.range.start.column - 1)
      (caretCount m.range line) := by
  simp [excerpt, underlined, paint, String.append_assoc]

theorem caretCount_pos (range : SourceRange) (line : List Char) : 0 < caretCount range line := by
  unfold caretCount
  split <;> omega

variable {range : SourceRange} {front covered rest : List Char}

/-- The carets stay on a line that reaches up to the start of a range, and up to its end if that is
on the line too, but for the one caret of an empty range. -/
theorem caretCount_le {line : List Char} (hStart : range.start.column - 1 ≤ line.length)
    (hStop : range.stop.line = range.start.line → range.stop.column - 1 ≤ line.length) :
    range.start.column - 1 + caretCount range line ≤ line.length + 1 := by
  unfold caretCount
  split
  · next hSame =>
    have hEnd := hStop hSame
    omega
  · omega

/-- A range on one line that is not empty has a caret for each of its characters. -/
theorem caretCount_eq_length {line : List Char} (hSame : range.stop.line = range.start.line)
    (hColumns : range.stop.column = range.start.column + covered.length) (hSome : covered ≠ []) :
    caretCount range line = covered.length := by
  have hLength := List.length_pos_of_ne_nil hSome
  rw [caretCount, if_pos hSame, hColumns]
  omega

/-- The parts of a text divide no line break, and every carriage return belongs to a line feed. -/
structure KeepsBreaks (front covered rest : List Char) : Prop where
  returns : Text.PairsReturns (front ++ covered ++ rest) []
  start : front.getLast? = some '\r' → (covered ++ rest).head? ≠ some '\n'
  stop : (front ++ covered).getLast? = some '\r' → rest.head? ≠ some '\n'

namespace KeepsBreaks

theorem returns_stop (h : KeepsBreaks front covered rest) :
    Text.PairsReturns (front ++ covered) rest := by
  simpa using h.returns.left

theorem place_start (h : KeepsBreaks front covered rest) :
    Position.origin.advance front =
      ⟨front.count '\n' + 1, (Text.sinceBreak front).length + 1⟩ :=
  Position.advance_origin h.returns_stop.left h.start

/-- A part that ends on the line on which it starts is all on that line. -/
theorem isWithinLine_of_line_eq (h : KeepsBreaks front covered rest)
    (hSame : (Position.origin.advance (front ++ covered)).line =
      (Position.origin.advance front).line) :
    covered.all IgnoreRule.isWithinLine = true := by
  rw [h.place_start, Position.advance_origin h.returns_stop h.stop, List.count_append] at hSame
  apply Text.isWithinLine_of_count h.returns_stop.right
  · intro hReturn
    apply h.stop
    rw [List.getLast?_append, hReturn]
    rfl
  · exact Nat.left_eq_add.mp (Nat.succ.inj hSame).symm

/-- The columns of a part that ends on the line on which it starts count its characters. -/
theorem column_stop (h : KeepsBreaks front covered rest)
    (hWithin : covered.all IgnoreRule.isWithinLine = true) :
    (Position.origin.advance (front ++ covered)).column =
      (Position.origin.advance front).column + covered.length := by
  rw [h.place_start, Position.advance_origin h.returns_stop h.stop,
    Text.sinceBreak_append hWithin, List.length_append]
  exact Nat.add_right_comm _ _ _

/-- The line of the start has all of a part that ends on it. -/
theorem lineAround_start (hWithin : covered.all IgnoreRule.isWithinLine = true) :
    Text.lineAround front (covered ++ rest) =
      Text.sinceBreak front ++ (covered ++ Text.untilBreak rest) := by
  rw [Text.lineAround, Text.untilBreak_append hWithin]

theorem column_start_le (h : KeepsBreaks front covered rest) :
    (Position.origin.advance front).column - 1 ≤
      (Text.lineAround front (covered ++ rest)).length := by
  rw [h.place_start, Text.lineAround, List.length_append]
  exact Nat.le_add_right _ _

theorem column_stop_le (h : KeepsBreaks front covered rest)
    (hWithin : covered.all IgnoreRule.isWithinLine = true) :
    (Position.origin.advance (front ++ covered)).column - 1 ≤
      (Text.lineAround front (covered ++ rest)).length := by
  rw [h.column_stop hWithin, h.place_start, lineAround_start hWithin, List.length_append,
    List.length_append]
  dsimp only
  omega

/-- From the column of the start on, the line has the characters of a part that ends on it. -/
theorem take_drop_lineAround (h : KeepsBreaks front covered rest)
    (hWithin : covered.all IgnoreRule.isWithinLine = true) :
    ((Text.lineAround front (covered ++ rest)).drop
      ((Position.origin.advance front).column - 1)).take covered.length = covered := by
  rw [h.place_start, lineAround_start hWithin, Nat.add_sub_cancel, List.drop_left, List.take_left]

end KeepsBreaks

/-- A text that is cut at two offsets, neither of them inside of a line break. -/
theorem keepsBreaks_of_splitsPair {source : List Char} (hSource : source = front ++ covered ++ rest)
    (hReturns : ∀ i : Nat, source[i]? = some '\r' → source[i + 1]? = some '\n')
    (hStart : ¬Text.SplitsPair source (Text.byteLength front))
    (hStop : ¬Text.SplitsPair source (Text.byteLength (front ++ covered))) :
    KeepsBreaks front covered rest := by
  constructor
  case returns =>
    intro i _ hReturn
    rw [List.append_nil, ← hSource]
    exact hReturns i (hSource ▸ hReturn)
  case start =>
    intro hReturn hFeed
    rw [hSource, List.append_assoc] at hStart
    exact hStart (Text.splitsPair_of_append hReturn hFeed)
  case stop =>
    intro hReturn hFeed
    rw [hSource] at hStop
    exact hStop (Text.splitsPair_of_append hReturn hFeed)

/-- A message whose positions are those of its offsets is shown with the line on which it starts,
and below that with carets which start at its column and reach at most one column behind the line.
If it ends on the same line and is not empty, the carets are under its characters. This holds in a
source where every carriage return belongs to a line feed, for a message that starts and ends inside
of no such pair. -/
theorem withSource_of_positions (d : Document) (m : Message) {front covered rest : List Char}
    (hSource : d.source.toList = front ++ covered ++ rest)
    (hSpan : m.range.span = ⟨Text.byteLength front, Text.byteLength (front ++ covered)⟩)
    (hReturns : ∀ i : Nat, d.source.toList[i]? = some '\r' → d.source.toList[i + 1]? = some '\n')
    (hWhole : ¬Text.SplitsPair d.source.toList m.range.span.start ∧
      ¬Text.SplitsPair d.source.toList m.range.span.stop)
    (hStart : Position.origin.advance? front = some m.range.start)
    (hStop : Position.origin.advance? (front ++ covered) = some m.range.stop) :
    ∃ line carets, line = Text.lineAround front (covered ++ rest) ∧
      withSource false d m = header false d.filename m ++
        underlined m.range.start.line line (m.range.start.column - 1) carets ∧
      0 < carets ∧ m.range.start.column - 1 + carets ≤ line.length + 1 ∧
      (m.range.stop.line = m.range.start.line → covered ≠ [] →
        carets = covered.length ∧
          (line.drop (m.range.start.column - 1)).take carets = covered) := by
  rw [hSpan] at hWhole
  have hKeeps := keepsBreaks_of_splitsPair hSource hReturns hWhole.1 hWhole.2
  have hFrom := Position.advance_of_advance?_eq_some hStart
  have hTo := Position.advance_of_advance?_eq_some hStop
  have hLine : d.lineText? m.range.start.line = some (Text.lineAround front (covered ++ rest)) := by
    rw [← hFrom, hKeeps.place_start]
    rw [List.append_assoc] at hSource
    exact d.lineText?_of_place hSource (List.append_assoc .. ▸ hKeeps.returns) hKeeps.start
  have hOnLine (hSame : m.range.stop.line = m.range.start.line) :
      covered.all IgnoreRule.isWithinLine = true :=
    hKeeps.isWithinLine_of_line_eq (by rw [hFrom, hTo, hSame])
  refine ⟨_, caretCount m.range (Text.lineAround front (covered ++ rest)), rfl, ?_,
    caretCount_pos _ _, caretCount_le ?_ fun hSame => ?_, fun hSame hSome => ?_⟩
  · rw [withSource, hLine]
    exact congrArg _ (excerpt_eq_underlined m _)
  · exact hFrom ▸ hKeeps.column_start_le
  · exact hTo ▸ hKeeps.column_stop_le (hOnLine hSame)
  · have hColumns := hKeeps.column_stop (hOnLine hSame)
    rw [hFrom, hTo] at hColumns
    have hCount : caretCount m.range (Text.lineAround front (covered ++ rest)) = covered.length :=
      caretCount_eq_length hSame hColumns hSome
    have hUnder := hKeeps.take_drop_lineAround (hOnLine hSame)
    rw [hFrom] at hUnder
    exact ⟨hCount, hCount ▸ hUnder⟩

end Terminal

namespace Sample

open Terminal

/-- Three lines, a pair at the end of the first, and characters of several bytes. -/
def sums : Document := Document.ofSource "sums.txt" "größe\r\nπ × r²\n7"

/-- A message about the sign and the blank in front of it on the second line. -/
def signMessage : Message :=
  ⟨.unexpectedToken, .error, "expected name, found '×'", ⟨⟨11, 14⟩, ⟨2, 2⟩, ⟨2, 4⟩⟩⟩

/-- Below the second line two carets stand behind one blank. -/
theorem withSource_of_positions_sign :
    sums.source.toList = "größe\r\nπ".toList ++ " ×".toList ++ " r²\n7".toList ∧
      signMessage.range.span =
        ⟨Text.byteLength "größe\r\nπ".toList, Text.byteLength "größe\r\nπ ×".toList⟩ ∧
      withSource false sums signMessage =
        header false "sums.txt" signMessage ++ underlined 2 "π × r²".toList 1 2 ∧
      (("π × r²".toList).drop 1).take 2 = " ×".toList := by
  have hSource : sums.source.toList = "größe\r\nπ".toList ++ " ×".toList ++ " r²\n7".toList := by
    decide +kernel
  have hSpan : signMessage.range.span = ⟨Text.byteLength "größe\r\nπ".toList,
      Text.byteLength ("größe\r\nπ".toList ++ " ×".toList)⟩ := by
    decide +kernel
  have hReturns (i : Nat) (hReturn : sums.source.toList[i]? = some '\r') :
      sums.source.toList[i + 1]? = some '\n' := by
    have hAll : ∀ i < sums.source.toList.length, sums.source.toList[i]? = some '\r' →
        sums.source.toList[i + 1]? = some '\n' := by
      decide +kernel
    exact hAll i (List.getElem?_eq_some_iff.mp hReturn).1 hReturn
  obtain ⟨line, carets, rfl, hPrinted, -, -, hUnder⟩ := withSource_of_positions sums signMessage
    hSource hSpan hReturns (by decide +kernel) (by decide +kernel) (by decide +kernel)
  obtain ⟨rfl, hCovered⟩ := hUnder rfl (by decide)
  exact ⟨hSource, hSpan, hPrinted, hCovered⟩

end Sample

end Precedence
