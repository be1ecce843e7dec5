import Precedence.Escape
import Precedence.Proofs.Lexer.Tokens

/-!
The escapes of a string that was closed. The lexer goes over them two characters at a time, while a
code point takes as many characters along as it has. Both stop at the same places again: no digit
and no closing brace is an escape character, so an escape never ends in the middle of another one,
and none is left without the character that it needs.
-/
namespace Precedence

namespace Escape

/-- A content in which each escape character takes the next character along, whatever that is. -/
inductive IsPaired (escape : Char) : List Char → Prop
  | nil : IsPaired escape []
  | plain {c : Char} {cs : List Char} (hPlain : c ≠ escape) (hRest : IsPaired escape cs) :
      IsPaired escape (c :: cs)
  | pair (c : Char) {cs : List Char} (hRest : IsPaired escape cs) :
      IsPaired escape (escape :: c :: cs)

namespace IsPaired

variable {escape stop : Char} {cs : List Char}

/-- What stands behind a plain character is paired as well. -/
theorem tail {c : Char} (hPlain : c ≠ escape) (h : IsPaired escape (c :: cs)) :
    IsPaired escape cs := by
  cases h with
  | plain _ hRest => exact hRest
  | pair => exact absurd rfl hPlain

/-- An escape character has a character behind it, and what stands behind both is paired. -/
theorem exists_eq_cons (h : IsPaired escape (escape :: cs)) :
    ∃ c rest, cs = c :: rest ∧ IsPaired escape rest := by
  cases h with
  | plain hPlain => exact absurd rfl hPlain
  | pair c hRest => exact ⟨c, _, rfl, hRest⟩

/-- A run of plain characters can be left off. -/
theorem drop {n : Nat} (h : IsPaired escape cs) (hPlain : ∀ c ∈ cs.take n, c ≠ escape) :
    IsPaired escape (cs.drop n) := by
  induction n generalizing cs with
  | zero => exact h
  | succ n ih =>
      cases cs with
      | nil => exact h
      | cons c cs =>
          rw [List.take_succ_cons, List.forall_mem_cons] at hPlain
          exact ih (h.tail hPlain.1) hPlain.2

/-- Everything up to a character that is no escape character can be left off: that character stands
alone or is the second of a pair. -/
theorem drop_through (hStop : stop ≠ escape) (h : IsPaired escape cs) :
    IsPaired escape (cs.drop ((cs.takeWhile (· != stop)).length + 1)) := by
  induction h with
  | nil => exact .nil
  | @plain c cs hPlain hRest ih =>
      by_cases hHere : c = stop
      · simpa [hHere] using hRest
      · simpa [List.takeWhile_cons, hHere] using ih
  | @pair c cs hRest ih =>
      by_cases hHere : c = stop
      · simpa [List.takeWhile_cons, hStop.symm, hHere] using hRest
      · simpa [List.takeWhile_cons, hStop.symm, hHere] using ih

end IsPaired

variable {escape : Char} {cs : List Char}

/-- The characters between the braces are counted up to the closing one, or to the end. -/
theorem drop_braced (digits : List Char) :
    digits.drop ((digits.takeWhile (· != '\x7d')).length +
        if (digits.takeWhile (· != '\x7d')).length < digits.length then 1 else 0) =
      digits.drop ((digits.takeWhile (· != '\x7d')).length + 1) := by
  split
  · rfl
  · next hOpen =>
    rw [List.drop_eq_nil_of_le (by omega), List.drop_eq_nil_of_le (by omega)]

/-- Behind a code point, a content goes on paired. -/
theorem IsPaired.drop_codePoint (hDigit : Radix.hexadecimal.isDigit escape = false)
    (hBrace : escape ≠ '\x7d') (h : IsPaired escape cs) :
    IsPaired escape (cs.drop (readCodePoint cs).width) := by
  unfold readCodePoint
  split
  · next digits =>
    have hThrough := h.drop_through hBrace.symm
    rw [List.takeWhile_cons_of_pos (by decide), List.length_cons, List.drop_succ_cons] at hThrough
    simp only
    rw [Nat.add_assoc, Nat.add_comm 1, List.drop_succ_cons, drop_braced]
    exact hThrough
  · have hPrefix : (cs.take 4).takeWhile Radix.hexadecimal.isDigit <+: cs :=
      (List.takeWhile_prefix _).trans (List.take_prefix _ _)
    apply h.drop
    rw [← List.prefix_iff_eq_take.mp hPrefix]
    rintro c hMem rfl
    have hAll := List.all_takeWhile (l := cs.take 4) (p := Radix.hexadecimal.isDigit)
    exact Bool.false_ne_true (hDigit.symm.trans (List.all_eq_true.mp hAll c hMem))

/-- Behind the sequence that an escape character opens, a content goes on paired. The sequence is
not empty. -/
theorem IsPaired.drop_read (hDigit : Radix.hexadecimal.isDigit escape = false)
    (hBrace : escape ≠ '\x7d') (h : IsPaired escape (escape :: cs)) :
    (∃ c rest, cs.take (read escape cs).width = c :: rest) ∧
      IsPaired escape (cs.drop (read escape cs).width) := by
  obtain ⟨c, rest, rfl, hRest⟩ := h.exists_eq_cons
  rw [read]
  split
  · exact ⟨⟨c, [], rfl⟩, hRest⟩
  · split
    · exact ⟨⟨c, [], rfl⟩, hRest⟩
    · split
      · simp only
        rw [Nat.add_comm, List.take_succ_cons, List.drop_succ_cons]
        exact ⟨⟨c, _, rfl⟩, hRest.drop_codePoint hDigit hBrace⟩
      · exact ⟨⟨c, [], rfl⟩, hRest⟩

/-- No bad escape of a paired content is the escape character alone. -/
theorem IsPaired.sequence_ne {offset : Nat} {error : InvalidEscape}
    (hDigit : Radix.hexadecimal.isDigit escape = false) (hBrace : escape ≠ '\x7d')
    (h : IsPaired escape cs) (hError : error ∈ (resolveFrom escape offset cs).errors) :
    error.sequence ≠ [escape] := by
  fun_induction resolveFrom escape offset cs with
  | case1 => cases hError
  | case2 offset rest reading value hValue sequence later ih =>
      exact ih (h.drop_read hDigit hBrace).2 hError
  | case3 offset rest reading hValue sequence later ih =>
      obtain ⟨⟨c, taken, hTaken⟩, hLater⟩ := h.drop_read hDigit hBrace
      rcases List.mem_cons.mp hError with rfl | hError
      · simp [sequence, reading, hTaken]
      · exact ih hLater hError
  | case4 offset c rest hPlain later ih => exact ih (h.tail hPlain) hError

end Escape

/-- What stands in front of a closing delimiter is paired. -/
theorem Delimited.exists_isPaired {closing : List Char} {escape : Char} {read : Nat}
    {text : List Char} (hClosed : (scan closing (some escape) read text).closed = true) :
    ∃ content behind, text = content ++ behind ∧
      (scan closing (some escape) read text).length = read + content.length ∧
      Escape.IsPaired escape content := by
  fun_induction scan closing (some escape) read text with
  | case1 => cases hClosed
  | case2 => cases hClosed
  | case3 read c hEscape d cs ih =>
      obtain rfl : escape = c := Option.some.inj hEscape
      obtain ⟨content, behind, rfl, hLength, hPaired⟩ := ih hClosed
      refine ⟨escape :: d :: content, behind, rfl, ?_, hPaired.pair d⟩
      rw [hLength, List.length_cons, List.length_cons]
      omega
  | case4 read c cs hPlain hClosing => exact ⟨[], c :: cs, rfl, rfl, .nil⟩
  | case5 read c cs hPlain hOpen ih =>
      obtain ⟨content, behind, rfl, hLength, hPaired⟩ := ih hClosed
      refine ⟨c :: content, behind, rfl, ?_, .plain (fun hSame => hPlain (hSame ▸ rfl)) hPaired⟩
      rw [hLength, List.length_cons]
      omega

namespace LiteralRule

variable {opening closing : List Char} {escape : Char} {source : List Char} {c : Cursor}
  {reading : LiteralReading}

/-- The payload of a string is its content. -/
theorem payload_readString (hIn : c.IsIn source) (escape : Option Char) :
    (readString opening closing escape c).token.payload source =
      (c.rest.drop opening.length).take
        (Delimited.scan closing escape 0 (c.rest.drop opening.length)).length := by
  have hPayload := (hIn.advanceBy opening.length).payload_tokenTo
    (Delimited.scan closing escape 0 (c.advanceBy opening.length).rest).length .string
  rw [Cursor.rest_advanceBy] at hPayload
  rw [← hPayload]
  simp only [readString, Token.payload, Cursor.tokenTo, Token.covering, Cursor.rangeTo,
    Cursor.rest_advanceBy]

/-- The escapes of a closed string end where the lexer went over them: wherever a rule for strings
reads one that it does not report as unterminated, no bad escape of its content is the escape
character alone, provided that this is neither a hexadecimal digit nor the closing brace. -/
theorem sequence_ne_of_closed (hDigit : Radix.hexadecimal.isDigit escape = false)
    (hBrace : escape ≠ '\x7d') (hIn : c.IsIn source)
    (hRead : (string opening closing (some escape)).read? c = some reading)
    (hClosed : ∀ m ∈ reading.messages, m.code ≠ .unterminatedString) :
    ∀ error ∈ (unescape escape (reading.token.payload source)).errors,
      error.sequence ≠ [escape] := by
  intro error hError
  rw [read?] at hRead
  split at hRead
  · cases hRead
    rw [payload_readString hIn] at hError
    have hFound :
        (Delimited.scan closing (some escape) 0 (c.rest.drop opening.length)).closed = true := by
      refine Decidable.byContradiction fun hOpen => ?_
      simp only [readString, Cursor.rest_advanceBy, if_neg hOpen, List.forall_mem_singleton]
        at hClosed
      exact hClosed rfl
    obtain ⟨content, behind, hText, hLength, hPaired⟩ := Delimited.exists_isPaired hFound
    rw [hLength, Nat.zero_add, hText, List.take_left] at hError
    exact hPaired.sequence_ne hDigit hBrace hError
  · cases hRead

end LiteralRule

namespace Sample

/-- A string in double quotes with a bad escape of each kind: a code point with too few digits, one
that is not closed before the string is, and a letter that stands for nothing. -/
def brokenEscapes : List Char := "\"\\u12\\q\\u\x7b4\\\"\";".toList

/-- The sequences of its three bad escapes are all longer than the backslash. -/
theorem sequence_ne_of_closed_brokenEscapes :
    ∃ reading, (LiteralRule.string ['"'] ['"'] (some '\\')).read? (.ofSource brokenEscapes) =
        some reading ∧
      (unescape '\\' (reading.token.payload brokenEscapes)).errors.map (·.sequence.length) =
        [4, 2, 6] ∧
      ∀ error ∈ (unescape '\\' (reading.token.payload brokenEscapes)).errors,
        error.sequence ≠ ['\\'] := by
  have hRead : (LiteralRule.string ['"'] ['"'] (some '\\')).read? (.ofSource brokenEscapes) =
      some (LiteralRule.readString ['"'] ['"'] (some '\\') (.ofSource brokenEscapes)) := rfl
  have hPayload : (LiteralRule.readString ['"'] ['"'] (some '\\')
      (.ofSource brokenEscapes)).token.payload brokenEscapes =
        ['\\', 'u', '1', '2', '\\', 'q', '\\', 'u', '\x7b', '4', '\\', '"'] := by decide +kernel
  refine ⟨_, hRead, ?_, ?_⟩
  · rw [hPayload]
    simp [unescape, Escape.resolveFrom, Escape.read, Escape.simple?, Escape.readCodePoint,
      Escape.codePoint?, Radix.isDigit, Radix.digitValue?, Radix.read?, Radix.withoutPlus,
      Radix.base, List.takeWhile]
  · exact LiteralRule.sequence_ne_of_closed (by decide) (by decide)
      (Cursor.isIn_ofSource brokenEscapes) hRead (by decide +kernel)

end Sample

end Precedence
