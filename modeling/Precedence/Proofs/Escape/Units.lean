import Precedence.Escape
import Precedence.Proofs.Numeral.Digits

/-!
The content of a string as a sequence of units. A unit is a character that stands for itself, or an
escape character with what makes another character of it. Units can be written one behind the other
without regard to each other: none reads on into the next one, and what a sequence of them denotes
is what they denote one by one.
-/
namespace Precedence

/-- A unit of a content. -/
inductive EscapeUnit where
  | plain (c : Char)
  | doubled
  | simple (letter : Char)
  | fourDigits (digits : List Char)
  | braced (digits : List Char)

namespace Escape

/-- The letters and signs that stand for one character after any escape character, with that
character. -/
def letters : List (Char × Char) :=
  [('n', '\n'), ('t', '\t'), ('r', '\r'), ('0', '\x00'), ('\\', '\\'), ('"', '"'), ('\'', '\'')]

/-- Hexadecimal digits that write a Unicode scalar value, which is a code point that is no
surrogate. -/
structure IsScalar (digits : List Char) : Prop extends Radix.hexadecimal.AreDigits digits where
  valid : (Numeral.magnitude 16 digits).isValidChar

instance (digits : List Char) : Decidable (IsScalar digits) :=
  decidable_of_iff (digits.isEmpty = false ∧ digits.all Radix.hexadecimal.isDigit = true ∧
      (Numeral.magnitude 16 digits).isValidChar) <| by
    rw [List.isEmpty_eq_false_iff, List.all_eq_true]
    exact ⟨fun ⟨hSome, hAll, hValid⟩ => ⟨⟨hSome, hAll⟩, hValid⟩,
      fun ⟨⟨hSome, hAll⟩, hValid⟩ => ⟨hSome, hAll, hValid⟩⟩

end Escape

namespace EscapeUnit

/-- A unit in writing. -/
def text (escape : Char) : EscapeUnit → List Char
  | plain c => [c]
  | doubled => [escape, escape]
  | simple letter => [escape, letter]
  | fourDigits digits => escape :: 'u' :: digits
  | braced digits => escape :: 'u' :: '\x7b' :: (digits ++ ['\x7d'])

/-- The character that a unit denotes. -/
def value (escape : Char) : EscapeUnit → Char
  | plain c => c
  | doubled => escape
  | simple letter => (Escape.letters.lookup letter).getD letter
  | fourDigits digits | braced digits => Char.ofNat (Numeral.magnitude 16 digits)

/-- The units under an escape character. -/
def IsOf (escape : Char) : EscapeUnit → Prop
  | plain c => c ≠ escape
  | doubled => True
  | simple letter => letter ∈ Escape.letters.map Prod.fst
  | fourDigits digits => digits.length = 4 ∧ Escape.IsScalar digits
  | braced digits => Escape.IsScalar digits

end EscapeUnit

namespace Escape

variable {escape : Char} {digits more : List Char}

/-! ### What an escape character makes of what follows it -/

theorem simple?_of_mem_letters {letter : Char} (h : letter ∈ letters.map Prod.fst) :
    simple? letter = some ((letters.lookup letter).getD letter) := by
  obtain ⟨⟨_, value⟩, hMem, rfl⟩ := List.mem_map.mp h
  simp only [letters, List.mem_cons, List.not_mem_nil, or_false, Prod.mk.injEq] at hMem
  rcases hMem with ⟨rfl, rfl⟩ | ⟨rfl, rfl⟩ | ⟨rfl, rfl⟩ | ⟨rfl, rfl⟩ | ⟨rfl, rfl⟩ | ⟨rfl, rfl⟩ |
    ⟨rfl, rfl⟩ <;> rfl

theorem codePoint?_of_isScalar (h : IsScalar digits) :
    codePoint? digits = some (Char.ofNat (Numeral.magnitude 16 digits)) := by
  rw [codePoint?, Radix.read?_of_digits h.some h.all]
  exact if_pos h.valid

/-- A brace does not stand among digits. -/
theorem ne_brace_of_isDigit {c : Char} (h : Radix.hexadecimal.isDigit c = true) :
    c ≠ '\x7b' ∧ c ≠ '\x7d' := by
  constructor
  · rintro rfl
    cases h
  · rintro rfl
    cases h

/-- Four digits are read as they are, whatever follows them. -/
theorem readCodePoint_fourDigits (hLength : digits.length = 4) (h : IsScalar digits)
    (more : List Char) :
    readCodePoint (digits ++ more) =
      ⟨digits.length, some (Char.ofNat (Numeral.magnitude 16 digits))⟩ := by
  have hTake : (digits ++ more).take 4 = digits := by rw [← hLength, List.take_left]
  have hAll : digits.takeWhile Radix.hexadecimal.isDigit = digits :=
    List.takeWhile_eq_self_iff.mpr h.all
  unfold readCodePoint
  split
  · next rest hBrace =>
    obtain ⟨d, others, rfl⟩ := List.exists_cons_of_ne_nil h.some
    obtain ⟨rfl, -⟩ := List.cons.inj hBrace
    exact absurd rfl (ne_brace_of_isDigit (h.all _ List.mem_cons_self)).1
  · simp only [hTake, hAll, if_pos hLength, codePoint?_of_isScalar h]

/-- What is in braces is read up to the closing one. -/
theorem readCodePoint_braced (hOpen : ∀ c ∈ digits, c ≠ '\x7d') (more : List Char) :
    readCodePoint ('\x7b' :: (digits ++ '\x7d' :: more)) =
      ⟨digits.length + 2, codePoint? digits⟩ := by
  have hTake : (digits ++ '\x7d' :: more).takeWhile (· != '\x7d') = digits := by
    rw [List.takeWhile_append_of_pos (by simpa using hOpen)]
    simp
  have hClosed : digits.length < (digits ++ '\x7d' :: more).length := by simp
  simp only [readCodePoint, hTake, if_pos hClosed, Reading.mk.injEq, and_true]
  omega

theorem read_codePoint (hEscape : escape ≠ 'u') (rest : List Char) :
    read escape ('u' :: rest) =
      ⟨1 + (readCodePoint rest).width, (readCodePoint rest).value⟩ := by
  simp only [read, if_neg hEscape.symm, if_true]
  rfl

/-! ### The units of a content -/

theorem resolveFrom_plain {c : Char} (h : c ≠ escape) (offset : Nat) (more : List Char) :
    resolveFrom escape offset (c :: more) =
      { resolveFrom escape (offset + c.utf8Size) more with
        value := c :: (resolveFrom escape (offset + c.utf8Size) more).value } := by
  rw [resolveFrom, if_neg h]

/-- A sequence that stands for a character is passed over as a whole. -/
theorem resolveFrom_of_read (taken : List Char) {value : Char}
    (h : read escape (taken ++ more) = ⟨taken.length, some value⟩) (offset : Nat) :
    resolveFrom escape offset (escape :: (taken ++ more)) =
      { resolveFrom escape (offset + Text.byteLength (escape :: taken)) more with
        value := value ::
          (resolveFrom escape (offset + Text.byteLength (escape :: taken)) more).value } := by
  rw [resolveFrom, if_pos rfl]
  simp only [h, List.take_left, List.drop_left]

/-- Whether an escape character means nothing else behind an escape character than itself. -/
def IsDistinct (escape : Char) : Prop := escape ∉ ['n', 't', 'r', '0', '"', '\'', 'u']

instance (escape : Char) : Decidable (IsDistinct escape) :=
  inferInstanceAs (Decidable (escape ∉ _))

/-- A unit is read as what it denotes, whatever follows it. -/
theorem resolveFrom_unit (hEscape : IsDistinct escape) {unit : EscapeUnit}
    (hUnit : unit.IsOf escape) (offset : Nat) (more : List Char) :
    resolveFrom escape offset (unit.text escape ++ more) =
      { resolveFrom escape (offset + Text.byteLength (unit.text escape)) more with
        value := unit.value escape ::
          (resolveFrom escape (offset + Text.byteLength (unit.text escape)) more).value } := by
  have hNotU : escape ≠ 'u' := by
    rintro rfl
    exact hEscape (by decide)
  cases unit with
  | plain c => exact resolveFrom_plain hUnit offset more
  | doubled =>
      apply resolveFrom_of_read [escape]
      exact if_pos rfl
  | simple letter =>
      apply resolveFrom_of_read [letter]
      have hMeaning := simple?_of_mem_letters hUnit
      by_cases hSame : letter = escape
      · -- The backslash is the one escape character that is such a letter too.
        obtain rfl : letter = '\\' := by
          subst hSame
          simp only [EscapeUnit.IsOf, letters, IsDistinct] at hUnit hEscape
          simp_all
        subst hSame
        rfl
      · simp only [List.singleton_append, read, if_neg hSame, hMeaning, List.length_singleton,
          EscapeUnit.value]
  | fourDigits digits =>
      obtain ⟨hLength, hScalar⟩ := hUnit
      apply resolveFrom_of_read ('u' :: digits)
      rw [List.cons_append, read_codePoint hNotU, readCodePoint_fourDigits hLength hScalar,
        List.length_cons, Nat.add_comm]
      rfl
  | braced digits =>
      have hOpen : ∀ c ∈ digits, c ≠ '\x7d' := fun c hMem =>
        (ne_brace_of_isDigit (hUnit.all c hMem)).2
      have hRead := readCodePoint_braced hOpen more
      rw [codePoint?_of_isScalar hUnit] at hRead
      apply resolveFrom_of_read ('u' :: '\x7b' :: (digits ++ ['\x7d']))
      rw [List.cons_append, List.cons_append, List.append_assoc, read_codePoint hNotU]
      simp only [List.singleton_append, hRead, List.length_cons, List.length_append,
        List.length_nil, Reading.mk.injEq, EscapeUnit.value, and_true]
      omega

theorem resolveFrom_units (hEscape : IsDistinct escape) {units : List EscapeUnit}
    (hUnits : ∀ unit ∈ units, unit.IsOf escape) (offset : Nat) :
    resolveFrom escape offset (units.flatMap (·.text escape)) =
      ⟨units.map (·.value escape), []⟩ := by
  induction units generalizing offset with
  | nil => rw [List.flatMap_nil, resolveFrom, List.map_nil]
  | cons unit units ih =>
      obtain ⟨hUnit, hRest⟩ := List.forall_mem_cons.mp hUnits
      rw [List.flatMap_cons, resolveFrom_unit hEscape hUnit, ih hRest, List.map_cons]

/-- A text with each escape character in it doubled. -/
def quoted (escape : Char) (text : List Char) : List Char :=
  text.flatMap fun c => if c = escape then [escape, escape] else [c]

/-- The unit that denotes a character by doubling it or as it is. -/
def unitOf (escape : Char) (c : Char) : EscapeUnit := if c = escape then .doubled else .plain c

theorem unitOf_spec (escape c : Char) :
    (unitOf escape c).IsOf escape ∧ (unitOf escape c).value escape = c ∧
      (unitOf escape c).text escape = if c = escape then [escape, escape] else [c] := by
  unfold unitOf
  split
  · next hSame => exact ⟨trivial, hSame.symm, rfl⟩
  · next hPlain => exact ⟨hPlain, rfl, rfl⟩

/-- Every sequence of units denotes what the units denote, without a bad escape. So a text can be
quoted by doubling the escape characters in it. -/
theorem unescape_units (hEscape : IsDistinct escape) :
    (∀ units : List EscapeUnit, (∀ unit ∈ units, unit.IsOf escape) →
      unescape escape (units.flatMap (·.text escape)) = ⟨units.map (·.value escape), []⟩) ∧
    ∀ text : List Char, unescape escape (quoted escape text) = ⟨text, []⟩ := by
  have hUnits (units : List EscapeUnit) (hOf : ∀ unit ∈ units, unit.IsOf escape) :
      unescape escape (units.flatMap (·.text escape)) = ⟨units.map (·.value escape), []⟩ :=
    resolveFrom_units hEscape hOf 0
  refine ⟨hUnits, fun text => ?_⟩
  have hText := hUnits (text.map (unitOf escape)) (by
    intro unit hMem
    obtain ⟨c, -, rfl⟩ := List.mem_map.mp hMem
    exact (unitOf_spec escape c).1)
  simp only [List.flatMap_map, List.map_map, Function.comp_def, unitOf_spec, List.map_id'] at hText
  exact hText

end Escape

namespace Sample

/-- Units that are written close together: a code point of four digits in front of another digit,
one in braces, a doubled backslash in front of a letter, and a letter that has a meaning. -/
def adjacentUnits : List EscapeUnit :=
  [.fourDigits ['0', '0', 'e', '9'], .plain 'a', .braced ['1', 'F', '6', '0', '0'], .doubled,
    .plain 'n', .simple 'n']

theorem unescape_units_adjacentUnits :
    unescape '\\' "\\u00e9a\\u\x7b1F600\x7d\\\\n\\n".toList = ⟨"éa😀\\n\n".toList, []⟩ ∧
      unescape '\\' "C:\\\\temp".toList = ⟨"C:\\temp".toList, []⟩ := by
  obtain ⟨hUnits, hQuoted⟩ := Escape.unescape_units (show Escape.IsDistinct '\\' by decide)
  constructor
  · apply (hUnits adjacentUnits ?_).trans
    · decide +kernel
    · simp only [adjacentUnits, List.forall_mem_cons, List.not_mem_nil, false_implies,
        implies_true, and_true, EscapeUnit.IsOf]
      exact ⟨⟨rfl, by decide⟩, by decide, by decide, by decide, by decide⟩
  · exact hQuoted "C:\\temp".toList

end Sample

end Precedence
