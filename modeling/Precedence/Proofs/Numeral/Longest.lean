import Precedence.Proofs.Numeral.Value

/-!
The longest number literal. Where a number starts, a format may have several literals in front of
the rest of the text: `1`, `1.5` and `1.5e3` all stand at the front of `1.5e3`. What is read is the
longest of them, since no part of a literal that is taken as far as it goes keeps a later part from
being read. A base mark without digits is reported, and nothing else is.
-/
namespace Precedence

/-- A literal of a format that stands at the front of a text and that no other one exceeds. -/
structure NumberFormat.IsLongest (f : NumberFormat) (cs text : List Char) : Prop where
  leads : text <+: cs
  literal : ∃ literal : NumberLiteral, literal.IsOf f ∧ text = literal.text f.separators
  longest : ∀ literal : NumberLiteral, literal.IsOf f → literal.text f.separators <+: cs →
    (literal.text f.separators).length ≤ text.length

/-- A sign is told from the digit behind it. -/
theorem Numeral.eq_of_minusText_append {negative other : Bool} {xs ys : List Char}
    (hx : xs.head?.any Char.isDigit = true) (hy : ys.head?.any Char.isDigit = true)
    (h : minusText negative ++ xs = minusText other ++ ys) : xs = ys := by
  cases xs with
  | nil => cases hx
  | cons x xs =>
      cases ys with
      | nil => cases hy
      | cons y ys =>
          have hSplit := congrArg splitSign h
          rw [splitSign_minusText (by simpa using hx), splitSign_minusText (by simpa using hy)]
            at hSplit
          exact congrArg Prod.snd hSplit

namespace NumberFormat

variable {f : NumberFormat} {isDigit : Char → Bool} {run more cs : List Char}

/-! ### Runs of digits -/

theorem digitRun_append (h : f.separators.IsRun isDigit run) (more : List Char) :
    f.digitRun isDigit (run ++ more) =
      run ++ more.takeWhile fun c => isDigit c || f.separators.digit == some c := by
  have hHead : (run ++ more).head?.any isDigit = true := by
    cases run with
    | nil => cases h.head
    | cons d later => exact h.head
  rw [digitRun, if_pos hHead]
  exact List.takeWhile_append_of_pos fun c hMem => by simpa using h.members c hMem

theorem length_le_digitRun (h : f.separators.IsRun isDigit run) (more : List Char) :
    run.length ≤ (f.digitRun isDigit (run ++ more)).length := by
  rw [digitRun_append h, List.length_append]
  exact Nat.le_add_right _ _

theorem isEmpty_digitRun (h : f.separators.IsRun isDigit run) (more : List Char) :
    (f.digitRun isDigit (run ++ more)).isEmpty = false := by
  rw [digitRun_append h]
  cases run with
  | nil => cases h.head
  | cons d later => rfl

/-- A run ends where neither a digit nor a separator follows. -/
theorem digitRun_append_cons (h : f.separators.IsRun isDigit run) {c : Char}
    (hDigit : isDigit c = false) (hSeparator : f.separators.digit ≠ some c) (more : List Char) :
    f.digitRun isDigit (run ++ c :: more) = run := by
  rw [digitRun_append h, List.takeWhile_cons_of_neg (by simpa [hDigit] using hSeparator),
    List.append_nil]

/-! ### Decimals -/

theorem isDigit_mark {mark : Char} (h : mark = 'e' ∨ mark = 'E') :
    mark.isDigit = false ∧ mark.isAlphanum = true := by
  rcases h with rfl | rfl <;> exact ⟨rfl, rfl⟩

/-- A sign is told from the digits behind it. -/
theorem exponentSign_append (sign : Option Bool) {digits : List Char}
    (h : f.separators.IsRun Char.isDigit digits) (more : List Char) :
    exponentSign (NumberExponent.signText sign ++ (digits ++ more)) =
      (NumberExponent.signText sign).length := by
  rcases sign with - | minus
  · cases digits with
    | nil => cases h.head
    | cons d later =>
        have hDigit : d.isDigit = true := by simpa using h.head
        apply if_neg
        rintro (hSign | hSign)
        · cases hSign
          cases hDigit
        · cases hSign
          cases hDigit
  · cases minus <;> rfl

/-- An exponent is read at least as far as it goes. -/
theorem length_le_exponentLength {exponent : Option NumberExponent}
    (h : ∀ e ∈ exponent, e.IsOf f) (more : List Char) :
    (NumberBody.exponentText exponent).length ≤
      f.exponentLength (NumberBody.exponentText exponent ++ more) := by
  cases exponent with
  | none => exact Nat.zero_le _
  | some e =>
      obtain ⟨hAllowed, hMark, hDigits⟩ := h e rfl
      have hLength := length_le_digitRun hDigits more
      have hSome := isEmpty_digitRun hDigits more
      have hText : NumberBody.exponentText (some e) ++ more =
          e.mark :: (NumberExponent.signText e.sign ++ (e.digits ++ more)) := by
        simp [NumberBody.exponentText, NumberExponent.text]
      rw [hText, exponentLength_cons, exponentSign_append e.sign hDigits, List.drop_left,
        if_pos (by simpa [hAllowed, hSome] using hMark)]
      simp only [NumberBody.exponentText, Option.elim_some, NumberExponent.text,
        List.length_cons, List.length_append]
      omega

/-- The length of a decimal, by what its digits and its fraction are. -/
theorem decimalLength_append (fraction more : List Char)
    (hRun : f.digitRun Char.isDigit (run ++ (fraction ++ more)) = run)
    (hFraction : f.fractionLength (fraction ++ more) = fraction.length) :
    f.decimalLength (run ++ (fraction ++ more)) =
      run.length + fraction.length + f.exponentLength more := by
  have hBehind : (run ++ (fraction ++ more)).drop (run.length + fraction.length) = more := by
    rw [← List.append_assoc, ← List.length_append, List.drop_left]
  simp only [decimalLength, hRun, List.drop_left, hFraction, hBehind]

theorem fractionLength_cons_of_ne {c : Char} (h : c ≠ f.separators.fraction) (more : List Char) :
    f.fractionLength (c :: more) = 0 := by
  rw [fractionLength, if_neg (by simp [h])]

/-- A fraction is as long as its separator and the digits behind it. -/
theorem fractionLength_append (hAllowed : f.fraction = true) {places : List Char}
    (hPlaces : f.separators.IsRun Char.isDigit places) (more : List Char) :
    f.fractionLength (f.separators.fraction :: (places ++ more)) =
      1 + (f.digitRun Char.isDigit (places ++ more)).length := by
  rw [fractionLength, if_pos]
  simp [hAllowed, isEmpty_digitRun hPlaces]

theorem isDigit_fraction (hMarks : f.separators.areMarks = true) :
    f.separators.fraction.isDigit = false := by
  refine Bool.eq_false_iff.mpr fun hDigit => ?_
  exact Separators.ne_fraction hMarks (Char.isAlphanum_of_isDigit hDigit) rfl

/-! ### Signs and base marks -/

theorem radix?_of_mem_marks {radix : Radix} {mark : Char} (hAllowed : f.allows radix = true)
    (hMark : mark ∈ radix.marks) (rest : List Char) :
    f.radix? ('0' :: mark :: rest) = some radix := by
  cases radix with
  | hexadecimal =>
      rw [allows] at hAllowed
      rcases List.mem_pair.mp hMark with rfl | rfl <;> simp [radix?, hAllowed]
  | binary =>
      rw [allows] at hAllowed
      rcases List.mem_pair.mp hMark with rfl | rfl <;> simp [radix?, hAllowed]

/-- The length of what is read behind the sign. -/
def bodyWidth (f : NumberFormat) (cs : List Char) : Nat :=
  match f.radix? cs with
  | some radix => 2 + (f.digitRun radix.isDigit (cs.drop 2)).length
  | none => f.decimalLength cs

theorem width_extent (f : NumberFormat) (cs : List Char) :
    (f.extent cs).width = signLength cs + f.bodyWidth (cs.drop (signLength cs)) := by
  unfold bodyWidth
  split
  · next radix hRadix => rw [extent_of_radix? hRadix, Nat.add_assoc]
  · next hNone => rw [extent_of_radix?_eq_none hNone]

/-- What stands behind the sign of a literal starts with a digit. -/
theorem head_text {body : NumberBody} (h : body.IsOf f) (more : List Char) :
    (body.text f.separators ++ more).head?.any Char.isDigit = true := by
  cases h with
  | marked hAllowed hMark hDigits => rfl
  | @decimal whole fraction exponent hWhole hFraction hExponent =>
      cases whole with
      | nil => cases hWhole.head
      | cons d later => exact hWhole.head

theorem signLength_append (negative : Bool) (h : cs.head?.any Char.isDigit = true) :
    signLength (Numeral.minusText negative ++ cs) = (Numeral.minusText negative).length := by
  cases negative with
  | true => rfl
  | false =>
      cases cs with
      | nil => cases h
      | cons d later =>
          apply if_neg
          intro hSign
          cases hSign
          cases h

/-! ### What is read goes as far as a literal -/

variable (hMarks : f.separators.areMarks = true)

include hMarks

/-- A decimal without a fraction is read at least as far as it goes. -/
theorem length_le_decimalLength_of_whole (hWhole : f.separators.IsRun Char.isDigit run)
    {exponent : Option NumberExponent} (hExponent : ∀ e ∈ exponent, e.IsOf f) (more : List Char) :
    (run ++ NumberBody.exponentText exponent).length ≤
      f.decimalLength (run ++ (NumberBody.exponentText exponent ++ more)) := by
  have hLength := length_le_exponentLength hExponent more
  cases exponent with
  | none =>
      have hRun := length_le_digitRun hWhole more
      simp only [NumberBody.exponentText, Option.elim_none, List.append_nil, List.nil_append,
        decimalLength]
      omega
  | some e =>
      obtain ⟨hDigit, hAlphanum⟩ := isDigit_mark (hExponent e rfl).mark
      have hText : NumberBody.exponentText (some e) ++ more =
          e.mark :: (NumberExponent.signText e.sign ++ e.digits ++ more) := rfl
      have hRun := digitRun_append_cons hWhole hDigit (Separators.ne_digit hMarks hAlphanum)
        (NumberExponent.signText e.sign ++ e.digits ++ more)
      have hFraction := fractionLength_cons_of_ne (Separators.ne_fraction hMarks hAlphanum)
        (NumberExponent.signText e.sign ++ e.digits ++ more)
      rw [← hText] at hRun hFraction
      have hWidth :=
        decimalLength_append [] (NumberBody.exponentText (some e) ++ more) hRun hFraction
      rw [List.nil_append] at hWidth
      rw [hWidth, List.length_append]
      exact Nat.add_le_add_left hLength _

/-- A decimal with a fraction is read at least as far as it goes. -/
theorem length_le_decimalLength_of_fraction (hAllowed : f.fraction = true)
    (hWhole : f.separators.IsRun Char.isDigit run) {places : List Char}
    (hPlaces : f.separators.IsRun Char.isDigit places)
    {exponent : Option NumberExponent} (hExponent : ∀ e ∈ exponent, e.IsOf f) (more : List Char) :
    (run ++ (f.separators.fraction :: places ++ NumberBody.exponentText exponent)).length ≤
      f.decimalLength (run ++ (f.separators.fraction :: places ++
        (NumberBody.exponentText exponent ++ more))) := by
  by_cases hSame : f.separators.digit = some f.separators.fraction
  · -- The separator of the fraction goes on with the run, so that the fraction is part of it.
    have hRun : f.separators.IsRun Char.isDigit (run ++ f.separators.fraction :: places) := by
      refine ⟨?_, fun c hMem => ?_⟩
      · cases run with
        | nil => cases hWhole.head
        | cons d later => exact hWhole.head
      · rcases List.mem_append.mp hMem with hMem | hMem
        · exact hWhole.members c hMem
        · rcases List.mem_cons.mp hMem with rfl | hMem
          · exact .inr hSame
          · exact hPlaces.members c hMem
    have hLength := length_le_decimalLength_of_whole hMarks hRun hExponent more
    simpa using hLength
  · have hRun := digitRun_append_cons hWhole (isDigit_fraction hMarks) hSame
      (places ++ (NumberBody.exponentText exponent ++ more))
    have hFraction := fractionLength_append hAllowed hPlaces
      (NumberBody.exponentText exponent ++ more)
    cases exponent with
    | none =>
        have hPlacesRead := length_le_digitRun hPlaces more
        simp only [NumberBody.exponentText, Option.elim_none, List.append_nil, List.nil_append,
          List.cons_append, decimalLength] at hRun hFraction ⊢
        rw [hRun, List.drop_left, hFraction, List.length_append, List.length_cons]
        omega
    | some e =>
        have hLength := length_le_exponentLength hExponent more
        obtain ⟨hDigit, hAlphanum⟩ := isDigit_mark (hExponent e rfl).mark
        have hPlacesRun := digitRun_append_cons hPlaces hDigit
          (Separators.ne_digit hMarks hAlphanum)
          (NumberExponent.signText e.sign ++ e.digits ++ more)
        have hText : NumberBody.exponentText (some e) ++ more =
            e.mark :: (NumberExponent.signText e.sign ++ e.digits ++ more) := rfl
        rw [← hText] at hPlacesRun
        rw [hPlacesRun, Nat.add_comm] at hFraction
        rw [decimalLength_append (f.separators.fraction :: places) _ hRun hFraction,
          ← List.append_assoc, List.length_append, List.length_append]
        exact Nat.add_le_add_left hLength _

/-- A decimal is read at least as far as it goes. -/
theorem length_le_decimalLength {whole : List Char} {fraction : Option (List Char)}
    {exponent : Option NumberExponent}
    (h : NumberBody.IsOf f (.decimal whole fraction exponent)) (more : List Char) :
    ((NumberBody.decimal whole fraction exponent).text f.separators).length ≤
      f.decimalLength ((NumberBody.decimal whole fraction exponent).text f.separators ++ more) := by
  cases h with
  | decimal hWhole hFraction hExponent =>
      cases fraction with
      | none =>
          have hLength := length_le_decimalLength_of_whole hMarks hWhole hExponent more
          simpa [NumberBody.text, NumberBody.fractionText] using hLength
      | some places =>
          obtain ⟨hAllowed, hPlaces⟩ := hFraction places rfl
          have hLength :=
            length_le_decimalLength_of_fraction hMarks hAllowed hWhole hPlaces hExponent more
          simpa [NumberBody.text, NumberBody.fractionText] using hLength

/-- A decimal does not go on behind a zero where a base is marked. -/
theorem length_le_one_of_radix? {whole : List Char} {fraction : Option (List Char)}
    {exponent : Option NumberExponent}
    (h : NumberBody.IsOf f (.decimal whole fraction exponent)) {radix : Radix}
    (hRadix : f.radix? ((NumberBody.decimal whole fraction exponent).text f.separators ++ more) =
      some radix) :
    ((NumberBody.decimal whole fraction exponent).text f.separators).length ≤ 1 := by
  obtain ⟨mark, rest, hText, hMark⟩ := eq_cons_of_radix? hRadix
  have hPlain {c : Char} := NumberBody.isPlain_of_mem_text h (c := c)
  generalize (NumberBody.decimal whole fraction exponent).text f.separators = text at hText hPlain
  match text with
  | [] => exact Nat.zero_le 1
  | [_] => exact Nat.le_refl 1
  | first :: second :: others =>
      obtain ⟨-, hSecond⟩ := List.cons.inj hText
      obtain ⟨rfl, -⟩ := List.cons.inj hSecond
      exact absurd hMark (not_isMark_of_isPlain hMarks (hPlain (by simp)))

/-- What stands behind the sign of a literal is read at least as far as it goes. -/
theorem length_le_bodyWidth {body : NumberBody} (h : body.IsOf f) (more : List Char) :
    (body.text f.separators).length ≤ f.bodyWidth (body.text f.separators ++ more) := by
  cases h with
  | @marked radix mark digits hAllowed hMark hDigits =>
      have hRadix := radix?_of_mem_marks hAllowed hMark (digits ++ more)
      have hText : (NumberBody.marked radix mark digits).text f.separators ++ more =
          '0' :: mark :: (digits ++ more) := rfl
      have hLength : digits.length ≤ (f.digitRun radix.isDigit (digits ++ more)).length := by
        rcases hDigits with rfl | hRun
        · exact Nat.zero_le _
        · exact length_le_digitRun hRun more
      simp only [hText, bodyWidth, hRadix, List.drop_succ_cons, List.drop_zero]
      simp only [NumberBody.text, List.length_cons]
      omega
  | @decimal whole fraction exponent hWhole hFraction hExponent =>
      have hBody : NumberBody.IsOf f (.decimal whole fraction exponent) :=
        .decimal hWhole hFraction hExponent
      unfold bodyWidth
      split
      · next radix hRadix =>
        have hLength := length_le_one_of_radix? hMarks hBody hRadix
        omega
      · exact length_le_decimalLength hMarks hBody more

/-- No literal at the front of a text is longer than what is read there. -/
theorem length_le_width {literal : NumberLiteral} (h : literal.IsOf f)
    (hLeads : literal.text f.separators <+: cs) :
    (literal.text f.separators).length ≤ (f.extent cs).width := by
  obtain ⟨more, rfl⟩ := hLeads
  have hSign := signLength_append literal.negative (head_text h.body more)
  have hBody := length_le_bodyWidth hMarks h.body more
  rw [NumberLiteral.text, List.append_assoc, width_extent, hSign, List.drop_left,
    List.length_append]
  exact Nat.add_le_add_left hBody _

/-- A literal has no digits exactly if it is the mark of a base alone. -/
theorem isBareMark_iff {literal : NumberLiteral} (h : literal.IsOf f) :
    Numeral.IsBareMark (literal.text f.separators) ↔ literal.body.missing.isSome = true := by
  obtain ⟨negative, body⟩ := literal
  have hHead : (body.text f.separators).head?.any Char.isDigit = true := by
    simpa using head_text h.body []
  have hBare (h : Numeral.IsBareMark (NumberLiteral.text f.separators ⟨negative, body⟩)) :
      ∃ radix : Radix, ∃ mark ∈ radix.marks, body.text f.separators = ['0', mark] := by
    obtain ⟨other, radix, mark, hMark, hText⟩ := h
    exact ⟨radix, mark, hMark, Numeral.eq_of_minusText_append hHead rfl hText⟩
  cases h.body with
  | @marked radix mark digits hAllowed hMark hDigits =>
      constructor
      · intro h
        obtain ⟨_, _, -, hText⟩ := hBare h
        obtain ⟨-, hBehind⟩ := List.cons.inj hText
        obtain ⟨-, rfl⟩ := List.cons.inj hBehind
        rfl
      · intro hMissing
        cases digits with
        | nil => exact ⟨negative, radix, mark, hMark, rfl⟩
        | cons d later => cases hMissing
  | @decimal whole fraction exponent hWhole hFraction hExponent =>
      constructor
      · intro hText
        obtain ⟨radix, mark, hMark, hText⟩ := hBare hText
        have hPlain := NumberBody.isPlain_of_mem_text h.body (c := mark) (by rw [hText]; simp)
        exact absurd (isMark_of_mem_marks hMark) (not_isMark_of_isPlain hMarks hPlain)
      · intro hMissing
        cases hMissing

end NumberFormat

namespace LiteralRule

variable {f : NumberFormat} {c : Cursor} {source : List Char}

/-- Where a number starts, the longest literal of the format is read, and it is reported exactly if
it is the mark of a base without digits. -/
theorem longest_of_starts (hMarks : f.separators.areMarks = true) (hIn : c.IsIn source)
    (hStarts : f.starts c.rest = true) :
    ∃ reading, (number f).read? c = some reading ∧
      f.IsLongest c.rest (reading.token.payload source) ∧
      ((∃ m ∈ reading.messages, m.code = .invalidNumber) ↔
        Numeral.IsBareMark (reading.token.payload source)) := by
  obtain ⟨literal, hLiteral, hText, hMissing⟩ := NumberFormat.exists_literal hStarts
  have hPayload : (readNumber f c).token.payload source = c.rest.take (f.extent c.rest).width :=
    hIn.payload_tokenTo _ _
  refine ⟨readNumber f c, by rw [read?, if_pos hStarts], ?_, ?_⟩
  · rw [hPayload]
    refine ⟨List.take_prefix _ _, ⟨literal, hLiteral, hText⟩, fun other hOther hLeads => ?_⟩
    rw [List.length_take]
    exact Nat.le_min.mpr ⟨NumberFormat.length_le_width hMarks hOther hLeads, hLeads.length_le⟩
  · rw [hPayload, hText, NumberFormat.isBareMark_iff hMarks hLiteral, ← hMissing]
    cases hLacks : (f.extent c.rest).missing with
    | none => simp [readNumber, hLacks]
    | some radix => simp [readNumber, hLacks, LexicalFault.message, LexicalFault.code]

end LiteralRule

namespace Sample

/-- A negative number with a fraction and an exponent, and more of a number behind it. -/
def doublePoint : List Char := "-1_0.5e-3.7".toList

/-- Of the literals at its front, the longest one ends at the second point. -/
theorem longest_of_starts_doublePoint :
    ∃ reading, (LiteralRule.number allNumbers).read? (.ofSource doublePoint) = some reading ∧
      reading.token.payload doublePoint = "-1_0.5e-3".toList ∧
      allNumbers.IsLongest doublePoint "-1_0.5e-3".toList ∧
      ¬∃ m ∈ reading.messages, m.code = .invalidNumber := by
  obtain ⟨reading, hRead, hLongest, hReported⟩ := LiteralRule.longest_of_starts (f := allNumbers)
    (by decide) (Cursor.isIn_ofSource doublePoint) (by decide +kernel)
  obtain rfl : LiteralRule.readNumber allNumbers (.ofSource doublePoint) = reading :=
    Option.some.inj hRead
  have hPayload : (LiteralRule.readNumber allNumbers (.ofSource doublePoint)).token.payload
      doublePoint = "-1_0.5e-3".toList := by decide +kernel
  rw [hPayload] at hLongest hReported
  refine ⟨_, rfl, hPayload, hLongest, hReported.not.mpr ?_⟩
  rintro ⟨negative, radix, mark, -, hText⟩
  have hLength : "-1_0.5e-3".toList.length = 9 := by decide +kernel
  rw [hText] at hLength
  cases negative with
  | true => cases hLength
  | false => cases hLength

end Sample

end Precedence
