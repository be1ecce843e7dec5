/-!
Interning: a growing list of texts without repetition, in which the place of a text is its number.
Numbers are handed out densely and in the order of first use, and a number once handed out keeps
its text, because entries are only ever added at the end. Texts are looked up in an index beside the
list, which gets an entry of its own whenever the list does; that the two say the same is part of
the type.
-/
namespace Precedence

/-- Texts in the order of first use, and an index that tells the number of each. -/
structure Interning where
  entries : List String
  index : List (String × Nat)
  agree (text : String) (number : Nat) :
    index.lookup text = some number ↔ entries[number]? = some text

namespace Interning

/-- No text at all. -/
def empty : Interning := ⟨[], [], by simp⟩

instance : Inhabited Interning := ⟨empty⟩

/-- How many texts are interned. -/
def size (t : Interning) : Nat := t.entries.length

/-- The number of a text, if it is interned. -/
def find? (t : Interning) (text : String) : Option Nat := t.index.lookup text

/-- The text of a number, if it was handed out. -/
def text? (t : Interning) (number : Nat) : Option String := t.entries[number]?

/-- A text is looked up under the number by which it is found. -/
theorem find?_eq_some_iff {t : Interning} {text : String} {number : Nat} :
    t.find? text = some number ↔ t.text? number = some text :=
  t.agree text number

theorem find?_eq_none_iff {t : Interning} {text : String} :
    t.find? text = none ↔ text ∉ t.entries := by
  rw [Option.eq_none_iff_forall_ne_some, List.mem_iff_getElem?]
  simp only [ne_eq, find?_eq_some_iff, text?, not_exists]

/-- An entry for a new text at the end of the list and one in the index say the same. -/
theorem agree_concat {t : Interning} {text : String} (hNew : t.find? text = none)
    (other : String) (number : Nat) :
    ((text, t.size) :: t.index).lookup other = some number ↔
      (t.entries ++ [text])[number]? = some other := by
  rw [List.lookup_cons, List.getElem?_append, size]
  by_cases hSame : other = text
  · subst hSame
    have hFresh : t.entries[number]? ≠ some other := by
      intro hEntry
      rw [find?_eq_some_iff.mpr hEntry] at hNew
      cases hNew
    grind
  · have hOld := t.agree other number
    grind

/-- The number of a text, which becomes the last entry if it is new. -/
def intern (t : Interning) (text : String) : Nat × Interning :=
  match h : t.find? text with
  | some number => (number, t)
  | none => (t.size, ⟨t.entries ++ [text], (text, t.size) :: t.index, agree_concat h⟩)

theorem intern_of_find?_eq_some {t : Interning} {text : String} {number : Nat}
    (h : t.find? text = some number) : t.intern text = (number, t) := by
  unfold intern
  split
  · simp_all
  · simp_all

theorem entries_intern_of_find?_eq_none {t : Interning} {text : String}
    (h : t.find? text = none) :
    (t.intern text).1 = t.size ∧ (t.intern text).2.entries = t.entries ++ [text] := by
  unfold intern
  split
  · simp_all
  · exact ⟨rfl, rfl⟩

/-- Interning keeps every entry in its place. -/
theorem entries_prefix_intern (t : Interning) (text : String) :
    t.entries <+: (t.intern text).2.entries := by
  cases h : t.find? text with
  | some number => simp [intern_of_find?_eq_some h]
  | none => simp [(entries_intern_of_find?_eq_none h).2]

/-- The number that a text gets is the place where it stands. -/
theorem text?_intern (t : Interning) (text : String) :
    (t.intern text).2.text? (t.intern text).1 = some text := by
  cases h : t.find? text with
  | some number =>
      rw [intern_of_find?_eq_some h]
      exact find?_eq_some_iff.mp h
  | none =>
      obtain ⟨hNumber, hEntries⟩ := entries_intern_of_find?_eq_none h
      simp [text?, hNumber, hEntries, size]

/-- A number keeps its text while entries are added. -/
theorem text?_mono {t u : Interning} (hGrows : t.entries <+: u.entries) {number : Nat}
    {text : String} (h : t.text? number = some text) : u.text? number = some text := by
  obtain ⟨hLess, hGet⟩ := List.getElem?_eq_some_iff.mp h
  obtain ⟨later, hLater⟩ := hGrows
  rw [text?, ← hLater, List.getElem?_append_left hLess, List.getElem?_eq_getElem hLess, hGet]

/-- Some texts, interned one behind the other. -/
def ofList (texts : List String) : Interning :=
  texts.foldl (fun t text => (t.intern text).2) empty

end Interning

end Precedence
