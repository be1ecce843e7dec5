import Mathlib.Data.List.Induction
import Precedence.Symbol.Basic

/-!
The numbers of a table that is used in any way. Whatever is interned and looked up, the texts of a
table are those that were interned, in the order of their first time and each of them once. So the
numbers are dense, a text has one number and a number has one text, and neither changes later. A
table of names starts without texts, and a table of symbols with the predefined ones, as though they
had been interned before anything else.
-/
namespace Precedence

namespace Interning

/-- Something that is asked of a table. -/
inductive Call where
  | intern (text : String)
  | find (text : String)

/-- The texts that are to be interned, in order and with their repetitions. -/
def Call.interned (calls : List Call) : List String :=
  calls.filterMap fun
    | .intern text => some text
    | .find _ => none

/-- The table after a call. -/
def perform (t : Interning) : Call → Interning
  | .intern text => (t.intern text).2
  | .find _ => t

/-- The table after calls one behind the other. -/
def performAll (t : Interning) (calls : List Call) : Interning := calls.foldl perform t

variable {t u : Interning} {text other : String} {number : Nat}

theorem isSome_find?_iff : (t.find? text).isSome ↔ text ∈ t.entries := by
  rw [← not_iff_not, Bool.not_eq_true, Option.isSome_eq_false_iff, Option.isNone_iff_eq_none,
    find?_eq_none_iff]

theorem performAll_append (t : Interning) (calls later : List Call) :
    t.performAll (calls ++ later) = (t.performAll calls).performAll later :=
  List.foldl_append

theorem ofList_eq_performAll (texts : List String) :
    ofList texts = empty.performAll (texts.map .intern) := by
  rw [ofList, performAll, List.foldl_map]
  rfl

/-! ### One call -/

theorem entries_prefix_perform (t : Interning) (call : Call) :
    t.entries <+: (t.perform call).entries := by
  cases call with
  | intern text => exact t.entries_prefix_intern text
  | find text => exact List.prefix_rfl

/-- A table whose texts were interned in some order gains a text exactly if it is a new one. -/
theorem entries_perform {texts : List String} (h : t.entries = texts.eraseDups) (call : Call) :
    (t.perform call).entries = (texts ++ Call.interned [call]).eraseDups := by
  rw [List.eraseDups_append, ← h]
  cases call with
  | find text =>
      have hNothing : Call.interned [.find text] = [] := rfl
      rw [hNothing]
      exact (List.append_nil _).symm
  | intern text =>
      have hOne : Call.interned [.intern text] = [text] := rfl
      have hMem : text ∈ t.entries ↔ text ∈ texts := by rw [h, List.mem_eraseDups]
      rw [hOne, perform]
      cases hFind : t.find? text with
      | some number =>
          have hKnown : text ∈ texts := hMem.mp (List.mem_of_getElem? (find?_eq_some_iff.mp hFind))
          have hNone : [text].removeAll texts = [] := by simp [List.removeAll, hKnown]
          rw [intern_of_find?_eq_some hFind, hNone]
          exact (List.append_nil _).symm
      | none =>
          have hNew : text ∉ texts := fun hKnown => find?_eq_none_iff.mp hFind (hMem.mpr hKnown)
          have hSelf : [text].removeAll texts = [text] := by simp [List.removeAll, hNew]
          rw [(entries_intern_of_find?_eq_none hFind).2, hSelf]
          rfl

theorem size_perform_le (t : Interning) (call : Call) : (t.perform call).size ≤ t.size + 1 := by
  cases call with
  | find text => exact Nat.le_succ _
  | intern text =>
      rw [perform]
      cases hFind : t.find? text with
      | some number =>
          rw [intern_of_find?_eq_some hFind]
          exact Nat.le_succ _
      | none =>
          rw [size, (entries_intern_of_find?_eq_none hFind).2, List.length_append]
          exact Nat.le_refl _

/-! ### All calls -/

/-- A table has no more numbers to hand out than there are calls. -/
theorem size_performAll_le (t : Interning) (calls : List Call) :
    (t.performAll calls).size ≤ t.size + calls.length := by
  induction calls generalizing t with
  | nil => exact Nat.le_refl _
  | cons call calls ih =>
      have hFirst := t.size_perform_le call
      have hRest := ih (t.perform call)
      rw [performAll, List.foldl_cons, List.length_cons]
      exact Nat.le_trans hRest (by omega)

theorem entries_prefix_performAll (t : Interning) (calls : List Call) :
    t.entries <+: (t.performAll calls).entries := by
  induction calls generalizing t with
  | nil => exact List.prefix_rfl
  | cons call calls ih => exact (t.entries_prefix_perform call).trans (ih (t.perform call))

/-- The texts of a table are those that were interned, in the order of their first time. -/
theorem entries_performAll (calls : List Call) :
    (empty.performAll calls).entries = (Call.interned calls).eraseDups := by
  induction calls using List.reverseRecOn with
  | nil => rfl
  | append_singleton calls call ih =>
      have hTexts : Call.interned (calls ++ [call]) =
          Call.interned calls ++ Call.interned [call] := List.filterMap_append
      rw [performAll_append, hTexts]
      exact entries_perform ih call

/-- A text that has been found is found in every later table, under the same number. -/
theorem find?_mono (hGrows : t.entries <+: u.entries) (h : t.find? text = some number) :
    u.find? text = some number :=
  find?_eq_some_iff.mpr (text?_mono hGrows (find?_eq_some_iff.mp h))

/-- A text is found under the number that it gets, then and later. -/
theorem find?_intern_performAll (t : Interning) (text : String) (later : List Call) :
    ((t.intern text).2.performAll later).find? text = some (t.intern text).1 :=
  find?_mono (entries_prefix_performAll _ later) (find?_eq_some_iff.mpr (t.text?_intern text))

/-- Two texts get one number exactly if they are equal. -/
theorem fst_intern_eq_iff (h : t.find? text = some number) :
    (t.intern other).1 = number ↔ other = text := by
  have hOther := t.text?_intern other
  constructor
  · intro hSame
    have hText := text?_mono (t.entries_prefix_intern other) (find?_eq_some_iff.mp h)
    rw [hSame, hText, Option.some.injEq] at hOther
    exact hOther.symm
  · rintro rfl
    rw [intern_of_find?_eq_some h]

/-- A table numbers the texts that were interned in some calls, and keeps to that in the calls that
come later. -/
structure Numbers (t : Interning) (calls later : List Call) : Prop where
  /-- The texts are numbered densely, in the order of their first time. -/
  entries : t.entries = (Call.interned calls).eraseDups
  /-- No number passes 32 bits before there have been that many calls. -/
  size : t.size ≤ calls.length
  isSome_find? (text : String) : (t.find? text).isSome ↔ text ∈ Call.interned calls
  /-- A text that is found is interned as what it is found as. -/
  found (text : String) (number : Nat) : t.find? text = some number → t.intern text = (number, t)
  /-- A new text gets the next number. -/
  new (text : String) : t.find? text = none → (t.intern text).1 = t.size
  /-- Every text keeps the number that it gets. -/
  lasting (text : String) :
    ((t.intern text).2.performAll later).text? (t.intern text).1 = some text ∧
    ((t.intern text).2.performAll later).find? text = some (t.intern text).1
  /-- No other text gets that number. -/
  one_to_one (text other : String) :
    (((t.intern text).2.performAll later).intern other).1 = (t.intern text).1 ↔ other = text

theorem numbers_performAll (calls later : List Call) :
    (empty.performAll calls).Numbers calls later := by
  have hEntries := entries_performAll calls
  constructor
  case entries => exact hEntries
  case size =>
    have hSize := size_performAll_le empty calls
    rwa [show empty.size = 0 from rfl, Nat.zero_add] at hSize
  case isSome_find? =>
    intro text
    rw [isSome_find?_iff, hEntries, List.mem_eraseDups]
  case found =>
    intro text number hFind
    exact intern_of_find?_eq_some hFind
  case new =>
    intro text hFind
    exact (entries_intern_of_find?_eq_none hFind).1
  case lasting =>
    intro text
    have hFind := find?_intern_performAll (empty.performAll calls) text later
    exact ⟨find?_eq_some_iff.mp hFind, hFind⟩
  case one_to_one =>
    intro text other
    exact fst_intern_eq_iff (find?_intern_performAll _ text later)

end Interning

namespace SymbolTable

open Interning (Call)

/-- The table after a call. A name that is refused leaves it as it is. -/
def perform (t : SymbolTable) : Call → SymbolTable
  | .intern name =>
      match t.intern name with
      | .ok (_, t') => t'
      | .error _ => t
  | .find _ => t

/-- The table after calls one behind the other. -/
def performAll (t : SymbolTable) (calls : List Call) : SymbolTable := calls.foldl perform t

/-- The names that a table knows after some calls, with repetitions: the predefined ones, and then
those that were interned and not refused. -/
def known (calls : List Call) : List String :=
  Symbol.predefinedNames ++ (Call.interned calls).filter (· ≠ "")

variable {t t' : SymbolTable} {name other : String} {symbol : Symbol}

/-- No symbol has an empty name. -/
theorem ne_empty_of_intern (h : t.intern name = .ok (symbol, t')) : name ≠ "" := by
  rintro rfl
  cases h

theorem intern_of_ne (t : SymbolTable) (h : name ≠ "") :
    t.intern name = .ok (⟨(t.names.intern name).1⟩,
      ⟨(t.names.intern name).2, t.predefined.trans (t.names.entries_prefix_intern name)⟩) := by
  rw [intern, if_neg]
  rwa [String.isEmpty_iff]

theorem intern_eq_ok (h : t.intern name = .ok (symbol, t')) :
    t'.names.text? symbol.id = some name ∧ t.names.entries <+: t'.names.entries := by
  rw [t.intern_of_ne (ne_empty_of_intern h)] at h
  cases h
  exact ⟨t.names.text?_intern name, t.names.entries_prefix_intern name⟩

theorem names_perform (t : SymbolTable) (call : Call) :
    (t.perform call).names =
      t.names.performAll (((Call.interned [call]).filter (· ≠ "")).map .intern) := by
  cases call with
  | find name => rfl
  | intern name =>
      by_cases hEmpty : name = ""
      · subst hEmpty
        rfl
      · have hKept : ((Call.interned [.intern name]).filter (· ≠ "")).map Call.intern =
            [.intern name] := by
          simp [Call.interned, hEmpty]
        rw [perform, t.intern_of_ne hEmpty, hKept]
        rfl

/-- The names of a table are what interning the names that are not refused makes of them. -/
theorem names_performAll (t : SymbolTable) (calls : List Call) :
    (t.performAll calls).names =
      t.names.performAll (((Call.interned calls).filter (· ≠ "")).map .intern) := by
  induction calls generalizing t with
  | nil => rfl
  | cons call calls ih =>
      have hTexts : Call.interned (call :: calls) =
          Call.interned [call] ++ Call.interned calls := List.filterMap_append (l := [call])
      rw [hTexts, List.filter_append, List.map_append, Interning.performAll_append,
        ← names_perform]
      exact ih (t.perform call)

theorem entries_performAll_initial (calls : List Call) :
    (initial.performAll calls).names.entries = (known calls).eraseDups := by
  have hStart : initial.names = Interning.empty.performAll (Symbol.predefinedNames.map .intern) :=
    Interning.ofList_eq_performAll _
  have hTexts (texts : List String) : Call.interned (texts.map .intern) = texts := by
    induction texts with
    | nil => rfl
    | cons text texts ih => exact congrArg (text :: ·) ih
  rw [names_performAll, hStart, ← Interning.performAll_append, Interning.entries_performAll,
    ← List.map_append, hTexts, known]

theorem ne_empty_of_mem_known {calls : List Call} (h : name ∈ known calls) : name ≠ "" := by
  rcases List.mem_append.mp h with hPredefined | hInterned
  · rintro rfl
    revert hPredefined
    decide
  · exact of_decide_eq_true (List.mem_filter.mp hInterned).2

theorem size_performAll_le (t : SymbolTable) (calls : List Call) :
    (t.performAll calls).size ≤ t.size + calls.length := by
  have hSize := t.names.size_performAll_le (((Call.interned calls).filter (· ≠ "")).map .intern)
  have hKept : ((Call.interned calls).filter (· ≠ "")).length ≤ calls.length :=
    Nat.le_trans (List.length_filter_le _ _) (List.length_filterMap_le _ _)
  rw [List.length_map, ← names_performAll] at hSize
  exact Nat.le_trans hSize (Nat.add_le_add_left hKept _)

theorem entries_prefix_performAll (t : SymbolTable) (calls : List Call) :
    t.names.entries <+: (t.performAll calls).names.entries := by
  rw [names_performAll]
  exact t.names.entries_prefix_performAll _

theorem find?_mono {t u : SymbolTable} (hGrows : t.names.entries <+: u.names.entries)
    (h : t.find? name = some symbol) : u.find? name = some symbol :=
  find?_eq_some_iff.mpr (Interning.text?_mono hGrows (find?_eq_some_iff.mp h))

/-- A name that is found is interned as what it is found as. -/
theorem intern_of_find?_eq_some (hName : name ≠ "") (h : t.find? name = some symbol) :
    t.intern name = .ok (symbol, t) := by
  have hFind := Interning.find?_eq_some_iff.mpr (find?_eq_some_iff.mp h)
  rw [t.intern_of_ne hName]
  simp only [Interning.intern_of_find?_eq_some hFind]

/-- Two names get one symbol exactly if they are equal. -/
theorem fst_intern_eq_iff (h : t.find? name = some symbol) {found : Symbol}
    (hOther : t.intern other = .ok (found, t')) : found = symbol ↔ other = name := by
  have hFind := Interning.find?_eq_some_iff.mpr (find?_eq_some_iff.mp h)
  rw [t.intern_of_ne (ne_empty_of_intern hOther)] at hOther
  cases hOther
  obtain ⟨id⟩ := symbol
  rw [Symbol.mk.injEq]
  exact Interning.fst_intern_eq_iff hFind

/-- A table of symbols numbers the names that it knows after some calls, and keeps to that in the
calls that come later. -/
structure Numbers (t : SymbolTable) (calls later : List Call) : Prop where
  /-- The names are numbered densely, in the order of their first time. -/
  entries : t.names.entries = (known calls).eraseDups
  /-- No number passes 32 bits before there have been that many calls. -/
  size : t.size ≤ Symbol.predefinedNames.length + calls.length
  isSome_find? (name : String) : (t.find? name).isSome ↔ name ∈ known calls
  /-- A name that is found is interned as what it is found as. -/
  found (name : String) (symbol : Symbol) : t.find? name = some symbol →
    t.intern name = .ok (symbol, t)
  /-- A new name gets the next number. -/
  new (name : String) : name ≠ "" → t.find? name = none → ∃ t', t.intern name = .ok (⟨t.size⟩, t')
  /-- Every name gets a symbol and keeps it, and no other name gets that symbol. -/
  lasting (name : String) : name ≠ "" → ∃ symbol t', t.intern name = .ok (symbol, t') ∧
    symbol.id < (t'.performAll later).size ∧ (t'.performAll later).name symbol = name ∧
    (t'.performAll later).find? name = some symbol ∧
    ∀ other found u, (t'.performAll later).intern other = .ok (found, u) →
      (found = symbol ↔ other = name)
  /-- The empty name is refused. -/
  refused : t.intern "" = .error .emptyName
  /-- A refused name leaves the table as it is. -/
  unchanged : t.performAll (.intern "" :: later) = t.performAll later

theorem numbers_performAll (calls later : List Call) :
    (initial.performAll calls).Numbers calls later := by
  have hEntries := entries_performAll_initial calls
  have hSize := size_performAll_le initial calls
  generalize initial.performAll calls = t at hEntries hSize
  constructor
  case entries => exact hEntries
  case size => exact hSize
  case isSome_find? =>
    intro name
    rw [find?, Option.isSome_map, Interning.isSome_find?_iff, hEntries, List.mem_eraseDups]
  case found =>
    intro name symbol hFind
    have hMem := List.mem_of_getElem? (find?_eq_some_iff.mp hFind)
    rw [hEntries, List.mem_eraseDups] at hMem
    exact intern_of_find?_eq_some (ne_empty_of_mem_known hMem) hFind
  case new =>
    intro name hName hFind
    rw [find?, Option.map_eq_none_iff] at hFind
    have hNumber : (t.names.intern name).1 = t.size :=
      (Interning.entries_intern_of_find?_eq_none hFind).1
    rw [t.intern_of_ne hName, hNumber]
    exact ⟨_, rfl⟩
  case lasting =>
    intro name hName
    have hIntern := t.intern_of_ne hName
    refine ⟨_, _, hIntern, ?_⟩
    obtain ⟨hText, -⟩ := intern_eq_ok hIntern
    have hFind := find?_mono (entries_prefix_performAll _ later) (find?_eq_some_iff.mpr hText)
    have hLast := find?_eq_some_iff.mp hFind
    refine ⟨(List.getElem?_eq_some_iff.mp hLast).1, ?_, hFind, ?_⟩
    · rw [SymbolTable.name, hLast, Option.getD_some]
    · intro other found u hOther
      exact fst_intern_eq_iff hFind hOther
  case refused => rfl
  case unchanged => rfl

end SymbolTable

/-- A table of names that starts without texts numbers them, and so does a table of symbols that
starts with the predefined ones: whatever is called, texts and numbers correspond one to one, and
the correspondence only grows. -/
theorem numbers_of_calls (calls later : List Interning.Call) :
    (Interning.empty.performAll calls).Numbers calls later ∧
      (SymbolTable.initial.performAll calls).Numbers calls later :=
  ⟨Interning.numbers_performAll calls later, SymbolTable.numbers_performAll calls later⟩

end Precedence
