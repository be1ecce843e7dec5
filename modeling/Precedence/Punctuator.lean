import Precedence.Symbol.Basic
import Precedence.Text.Case

/-!
Punctuators: symbols with a fixed spelling in the source, from `+` to keywords. The set keeps the
longest spelling first, so a search from the front finds `>>=` before `>>` before `>`; spellings of
one length stay in the order of registration. The entry of a symbol is found through an index beside
the entries, which is made anew whenever an entry is added; that the two say the same is part of the
type.
-/
namespace Precedence

/-- A spelling registered for a symbol, with its length in characters. It is not empty, so matching
it always reads something. -/
structure Punctuator where
  symbol : Symbol
  spelling : List Char
  ignoreCase : Bool
  length : Nat
  spelling_ne_nil : spelling ≠ []
  length_eq : length = spelling.length
deriving DecidableEq

namespace Punctuator

/-- The spelling as a string. -/
def text (p : Punctuator) : String := String.ofList p.spelling

/-- Whether a text starts with the spelling. -/
def startsText (p : Punctuator) (text : List Char) : Bool :=
  if p.ignoreCase then Text.startsWithUpToCase p.spelling text else p.spelling.isPrefixOf text

/-- Whether a word is the spelling and nothing more. -/
def spells (p : Punctuator) (word : List Char) : Bool :=
  if p.ignoreCase then Text.agreesUpToCase word p.spelling else word == p.spelling

theorem length_pos (p : Punctuator) : 0 < p.length :=
  p.length_eq ▸ List.length_pos_iff.mpr p.spelling_ne_nil

end Punctuator

/-! ### Entries and their index -/

/-- An entry put behind all those that are at least as long. -/
def Punctuator.placeIn (p : Punctuator) (entries : List Punctuator) : List Punctuator :=
  entries.takeWhile (fun q => p.length ≤ q.length) ++
    p :: entries.dropWhile (fun q => p.length ≤ q.length)

/-- The symbols of some entries, each with its place. -/
def Punctuator.indexOf (entries : List Punctuator) : List (Symbol × Nat) :=
  entries.zipIdx.map fun (p, place) => (p.symbol, place)

namespace Punctuator

variable {entries : List Punctuator}

theorem placeIn_perm (p : Punctuator) (entries : List Punctuator) :
    (p.placeIn entries).Perm (p :: entries) := by
  have hParts : entries.takeWhile (fun q => p.length ≤ q.length) ++
      entries.dropWhile (fun q => p.length ≤ q.length) = entries :=
    List.takeWhile_append_dropWhile
  have hMiddle : (p.placeIn entries).Perm _ := List.perm_middle
  rwa [hParts] at hMiddle

/-- Behind the entries that are at least as long as a spelling, all are shorter. -/
theorem length_lt_of_mem_dropWhile {n : Nat}
    (hSorted : entries.Pairwise fun p q => q.length ≤ p.length) {p : Punctuator}
    (h : p ∈ entries.dropWhile fun q => n ≤ q.length) : p.length < n := by
  induction hSorted with
  | nil => cases h
  | @cons q entries hFirst _ ih =>
      rw [List.dropWhile_cons] at h
      split at h
      · exact ih h
      · next hShort =>
        have hLess : q.length < n := by simpa using hShort
        rcases List.mem_cons.mp h with rfl | hLater
        · exact hLess
        · exact Nat.lt_of_le_of_lt (hFirst p hLater) hLess

/-- What holds of the entries in order holds with one more, if it holds of that one and those that
are at least as long, and of that one and those that are shorter. -/
theorem pairwise_placeIn {relates : Punctuator → Punctuator → Prop} {p : Punctuator}
    (hSorted : entries.Pairwise fun p q => q.length ≤ p.length)
    (hEntries : entries.Pairwise relates)
    (hLonger : ∀ q ∈ entries, p.length ≤ q.length → relates q p)
    (hShorter : ∀ q ∈ entries, q.length < p.length → relates p q) :
    (p.placeIn entries).Pairwise relates := by
  have hParts := hEntries
  rw [← List.takeWhile_append_dropWhile (l := entries) (p := fun q => p.length ≤ q.length),
    List.pairwise_append] at hParts
  obtain ⟨hFront, hBack, hAcross⟩ := hParts
  simp only [placeIn, List.pairwise_append, List.pairwise_cons, List.mem_cons]
  refine ⟨hFront, ⟨fun q hq => ?_, hBack⟩, ?_⟩
  · exact hShorter q ((List.dropWhile_suffix _).subset hq) (length_lt_of_mem_dropWhile hSorted hq)
  · rintro q hq q' (rfl | hq')
    · have hLength := List.all_eq_true.mp List.all_takeWhile q hq
      exact hLonger q ((List.takeWhile_prefix _).subset hq) (by simpa using hLength)
    · exact hAcross q hq q' hq'

theorem sorted_placeIn (hSorted : entries.Pairwise fun p q => q.length ≤ p.length)
    (p : Punctuator) : (p.placeIn entries).Pairwise fun p q => q.length ≤ p.length :=
  pairwise_placeIn hSorted hSorted (fun _ _ hLength => hLength)
    fun _ _ hLength => Nat.le_of_lt hLength

theorem lookup_zipIdx (start : Nat) (entries : List Punctuator) (symbol : Symbol) :
    ((entries.zipIdx start).map fun (p, place) => (p.symbol, place)).lookup symbol =
      (entries.findIdx? fun p => p.symbol == symbol).map (· + start) := by
  induction entries generalizing start with
  | nil => rfl
  | cons p entries ih =>
      by_cases hSymbol : p.symbol = symbol
      · simp [List.findIdx?_cons, hSymbol]
      · have hOther : (symbol == p.symbol) = false := by simpa using Ne.symm hSymbol
        have hLater (place : Nat) : place + (start + 1) = place + 1 + start := by omega
        simp [List.findIdx?_cons, List.lookup_cons, hSymbol, hOther, ih, Function.comp_def, hLater]

/-- The index tells the place of the first entry with a symbol. -/
theorem lookup_indexOf (entries : List Punctuator) (symbol : Symbol) :
    (indexOf entries).lookup symbol = entries.findIdx? (fun p => p.symbol == symbol) := by
  simpa [indexOf] using lookup_zipIdx 0 entries symbol

/-- Where no symbol has two entries, the index tells the place of every entry. -/
theorem agree_indexOf (hDistinct : entries.Pairwise fun p q => p.symbol ≠ q.symbol)
    (symbol : Symbol) (place : Nat) : (indexOf entries).lookup symbol = some place ↔
      ∃ p, entries[place]? = some p ∧ p.symbol = symbol := by
  rw [lookup_indexOf, List.findIdx?_eq_some_iff_getElem]
  constructor
  · rintro ⟨hLess, hSymbol, -⟩
    exact ⟨entries[place], List.getElem?_eq_getElem hLess, by simpa using hSymbol⟩
  · rintro ⟨p, hEntry, hSymbol⟩
    obtain ⟨hLess, rfl⟩ := List.getElem?_eq_some_iff.mp hEntry
    refine ⟨hLess, by simpa using hSymbol, fun other hEarlier => ?_⟩
    have hOther := List.pairwise_iff_getElem.mp hDistinct other place
      (Nat.lt_trans hEarlier hLess) hLess hEarlier
    simpa [hSymbol] using hOther

end Punctuator

/-- Registered spellings, the longest first, and an index that tells the place of each symbol. -/
structure PunctuatorSet where
  entries : List Punctuator
  index : List (Symbol × Nat)
  sorted : entries.Pairwise fun p q => q.length ≤ p.length
  agree (symbol : Symbol) (place : Nat) :
    index.lookup symbol = some place ↔ ∃ p, entries[place]? = some p ∧ p.symbol = symbol
deriving DecidableEq

namespace PunctuatorSet

/-- No spelling at all. -/
def empty : PunctuatorSet := ⟨[], [], .nil, by simp⟩

instance : Inhabited PunctuatorSet := ⟨empty⟩

/-- The number of registered spellings. -/
def size (s : PunctuatorSet) : Nat := s.entries.length

/-- The entry of a symbol. -/
def find? (s : PunctuatorSet) (symbol : Symbol) : Option Punctuator :=
  (s.index.lookup symbol).bind fun place => s.entries[place]?

/-- Whether a symbol has a registered spelling. -/
def contains (s : PunctuatorSet) (symbol : Symbol) : Bool := (s.index.lookup symbol).isSome

/-- The entry that is found for a symbol is the one that has it. -/
theorem find?_eq_some_iff {s : PunctuatorSet} {symbol : Symbol} {p : Punctuator} :
    s.find? symbol = some p ↔ p ∈ s.entries ∧ p.symbol = symbol := by
  rw [find?, Option.bind_eq_some_iff, List.mem_iff_getElem?]
  constructor
  · rintro ⟨place, hPlace, hEntry⟩
    obtain ⟨q, hFound, hSymbol⟩ := (s.agree symbol place).mp hPlace
    obtain rfl : q = p := Option.some.inj (hFound.symm.trans hEntry)
    exact ⟨⟨place, hEntry⟩, hSymbol⟩
  · rintro ⟨⟨place, hEntry⟩, hSymbol⟩
    exact ⟨place, (s.agree symbol place).mpr ⟨p, hEntry, hSymbol⟩, hEntry⟩

theorem contains_eq_true_iff {s : PunctuatorSet} {symbol : Symbol} :
    s.contains symbol = true ↔ ∃ p ∈ s.entries, p.symbol = symbol := by
  rw [contains, Option.isSome_iff_exists]
  simp only [s.agree, List.mem_iff_getElem?]
  constructor
  · rintro ⟨place, p, hEntry, hSymbol⟩
    exact ⟨p, ⟨place, hEntry⟩, hSymbol⟩
  · rintro ⟨p, ⟨place, hEntry⟩, hSymbol⟩
    exact ⟨place, p, hEntry, hSymbol⟩

/-- No symbol has two entries, because the index has one place for it. -/
theorem distinct (s : PunctuatorSet) : s.entries.Pairwise fun p q => p.symbol ≠ q.symbol := by
  rw [List.pairwise_iff_getElem]
  intro i j hi hj hLess hSame
  have hFirst := (s.agree _ i).mpr ⟨s.entries[i], List.getElem?_eq_getElem hi, rfl⟩
  have hSecond := (s.agree _ j).mpr ⟨s.entries[j], List.getElem?_eq_getElem hj, rfl⟩
  rw [hSame, hSecond, Option.some.injEq] at hFirst
  omega

theorem distinct_placeIn {s : PunctuatorSet} {p : Punctuator}
    (hNew : ¬s.contains p.symbol = true) :
    (p.placeIn s.entries).Pairwise fun p q => p.symbol ≠ q.symbol := by
  rw [(p.placeIn_perm s.entries).pairwise_iff Ne.symm, List.pairwise_cons]
  exact ⟨fun q hMem hSame => hNew (contains_eq_true_iff.mpr ⟨q, hMem, hSame.symm⟩), s.distinct⟩

/-- The set with an entry for a symbol that has none yet. -/
def add (s : PunctuatorSet) (p : Punctuator) (hNew : ¬s.contains p.symbol = true) :
    PunctuatorSet where
  entries := p.placeIn s.entries
  index := Punctuator.indexOf (p.placeIn s.entries)
  sorted := Punctuator.sorted_placeIn s.sorted p
  agree := Punctuator.agree_indexOf (distinct_placeIn hNew)

@[simp] theorem entries_add (s : PunctuatorSet) (p : Punctuator)
    (hNew : ¬s.contains p.symbol = true) : (s.add p hNew).entries = p.placeIn s.entries := rfl

/-- The set with a spelling for a symbol. An empty spelling is refused, and so is a symbol that has
one already. -/
def insert? (s : PunctuatorSet) (symbol : Symbol) (spelling : List Char) (ignoreCase : Bool) :
    Option PunctuatorSet :=
  if hSpelling : spelling = [] then none
  else if hKnown : s.contains symbol = true then none
  else some (s.add ⟨symbol, spelling, ignoreCase, spelling.length, hSpelling, rfl⟩ hKnown)

/-- The set with a spelling for a symbol, or the same set if the spelling is refused. -/
def insert (s : PunctuatorSet) (symbol : Symbol) (spelling : List Char) (ignoreCase : Bool) :
    PunctuatorSet :=
  (s.insert? symbol spelling ignoreCase).getD s

/-- The symbol that a word spells. Entries that mind the case are asked before those that do
not. -/
def findSpelling? (s : PunctuatorSet) (word : List Char) : Option Symbol :=
  ((s.entries.find? fun p => !p.ignoreCase && p.spells word).or
    (s.entries.find? fun p => p.ignoreCase && p.spells word)).map (·.symbol)

end PunctuatorSet

end Precedence
