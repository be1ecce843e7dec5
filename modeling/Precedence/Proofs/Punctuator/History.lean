import Mathlib.Data.List.Basic
import Mathlib.Data.List.Induction
import Mathlib.Data.List.TakeWhile
import Precedence.Punctuator

/-!
What a set of spellings keeps of the requests by which it was made. A request is granted if it has
a spelling and its symbol has none yet; the entries are the requests that were granted, the longest
spelling first and spellings of one length in the order of the requests. So of all entries that a
search accepts, it finds the longest, and of the longest the one that was requested first.
-/
namespace Precedence

/-- A request to register a spelling for a symbol. -/
structure Registration where
  symbol : Symbol
  spelling : List Char
  ignoreCase : Bool
deriving DecidableEq

/-- The request that an entry comes from. -/
def Punctuator.registration (p : Punctuator) : Registration :=
  ⟨p.symbol, p.spelling, p.ignoreCase⟩

namespace Registration

/-- A text is the spelling, or agrees with it up to case if the case is ignored. -/
def Spells (r : Registration) (text : List Char) : Prop :=
  if r.ignoreCase then Text.foldCase text = Text.foldCase r.spelling else text = r.spelling
deriving Decidable

/-- A text is the spelling, and the case is ignored or minded as asked. -/
def SpellsBy (ignoreCase : Bool) (text : List Char) (r : Registration) : Prop :=
  r.ignoreCase = ignoreCase ∧ r.Spells text
deriving Decidable

/-- A text starts with the spelling, in the same sense. -/
def Fits (r : Registration) (text : List Char) : Prop := r.Spells (text.take r.spelling.length)
deriving Decidable

/-- A request was granted: it is the first for its symbol that has a spelling. -/
def IsGranted (requests : List Registration) (r : Registration) : Prop :=
  requests.find? (fun q => q.symbol == r.symbol && !q.spelling.isEmpty) = some r
deriving Decidable

/-- One request comes before another in a search: its spelling is longer, or equally long and
requested earlier. -/
def Outranks (requests : List Registration) (r q : Registration) : Prop :=
  q.spelling.length < r.spelling.length ∨
    q.spelling.length = r.spelling.length ∧ requests.idxOf r < requests.idxOf q

/-- Of the granted requests with some property, the one that a search comes to first. -/
structure Leads (requests : List Registration) (stands : Registration → Prop) (r : Registration) :
    Prop where
  granted : r.IsGranted requests
  holds : stands r
  outranks (q : Registration) : q.IsGranted requests → stands q → q ≠ r → r.Outranks requests q

variable {requests : List Registration} {r q x : Registration}

theorem Spells.length_eq {text : List Char} (h : r.Spells text) :
    text.length = r.spelling.length := by
  unfold Spells at h
  split at h
  · simpa [Text.foldCase] using congrArg List.length h
  · rw [h]

theorem spells_self (r : Registration) : r.Spells r.spelling := by
  unfold Spells
  split <;> rfl

/-- A text starts with a spelling if a front of it is the spelling. -/
theorem fits_iff {text : List Char} : r.Fits text ↔ ∃ front, front <+: text ∧ r.Spells front := by
  constructor
  · intro h
    exact ⟨_, List.take_prefix _ _, h⟩
  · rintro ⟨front, ⟨rest, rfl⟩, hSpells⟩
    rw [Fits, ← hSpells.length_eq, List.take_left]
    exact hSpells

theorem Spells.fits {text : List Char} (h : r.Spells text) : r.Fits text :=
  fits_iff.mpr ⟨text, List.prefix_rfl, h⟩

theorem Fits.spells {text : List Char} (h : r.Fits text)
    (hLength : text.length ≤ r.spelling.length) : r.Spells text := by
  rwa [Fits, List.take_of_length_le hLength] at h

theorem IsGranted.mem (h : r.IsGranted requests) : r ∈ requests := List.mem_of_find?_eq_some h

/-- No symbol is granted two spellings. -/
theorem IsGranted.eq (h : r.IsGranted requests) (h' : q.IsGranted requests)
    (hSymbol : r.symbol = q.symbol) : r = q := by
  unfold IsGranted at h h'
  rw [hSymbol, h'] at h
  exact (Option.some.inj h).symm

/-- A symbol was granted no spelling if no request for it has one. -/
theorem find?_eq_none_iff {symbol : Symbol} :
    requests.find? (fun q => q.symbol == symbol && !q.spelling.isEmpty) = none ↔
      ∀ r : Registration, r.IsGranted requests → r.symbol ≠ symbol := by
  constructor
  · rintro h r hGranted rfl
    rw [IsGranted, h] at hGranted
    cases hGranted
  · intro h
    rw [Option.eq_none_iff_forall_ne_some]
    intro r hFound
    have hSymbol : r.symbol = symbol ∧ r.spelling ≠ [] := by simpa using List.find?_some hFound
    apply h r _ hSymbol.1
    rwa [IsGranted, hSymbol.1]

/-- To the symbol of a request with a spelling some spelling was granted. -/
theorem exists_isGranted (hMem : x ∈ requests) (hSpelling : x.spelling ≠ []) :
    ∃ r : Registration, r.IsGranted requests ∧ r.symbol = x.symbol := by
  by_contra hNone
  have hFirst := find?_eq_none_iff.mpr fun r hGranted hSymbol => hNone ⟨r, hGranted, hSymbol⟩
  have hLater := List.find?_eq_none.mp hFirst x hMem
  simp [hSpelling] at hLater

/-- One more request is granted if it has a spelling and none was granted for its symbol. -/
theorem isGranted_concat : q.IsGranted (requests ++ [x]) ↔
    q.IsGranted requests ∨
      q = x ∧ x.spelling ≠ [] ∧ ∀ r : Registration, r.IsGranted requests → r.symbol ≠ x.symbol := by
  rw [← find?_eq_none_iff, IsGranted, List.find?_append, Option.or_eq_some_iff]
  apply or_congr_right
  rw [List.find?_singleton]
  constructor
  · rintro ⟨hNone, hLast⟩
    split at hLast
    · next hFits =>
      cases hLast
      simp_all
    · cases hLast
  · rintro ⟨rfl, hSpelling, hNone⟩
    simp [hNone, hSpelling]

/-- A request that is granted after the others is not among them. -/
theorem not_mem_of_isGranted (hSpelling : x.spelling ≠ [])
    (hNew : ∀ r : Registration, r.IsGranted requests → r.symbol ≠ x.symbol) : x ∉ requests := by
  intro hMem
  obtain ⟨r, hGranted, hSymbol⟩ := exists_isGranted hMem hSpelling
  exact hNew r hGranted hSymbol

/-- Later requests do not change which of two comes first. -/
theorem Outranks.append (h : r.Outranks requests q) (hr : r ∈ requests) (hq : q ∈ requests)
    (later : List Registration) : r.Outranks (requests ++ later) q := by
  unfold Outranks
  rw [List.idxOf_append_of_mem hr, List.idxOf_append_of_mem hq]
  exact h

/-- A request stands behind the earlier ones that are at least as long. -/
theorem outranks_last (hr : r ∈ requests) (hx : x ∉ requests)
    (hLength : x.spelling.length ≤ r.spelling.length) : r.Outranks (requests ++ [x]) x := by
  have hBefore : (requests ++ [x]).idxOf r < (requests ++ [x]).idxOf x := by
    rw [List.idxOf_append_of_mem hr, List.idxOf_append_of_notMem hx]
    exact Nat.lt_add_right _ (List.idxOf_lt_length_of_mem hr)
  rcases Nat.lt_or_eq_of_le hLength with hShorter | hEqual
  · exact .inl hShorter
  · exact .inr ⟨hEqual, hBefore⟩

theorem Outranks.length_le (h : r.Outranks requests q) :
    q.spelling.length ≤ r.spelling.length := by
  rcases h with hShorter | ⟨hEqual, -⟩
  · exact Nat.le_of_lt hShorter
  · exact Nat.le_of_eq hEqual

/-- Of two different requests one comes before the other. -/
theorem Outranks.total (hr : r ∈ requests) (h : r ≠ q) :
    r.Outranks requests q ∨ q.Outranks requests r := by
  have hPlaces : requests.idxOf r ≠ requests.idxOf q := by
    intro hSame
    exact h ((List.idxOf_inj hr).mp hSame)
  unfold Outranks
  omega

theorem Outranks.asymm (h : r.Outranks requests q) : ¬q.Outranks requests r := by
  unfold Outranks at *
  omega

/-- Of two spellings of one text, the one that was requested first comes first. -/
theorem Spells.outranks_iff (h : q.Spells r.spelling) :
    q.Outranks requests r ↔ requests.idxOf q < requests.idxOf r := by
  have hLength := h.length_eq
  unfold Outranks
  omega

/-- A spelling that stands in front of another comes before it only if it is all of the other. -/
theorem fits_and_outranks_iff : q.Fits r.spelling ∧ q.Outranks requests r ↔
    q.Spells r.spelling ∧ requests.idxOf q < requests.idxOf r := by
  constructor
  · rintro ⟨hFits, hRank⟩
    have hSpells := hFits.spells hRank.length_le
    exact ⟨hSpells, hSpells.outranks_iff.mp hRank⟩
  · rintro ⟨hSpells, hEarlier⟩
    exact ⟨hSpells.fits, hSpells.outranks_iff.mpr hEarlier⟩

variable {stands : Registration → Prop}

/-- A search comes to one request first. -/
theorem Leads.unique (h : r.Leads requests stands) (h' : q.Leads requests stands) : r = q := by
  by_contra hOther
  exact (h.outranks q h'.granted h'.holds (Ne.symm hOther)).asymm
    (h'.outranks r h.granted h.holds hOther)

/-- It is the one that none comes before. -/
theorem leads_iff (hGranted : r.IsGranted requests) (hHolds : stands r) :
    r.Leads requests stands ↔
      ∀ q : Registration, q.IsGranted requests → stands q → ¬q.Outranks requests r := by
  constructor
  · intro hLeads q hq hThere hRank
    by_cases hSame : q = r
    · exact (hSame ▸ hRank).asymm (hSame ▸ hRank)
    · exact hRank.asymm (hLeads.outranks q hq hThere hSame)
  · intro hNone
    refine ⟨hGranted, hHolds, fun q hq hThere hOther => ?_⟩
    exact (Outranks.total hGranted.mem (Ne.symm hOther)).resolve_right (hNone q hq hThere)

end Registration

namespace Punctuator

variable {p : Punctuator}

theorem startsText_iff {text : List Char} :
    p.startsText text = true ↔ p.registration.Fits text := by
  obtain ⟨symbol, spelling, ignoreCase, length, hSpelling, hLength⟩ := p
  simp only [startsText, Registration.Fits, Registration.Spells, registration]
  cases ignoreCase with
  | true => simp [Text.startsWithUpToCase, Text.agreesUpToCase]
  | false =>
      simp only [Bool.false_eq_true, if_false, List.isPrefixOf_iff_prefix,
        List.prefix_iff_eq_take]
      exact eq_comm

theorem spells_iff {word : List Char} : p.spells word = true ↔ p.registration.Spells word := by
  obtain ⟨symbol, spelling, ignoreCase, length, hSpelling, hLength⟩ := p
  simp only [spells, Registration.Spells, registration]
  cases ignoreCase with
  | true => simp [Text.agreesUpToCase]
  | false => simp

end Punctuator

namespace PunctuatorSet

variable {s : PunctuatorSet} {requests : List Registration} {r x : Registration}

/-- The set after some requests. -/
def insertAll (s : PunctuatorSet) (requests : List Registration) : PunctuatorSet :=
  requests.foldl (fun s r => s.insert r.symbol r.spelling r.ignoreCase) s

/-- A set is what some requests make of the empty set: it has an entry for each that was granted,
in the order of a search. -/
structure Records (s : PunctuatorSet) (requests : List Registration) : Prop where
  granted (r : Registration) : (∃ p ∈ s.entries, p.registration = r) ↔ r.IsGranted requests
  ranked : s.entries.Pairwise fun p q => p.registration.Outranks requests q.registration

theorem Records.mem (h : s.Records requests) {p : Punctuator} (hMem : p ∈ s.entries) :
    p.registration ∈ requests :=
  ((h.granted _).mp ⟨p, hMem, rfl⟩).mem

/-- The symbols that were granted a spelling are those that the set contains. -/
theorem Records.contains_iff (h : s.Records requests) {symbol : Symbol} :
    s.contains symbol = true ↔ ∃ r : Registration, r.IsGranted requests ∧ r.symbol = symbol := by
  rw [contains_eq_true_iff]
  constructor
  · rintro ⟨p, hMem, hSymbol⟩
    exact ⟨p.registration, (h.granted _).mp ⟨p, hMem, rfl⟩, hSymbol⟩
  · rintro ⟨r, hGranted, hSymbol⟩
    obtain ⟨p, hMem, rfl⟩ := (h.granted r).mpr hGranted
    exact ⟨p, hMem, hSymbol⟩

theorem records_empty : empty.Records [] := by
  constructor
  · simp [empty, Registration.IsGranted]
  · exact .nil

/-- A request that is not granted leaves the set as it is. -/
theorem Records.refuse (h : s.Records requests)
    (hRefused : x.spelling = [] ∨ ∃ r : Registration, r.IsGranted requests ∧ r.symbol = x.symbol) :
    s.Records (requests ++ [x]) := by
  constructor
  · intro r
    rw [h.granted, Registration.isGranted_concat, iff_self_or]
    rintro ⟨rfl, hSpelling, hNew⟩
    rcases hRefused with hNone | ⟨q, hGranted, hSymbol⟩
    · exact absurd hNone hSpelling
    · exact absurd hSymbol (hNew q hGranted)
  · apply h.ranked.imp_of_mem
    intro p q hp hq hRank
    exact hRank.append (h.mem hp) (h.mem hq) [x]

/-- A request that is granted gets the place that its length and its time give it. -/
theorem Records.add (h : s.Records requests) (p : Punctuator)
    (hNew : ¬s.contains p.symbol = true) :
    (s.add p hNew).Records (requests ++ [p.registration]) := by
  have hUnknown (r : Registration) (hGranted : r.IsGranted requests) : r.symbol ≠ p.symbol :=
    fun hSymbol => hNew (h.contains_iff.mpr ⟨r, hGranted, hSymbol⟩)
  have hFresh : p.registration ∉ requests :=
    Registration.not_mem_of_isGranted p.spelling_ne_nil hUnknown
  constructor
  · intro r
    have hOneMore : r.IsGranted (requests ++ [p.registration]) ↔
        r.IsGranted requests ∨ p.registration = r := by
      rw [Registration.isGranted_concat, eq_comm]
      exact or_congr_right ⟨And.left, fun hSame => ⟨hSame, p.spelling_ne_nil, hUnknown⟩⟩
    simp only [entries_add, (p.placeIn_perm s.entries).mem_iff, List.mem_cons, exists_eq_or_imp,
      h.granted, hOneMore]
    exact or_comm
  · have hKept : s.entries.Pairwise fun q q' =>
        q.registration.Outranks (requests ++ [p.registration]) q'.registration := by
      apply h.ranked.imp_of_mem
      intro q q' hq hq' hRank
      exact hRank.append (h.mem hq) (h.mem hq') _
    apply Punctuator.pairwise_placeIn s.sorted hKept
    · intro q hMem hLength
      rw [p.length_eq, q.length_eq] at hLength
      exact Registration.outranks_last (h.mem hMem) hFresh hLength
    · intro q hMem hLength
      rw [p.length_eq, q.length_eq] at hLength
      exact .inl hLength

/-- One more request, granted or not. -/
theorem Records.insert (h : s.Records requests) (x : Registration) :
    (s.insert x.symbol x.spelling x.ignoreCase).Records (requests ++ [x]) := by
  unfold PunctuatorSet.insert insert?
  split
  · next hNone => exact h.refuse (.inl hNone)
  · next hSpelling =>
    split
    · next hKnown => exact h.refuse (.inr (h.contains_iff.mp hKnown))
    · next hNew =>
      exact h.add ⟨x.symbol, x.spelling, x.ignoreCase, x.spelling.length, hSpelling, rfl⟩ hNew

/-- Whatever is requested of the empty set, and in whatever order, the set records it. -/
theorem records_insertAll (requests : List Registration) :
    (empty.insertAll requests).Records requests := by
  induction requests using List.reverseRecOn with
  | nil => exact records_empty
  | append_singleton requests x ih =>
      rw [insertAll, List.foldl_append]
      exact ih.insert x

variable {accepts : Punctuator → Bool} {stands : Registration → Prop}

/-- Of the entries that a search accepts, it finds the one that comes before all others. -/
theorem Records.leads_of_find? (h : s.Records requests)
    (hStands : ∀ p, accepts p = true ↔ stands p.registration) {p : Punctuator}
    (hFound : s.entries.find? accepts = some p) : p.registration.Leads requests stands := by
  obtain ⟨hAccepts, before, after, hEntries, hBefore⟩ :=
    List.find?_eq_some_iff_append.mp hFound
  have hRanked := h.ranked
  rw [hEntries, List.pairwise_append, List.pairwise_cons] at hRanked
  refine ⟨(h.granted _).mp ⟨p, by simp [hEntries], rfl⟩, (hStands p).mp hAccepts, ?_⟩
  intro r hGranted hThere hOther
  obtain ⟨q, hMem, rfl⟩ := (h.granted r).mpr hGranted
  rw [hEntries, List.mem_append, List.mem_cons] at hMem
  rcases hMem with hEarlier | rfl | hLater
  · have hRefused : accepts q = false := by simpa using hBefore q hEarlier
    rw [← hStands, hRefused] at hThere
    cases hThere
  · exact absurd rfl hOther
  · exact hRanked.2.1.1 q hLater

/-- A search finds nothing if no request with the property was granted. -/
theorem Records.find?_eq_none_iff (h : s.Records requests)
    (hStands : ∀ p, accepts p = true ↔ stands p.registration) :
    s.entries.find? accepts = none ↔ ∀ r : Registration, r.IsGranted requests → ¬stands r := by
  rw [List.find?_eq_none]
  constructor
  · intro hNone r hGranted hThere
    obtain ⟨p, hMem, rfl⟩ := (h.granted r).mpr hGranted
    exact hNone p hMem ((hStands p).mpr hThere)
  · intro hNone p hMem hAccepts
    exact hNone p.registration ((h.granted _).mp ⟨p, hMem, rfl⟩) ((hStands p).mp hAccepts)

/-- What a search finds is the request that it comes to first. -/
theorem Records.find?_iff (h : s.Records requests)
    (hStands : ∀ p, accepts p = true ↔ stands p.registration) {r : Registration} :
    (∃ p, s.entries.find? accepts = some p ∧ p.registration = r) ↔ r.Leads requests stands := by
  constructor
  · rintro ⟨p, hFound, rfl⟩
    exact h.leads_of_find? hStands hFound
  · intro hLeads
    cases hFound : s.entries.find? accepts with
    | none => exact absurd hLeads.holds ((h.find?_eq_none_iff hStands).mp hFound r hLeads.granted)
    | some p => exact ⟨p, rfl, (h.leads_of_find? hStands hFound).unique hLeads⟩

theorem accepts_exact_iff {word : List Char} (p : Punctuator) :
    (!p.ignoreCase && p.spells word) = true ↔ p.registration.SpellsBy false word := by
  rw [Bool.and_eq_true, Bool.not_eq_true', Punctuator.spells_iff]
  rfl

theorem accepts_any_case_iff {word : List Char} (p : Punctuator) :
    (p.ignoreCase && p.spells word) = true ↔ p.registration.SpellsBy true word := by
  rw [Bool.and_eq_true, Punctuator.spells_iff]
  rfl

/-- The spellings of a word that mind the case are searched first, and then those that do not. -/
theorem Records.findSpelling?_iff (h : s.Records requests) {word : List Char} {symbol : Symbol} :
    s.findSpelling? word = some symbol ↔
      ∃ r : Registration, r.symbol = symbol ∧
        (r.Leads requests (Registration.SpellsBy false word) ∨
          (∀ q : Registration, q.IsGranted requests → ¬q.SpellsBy false word) ∧
            r.Leads requests (Registration.SpellsBy true word)) := by
  simp only [findSpelling?, Option.map_eq_some_iff, Option.or_eq_some_iff,
    ← h.find?_iff accepts_exact_iff, ← h.find?_iff accepts_any_case_iff,
    ← h.find?_eq_none_iff accepts_exact_iff]
  constructor
  · rintro ⟨p, hFound | ⟨hNone, hFound⟩, rfl⟩
    · exact ⟨p.registration, rfl, .inl ⟨p, hFound, rfl⟩⟩
    · exact ⟨p.registration, rfl, .inr ⟨hNone, p, hFound, rfl⟩⟩
  · rintro ⟨-, rfl, ⟨p, hFound, rfl⟩ | ⟨hNone, p, hFound, rfl⟩⟩
    · exact ⟨p, .inl hFound, rfl⟩
    · exact ⟨p, .inr ⟨hNone, hFound⟩, rfl⟩

end PunctuatorSet

end Precedence
