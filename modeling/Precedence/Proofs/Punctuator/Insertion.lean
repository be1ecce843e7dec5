import Precedence.Proofs.Punctuator.History

/-!
What a set of spellings shows of the insertions that made it. The entries are those of the accepted
insertions: put in order by their lengths alone, so that of two equally long ones the earlier stays
in front, and found through the index by their symbols. Putting a new entry in its place is the same
as sorting all entries again.
-/
namespace Precedence

namespace Punctuator

variable {entries others : List Punctuator}

/-- An entry that is put in its place stands behind the others of its length. -/
theorem filter_placeIn (hSorted : entries.Pairwise fun p q => q.length ≤ p.length)
    (p : Punctuator) (n : Nat) :
    (p.placeIn entries).filter (·.length == n) =
      entries.filter (·.length == n) ++ [p].filter (·.length == n) := by
  have hParts := List.takeWhile_append_dropWhile (l := entries) (p := fun q => p.length ≤ q.length)
  rw [placeIn, ← List.singleton_append, List.filter_append, List.filter_append]
  by_cases hLength : p.length = n
  · have hBehind :
        (entries.dropWhile fun q => p.length ≤ q.length).filter (·.length == n) = [] := by
      rw [List.filter_eq_nil_iff]
      intro q hMem hSame
      have hLess := length_lt_of_mem_dropWhile hSorted hMem
      have hEqual : q.length = n := by simpa using hSame
      omega
    rw [hBehind, List.append_nil]
    conv_rhs => rw [← hParts, List.filter_append, hBehind, List.append_nil]
  · have hOther : [p].filter (·.length == n) = [] := by simp [hLength]
    rw [hOther, List.append_nil, List.nil_append, ← List.filter_append, hParts]

theorem mem_iff_of_filter_eq
    (h : ∀ n, entries.filter (·.length == n) = others.filter (·.length == n)) (p : Punctuator) :
    p ∈ entries ↔ p ∈ others := by
  have hSame := congrArg (p ∈ ·) (h p.length)
  simpa using hSame

/-- Of entries in order the first is at least as long as any. -/
theorem length_le_head {p q : Punctuator}
    (hSorted : (q :: entries).Pairwise fun p q => q.length ≤ p.length) (hMem : p ∈ q :: entries) :
    p.length ≤ q.length := by
  rcases List.mem_cons.mp hMem with rfl | hLater
  · exact Nat.le_refl _
  · exact List.rel_of_pairwise_cons hSorted hLater

/-- Entries in order are settled by the order of those of each length. -/
theorem eq_of_filter_eq (hSorted : entries.Pairwise fun p q => q.length ≤ p.length)
    (hOthers : others.Pairwise fun p q => q.length ≤ p.length)
    (h : ∀ n, entries.filter (·.length == n) = others.filter (·.length == n)) :
    entries = others := by
  induction entries generalizing others with
  | nil =>
      rw [eq_comm, List.eq_nil_iff_forall_not_mem]
      exact fun q hMem => List.not_mem_nil ((mem_iff_of_filter_eq h q).mpr hMem)
  | cons p entries ih =>
      have hMem := mem_iff_of_filter_eq h
      cases others with
      | nil => exact absurd ((hMem p).mp List.mem_cons_self) List.not_mem_nil
      | cons q others =>
          have hLength : q.length = p.length :=
            Nat.le_antisymm (length_le_head hSorted ((hMem q).mpr List.mem_cons_self))
              (length_le_head hOthers ((hMem p).mp List.mem_cons_self))
          have hHeads := h p.length
          simp only [List.filter_cons, hLength, BEq.rfl, if_true] at hHeads
          obtain ⟨rfl, hTails⟩ := List.cons.inj hHeads
          congr 1
          apply ih hSorted.tail hOthers.tail
          intro n
          by_cases hSame : p.length = n
          · exact hSame ▸ hTails
          · simpa [hSame] using h n

theorem length_le_trans (p q r : Punctuator) (h : decide (q.length ≤ p.length) = true)
    (h' : decide (r.length ≤ q.length) = true) : decide (r.length ≤ p.length) = true :=
  decide_eq_true (Nat.le_trans (of_decide_eq_true h') (of_decide_eq_true h))

theorem length_le_total (p q : Punctuator) :
    (decide (q.length ≤ p.length) || decide (p.length ≤ q.length)) = true := by
  simpa using Nat.le_total q.length p.length

/-- Sorting by length keeps the order of the entries of each length. -/
theorem filter_mergeSort (entries : List Punctuator) (n : Nat) :
    (entries.mergeSort fun p q => q.length ≤ p.length).filter (·.length == n) =
      entries.filter (·.length == n) := by
  have hOneLength : (entries.filter (·.length == n)).Pairwise fun p q =>
      decide (q.length ≤ p.length) = true := by
    rw [List.pairwise_filter]
    apply List.pairwise_of_forall
    intro p q hp hq
    rw [beq_iff_eq] at hp hq
    exact decide_eq_true (Nat.le_of_eq (hq.trans hp.symm))
  have hKept := (List.sublist_mergeSort length_le_trans length_le_total hOneLength
    List.filter_sublist).filter (·.length == n)
  have hCount := ((List.mergeSort_perm entries fun p q => q.length ≤ p.length).filter
    (·.length == n)).length_eq
  simp only [List.filter_filter, Bool.and_self] at hKept
  exact (hKept.eq_of_length hCount.symm).symm

/-- Putting an entry in its place is the same as sorting all entries again, with it at the end. -/
theorem placeIn_eq_mergeSort (hSorted : entries.Pairwise fun p q => q.length ≤ p.length)
    (p : Punctuator) :
    p.placeIn entries = (entries ++ [p]).mergeSort fun p q => q.length ≤ p.length := by
  apply eq_of_filter_eq (sorted_placeIn hSorted p)
  · have hAll := List.pairwise_mergeSort length_le_trans length_le_total (entries ++ [p])
    exact hAll.imp of_decide_eq_true
  · intro n
    rw [filter_placeIn hSorted, filter_mergeSort, List.filter_append]

end Punctuator

namespace PunctuatorSet

variable {s : PunctuatorSet} {x : Registration}

/-- Whether a set accepts a request. -/
def accepts (s : PunctuatorSet) (x : Registration) : Bool :=
  (s.insert? x.symbol x.spelling x.ignoreCase).isSome

/-- Of requests that are made one behind the other, those that are accepted. -/
def accepted (s : PunctuatorSet) : List Registration → List Registration
  | [] => []
  | x :: requests =>
    let later := (s.insert x.symbol x.spelling x.ignoreCase).accepted requests
    if s.accepts x then x :: later else later

/-! ### One insertion -/

theorem accepts_iff :
    s.accepts x = true ↔ x.spelling ≠ [] ∧ s.contains x.symbol = false := by
  unfold accepts insert?
  split
  · next hNone => simp [hNone]
  · next hSpelling =>
    split
    · next hKnown => simp [hKnown]
    · next hNew => simpa [hSpelling] using hNew

theorem insert_of_accepts_eq_false (h : s.accepts x = false) :
    s.insert x.symbol x.spelling x.ignoreCase = s := by
  rw [accepts, Option.isSome_eq_false_iff, Option.isNone_iff_eq_none] at h
  rw [insert, h, Option.getD_none]

theorem insert_of_accepts (h : s.accepts x = true) : ∃ (p : Punctuator) (hNew : _),
    p.registration = x ∧ s.insert x.symbol x.spelling x.ignoreCase = s.add p hNew := by
  obtain ⟨hSpelling, hNew⟩ := accepts_iff.mp h
  have hNew : ¬s.contains x.symbol = true := by simp [hNew]
  refine ⟨⟨x.symbol, x.spelling, x.ignoreCase, x.spelling.length, hSpelling, rfl⟩, hNew, rfl, ?_⟩
  rw [insert, insert?, dif_neg hSpelling, dif_neg hNew, Option.getD_some]

/-- The entry of an accepted request is put at the end, and then all entries are sorted. -/
theorem entries_insert_of_accepts (h : s.accepts x = true) : ∃ p : Punctuator,
    p.registration = x ∧ (s.insert x.symbol x.spelling x.ignoreCase).entries =
      (s.entries ++ [p]).mergeSort fun p q => q.length ≤ p.length := by
  obtain ⟨p, hNew, hRequest, hSet⟩ := insert_of_accepts h
  exact ⟨p, hRequest, by rw [hSet, entries_add, Punctuator.placeIn_eq_mergeSort s.sorted]⟩

/-- The requests behind the entries of one length. -/
def ofLength (s : PunctuatorSet) (n : Nat) : List Registration :=
  (s.entries.filter (·.length == n)).map (·.registration)

theorem ofLength_insert (n : Nat) :
    (s.insert x.symbol x.spelling x.ignoreCase).ofLength n =
      s.ofLength n ++ (s.accepted [x]).filter (·.spelling.length == n) := by
  cases h : s.accepts x with
  | false => simp [accepted, insert_of_accepts_eq_false h, h]
  | true =>
      obtain ⟨p, hNew, rfl, hSet⟩ := insert_of_accepts h
      have hLength : p.length = p.registration.spelling.length := p.length_eq
      rw [hSet, ofLength, entries_add, Punctuator.filter_placeIn s.sorted, List.map_append]
      by_cases hSame : p.length = n
      · simp [accepted, h, hSame, ← hLength, ofLength]
      · simp [accepted, h, hSame, ← hLength, ofLength]

theorem find?_of_not_contains (symbol : Symbol) (h : ¬s.contains symbol = true) :
    s.find? symbol = none := by
  rw [Option.eq_none_iff_forall_ne_some]
  intro p hFound
  exact h (contains_eq_true_iff.mpr ⟨p, find?_eq_some_iff.mp hFound⟩)

theorem find?_add_self (p : Punctuator) (hNew : ¬s.contains p.symbol = true) :
    (s.add p hNew).find? p.symbol = some p := by
  rw [find?_eq_some_iff, entries_add, (p.placeIn_perm s.entries).mem_iff]
  exact ⟨List.mem_cons_self, rfl⟩

theorem find?_add_of_ne (p : Punctuator) (hNew : ¬s.contains p.symbol = true) {symbol : Symbol}
    (hOther : p.symbol ≠ symbol) : (s.add p hNew).find? symbol = s.find? symbol := by
  ext q
  rw [find?_eq_some_iff, find?_eq_some_iff, entries_add, (p.placeIn_perm s.entries).mem_iff,
    List.mem_cons]
  apply and_congr_left
  rintro rfl
  exact or_iff_right fun hSame => hOther (hSame ▸ rfl)

/-- A symbol is found as before, or, if it was unknown, with the request that was accepted for
it. -/
theorem find?_insert (symbol : Symbol) :
    ((s.insert x.symbol x.spelling x.ignoreCase).find? symbol).map (·.registration) =
      ((s.find? symbol).map (·.registration)).or
        ((s.accepted [x]).find? (·.symbol == symbol)) := by
  cases h : s.accepts x with
  | false => simp [accepted, insert_of_accepts_eq_false h, h]
  | true =>
      obtain ⟨p, hNew, rfl, hSet⟩ := insert_of_accepts h
      have hOne : s.accepted [p.registration] = [p.registration] := if_pos h
      have hSymbol : p.registration.symbol = p.symbol := rfl
      rw [hSet, hOne]
      by_cases hSame : p.symbol = symbol
      · subst hSame
        simp [find?_add_self, find?_of_not_contains _ hNew, hSymbol]
      · simp [find?_add_of_ne p hNew hSame, hSymbol, hSame]

/-! ### All insertions -/

theorem accepted_cons (x : Registration) (requests : List Registration) :
    s.accepted (x :: requests) = s.accepted [x] ++
      (s.insert x.symbol x.spelling x.ignoreCase).accepted requests := by
  cases h : s.accepts x with
  | false => simp [accepted, h]
  | true => simp [accepted, h]

theorem ofLength_insertAll (s : PunctuatorSet) (requests : List Registration) (n : Nat) :
    (s.insertAll requests).ofLength n =
      s.ofLength n ++ (s.accepted requests).filter (·.spelling.length == n) := by
  induction requests generalizing s with
  | nil => simp [insertAll, accepted]
  | cons x requests ih =>
      have hRest := ih (s.insert x.symbol x.spelling x.ignoreCase)
      rw [ofLength_insert, List.append_assoc, ← List.filter_append, ← accepted_cons] at hRest
      exact hRest

theorem find?_insertAll (s : PunctuatorSet) (requests : List Registration) (symbol : Symbol) :
    ((s.insertAll requests).find? symbol).map (·.registration) =
      ((s.find? symbol).map (·.registration)).or
        ((s.accepted requests).find? (·.symbol == symbol)) := by
  induction requests generalizing s with
  | nil => simp [insertAll, accepted]
  | cons x requests ih =>
      have hRest := ih (s.insert x.symbol x.spelling x.ignoreCase)
      rw [find?_insert, Option.or_assoc, ← List.find?_append, ← accepted_cons] at hRest
      exact hRest

/-- What a set shows of the insertions that it accepted: their entries and the order of these, what
is found for a symbol, and what one more insertion does. -/
structure Represents (s : PunctuatorSet) (accepted : List Registration) : Prop where
  /-- The longest entries come first. -/
  sorted : s.entries.Pairwise fun p q => q.length ≤ p.length
  /-- Entries of one length are those that were accepted of that length, in that order. -/
  stable (n : Nat) : (s.entries.filter (·.length == n)).map (·.registration) =
    accepted.filter (·.spelling.length == n)
  /-- The length kept with an entry is that of its spelling, which is not empty. -/
  length (p : Punctuator) : p ∈ s.entries → p.length = p.spelling.length ∧ p.spelling ≠ []
  /-- No symbol has two entries. -/
  distinct : s.entries.Pairwise fun p q => p.symbol ≠ q.symbol
  /-- The symbols that are known are those of the entries. -/
  contains (symbol : Symbol) : s.contains symbol = true ↔ ∃ p ∈ s.entries, p.symbol = symbol
  /-- Each symbol is found with its own entry, and no other is found. -/
  found (symbol : Symbol) (p : Punctuator) :
    s.find? symbol = some p ↔ p ∈ s.entries ∧ p.symbol = symbol
  /-- What is found for a symbol is what was accepted for it first. -/
  first (symbol : Symbol) :
    (s.find? symbol).map (·.registration) = accepted.find? (·.symbol == symbol)
  /-- An empty spelling is refused, and so is a symbol that is known. -/
  accepts (x : Registration) :
    s.accepts x = true ↔ x.spelling ≠ [] ∧ s.contains x.symbol = false
  /-- A further entry is put at the end, and all entries are sorted again. -/
  granted (x : Registration) : s.accepts x = true → ∃ p : Punctuator, p.registration = x ∧
    (s.insert x.symbol x.spelling x.ignoreCase).entries =
      (s.entries ++ [p]).mergeSort fun p q => q.length ≤ p.length
  /-- A refused insertion leaves the set as it is. -/
  refused (x : Registration) : s.accepts x = false →
    s.insert x.symbol x.spelling x.ignoreCase = s

/-- Whatever is inserted into the empty set, and in whatever order, the set represents the
insertions that it accepted. -/
theorem represents_insertAll (requests : List Registration) :
    (empty.insertAll requests).Represents (empty.accepted requests) := by
  have hLength := ofLength_insertAll empty requests
  have hFirst := find?_insertAll empty requests
  generalize empty.insertAll requests = s at hLength hFirst
  exact {
    sorted := s.sorted
    stable := hLength
    length := fun p _ => ⟨p.length_eq, p.spelling_ne_nil⟩
    distinct := s.distinct
    contains := fun _ => contains_eq_true_iff
    found := fun _ _ => find?_eq_some_iff
    first := hFirst
    accepts := fun _ => accepts_iff
    granted := fun _ => entries_insert_of_accepts
    refused := fun _ => insert_of_accepts_eq_false }

/-- Of two signs of one length the earlier comes first, and a second spelling is refused. -/
example : ((empty.insertAll [⟨⟨7⟩, ['<'], false⟩, ⟨⟨8⟩, ['→', '→'], false⟩, ⟨⟨9⟩, ['>'], true⟩,
    ⟨⟨7⟩, ['<', '<', '<'], false⟩]).entries.map (·.text)) = ["→→", "<", ">"] := by decide

end PunctuatorSet

end Precedence
