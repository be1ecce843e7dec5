import Precedence.Diagnostic.Document

/-!
Errors among messages. Messages are never withdrawn, so once there is an error there always is one,
and there is one as soon as the count of errors is not zero.
-/
namespace Precedence.Diagnostics

theorem hasErrors_iff (d : Diagnostics) :
    d.hasErrors = true ↔ ∃ m ∈ d.toList, m.isError = true := by
  rw [hasErrors, ← Array.any_toList, List.any_eq_true]
  rfl

/-- Errors that have been reported stay. -/
theorem hasErrors_of_prefix {d d' : Diagnostics} (hGrows : d.toList <+: d'.toList)
    (h : d.hasErrors = true) : d'.hasErrors = true := by
  rw [hasErrors_iff] at h ⊢
  obtain ⟨m, hMem, hError⟩ := h
  exact ⟨m, hGrows.subset hMem, hError⟩

/-- A count of errors above zero means that an error was reported. -/
theorem hasErrors_of_errorCount_pos {d : Diagnostics} (h : 0 < d.errorCount) :
    d.hasErrors = true := by
  cases hErrors : d.hasErrors with
  | true => rfl
  | false =>
      have hClean : ∀ m ∈ d.messages.toList, ¬m.severity = .error := by
        intro m hMem hError
        have hSome := (d.hasErrors_iff).mpr ⟨m, hMem, by simp [Message.isError, hError]⟩
        rw [hErrors] at hSome
        cases hSome
      have hCount : ∀ ms : List Message, (∀ m ∈ ms, ¬m.severity = .error) →
          ms.foldl (fun n m => if m.severity = .error then n + 1 else n) 0 = 0 := by
        intro ms hms
        induction ms with
        | nil => rfl
        | cons m ms ih =>
            rw [List.foldl_cons, if_neg (hms m List.mem_cons_self)]
            exact ih fun m hm => hms m (List.mem_cons_of_mem _ hm)
      rw [errorCount, count, ← Array.foldl_toList, hCount _ hClean] at h
      exact absurd h (Nat.lt_irrefl 0)

end Precedence.Diagnostics
