import Precedence.Proofs.Lexer.Tokens
import Precedence.Proofs.Session.Use

/-!
Runs in which nothing is reported. Messages are only ever added, so such a run is quiet throughout.
It meets no invalid token either, provided that the invalid tokens still to come are reported when
they are looked at.
-/
namespace Precedence

theorem Diagnostics.ext_toList {d d' : Diagnostics} (h : d.toList = d'.toList) : d = d' := by
  cases d
  cases d'
  simpa [Diagnostics.toList] using h

namespace Session

variable {s t u : Session}

/-- The first part of what reports nothing reports nothing. -/
theorem Continues.quiet_left (h : s.Continues t) (h' : t.Continues u)
    (hQuiet : u.diagnostics = s.diagnostics) : t.diagnostics = s.diagnostics := by
  have hBack := h'.reported
  rw [hQuiet] at hBack
  exact Diagnostics.ext_toList (hBack.eq_of_length_le h.reported.length_le)

/-- Something is reported where a message is. -/
theorem Continues.diagnostics_report_ne (h : s.Continues t) (m : Message) :
    (t.report m).2.diagnostics ≠ s.diagnostics := by
  intro hSame
  have hLength := h.reported.length_le
  rw [← hSame] at hLength
  simp only [report, Diagnostics.push, Diagnostics.toList, Array.length_toList,
    Array.size_push] at hLength
  omega

/-- No invalid token has been looked at and is still there, and one that is looked at later will be
reported then. -/
structure Vigilant (s : Session) : Prop where
  ahead : ∀ token ∈ s.ahead, token.symbol ≠ .invalid
  upcoming : ∀ lexeme ∈ s.upcoming, lexeme.token.symbol = .invalid → lexeme.messages ≠ []
  ending : s.ending.symbol ≠ .invalid

/-- Nothing of a source has been looked at when it is opened, and the lexer reports each character
that starts no token. -/
theorem vigilant_ofSource {lx : Lexicon} (h : lx.IsOrdinary) (source : List Char) :
    (ofSource lx source).Vigilant := by
  obtain ⟨body, last, hAll, hLast, hBody⟩ := lx.exists_lexemes_eq source
  have hEnd : last.token.symbol ≠ .invalid := by
    rw [hLast]
    decide
  refine ⟨List.forall_mem_nil _, ?_, ?_⟩
  · simp only [ofSource, ofLexemes, hAll]
    refine List.forall_mem_cons.mpr ⟨fun hSof => ?_,
      List.forall_mem_append.mpr ⟨?_, List.forall_mem_singleton.mpr fun hInvalid => ?_⟩⟩
    · cases hSof
    · intro lexeme hMem hInvalid
      obtain ⟨c, hFound⟩ := hBody lexeme hMem
      rw [hFound.token] at hInvalid
      obtain ⟨m, hReported, -⟩ := (h.recognises c).reported_of_invalid hInvalid
      exact List.ne_nil_of_mem (hFound.messages hReported)
    · exact absurd hInvalid hEnd
  · simp only [ofSource, ofLexemes, hAll, List.getLast?_concat, Option.getD_some]
    exact hEnd

theorem Vigilant.reveal (h : s.Vigilant) (hQuiet : s.reveal.diagnostics = s.diagnostics) :
    s.reveal.Vigilant := by
  obtain ⟨hAhead, hLater, hEnding⟩ := h
  unfold Session.reveal at hQuiet ⊢
  split
  · exact ⟨List.forall_mem_append.mpr ⟨hAhead, List.forall_mem_singleton.mpr hEnding⟩, hLater,
      hEnding⟩
  · next lexeme rest hUpcoming =>
    rw [hUpcoming] at hQuiet hLater
    obtain ⟨hLexeme, hRest⟩ := List.forall_mem_cons.mp hLater
    refine ⟨List.forall_mem_append.mpr ⟨hAhead, List.forall_mem_singleton.mpr ?_⟩, hRest, hEnding⟩
    intro hInvalid
    apply hLexeme hInvalid
    have hSame := congrArg Diagnostics.toList hQuiet
    simpa [Diagnostics.toList, Diagnostics.append] using hSame

theorem Vigilant.revealMany {n : Nat} (h : s.Vigilant)
    (hQuiet : (s.revealMany n).diagnostics = s.diagnostics) : (s.revealMany n).Vigilant := by
  induction n generalizing s with
  | zero => exact h
  | succ n ih =>
      have hBack := s.reveal.reported_revealMany n
      have hFirst := s.reported_revealMany 1
      have hReveal : s.reveal.diagnostics = s.diagnostics := by
        refine Diagnostics.ext_toList ((List.IsPrefix.eq_of_length_le ?_ hFirst.length_le))
        rw [← hQuiet]
        exact hBack
      exact ih (h.reveal hReveal) (hQuiet.trans hReveal.symm)

/-- The next token is valid if nothing is reported when it is looked at. -/
theorem Vigilant.peeked (h : s.Vigilant) (hQuiet : s.peeked.diagnostics = s.diagnostics) :
    s.peeked.Vigilant :=
  Vigilant.revealMany h hQuiet

theorem Vigilant.head_ne (h : s.Vigilant) (hQuiet : s.peeked.diagnostics = s.diagnostics) :
    s.coming.head.symbol ≠ .invalid := by
  obtain ⟨rest, hAhead⟩ := s.ahead_peeked
  apply (h.peeked hQuiet).ahead
  rw [hAhead]
  exact List.mem_cons_self

@[simp] theorem diagnostics_consume (s : Session) :
    s.consume.2.diagnostics = s.peeked.diagnostics := by
  rw [consume_eq]

theorem Vigilant.consume (h : s.Vigilant) (hQuiet : s.consume.2.diagnostics = s.diagnostics) :
    s.consume.2.Vigilant := by
  rw [diagnostics_consume] at hQuiet
  obtain ⟨hAhead, hUpcoming, hEnding⟩ := h.peeked hQuiet
  rw [consume_eq]
  exact ⟨fun token hMem => hAhead token (List.mem_of_mem_drop hMem), hUpcoming, hEnding⟩

theorem Vigilant.use (h : s.Vigilant) (hUse : s.Use t) (hQuiet : t.diagnostics = s.diagnostics) :
    t.Vigilant := by
  cases hUse with
  | lookahead place => exact h.revealMany hQuiet
  | consume => exact h.consume hQuiet
  | work hContinues hAhead hUpcoming =>
      exact ⟨hAhead ▸ h.ahead, hUpcoming ▸ h.upcoming, hContinues.ending ▸ h.ending⟩

/-- Whatever is done with a session, it meets no invalid token as long as nothing is reported. -/
theorem Vigilant.uses (h : s.Vigilant) (hUses : s.Uses t)
    (hQuiet : t.diagnostics = s.diagnostics) : t.Vigilant := by
  induction hUses with
  | refl => exact h
  | tail hUses hLast ih =>
      have hBefore := (Uses.continues hUses).quiet_left hLast.continues hQuiet
      exact (ih hBefore).use hLast (hQuiet.trans hBefore.symm)

/-- Whatever has been reported, the invalid tokens to come are met with a report once all tokens
that have been looked at are consumed. -/
theorem Vigilant.of_ahead_eq_nil (h : s.Vigilant) (hUses : s.Uses t) (hAhead : t.ahead = []) :
    t.Vigilant := by
  refine ⟨?_, fun lexeme hMem => h.upcoming lexeme (hUses.upcoming.subset hMem), ?_⟩
  · rw [hAhead]
    exact List.forall_mem_nil _
  · rw [hUses.continues.ending]
    exact h.ending

/-- Nothing is reported on the way from one session to another, and the invalid tokens on it would
be. -/
structure Quiet (s t : Session) : Prop where
  vigilant : s.Vigilant
  same : t.diagnostics = s.diagnostics

theorem Quiet.of_same (h : s.Quiet t) (hSame : t.diagnostics = u.diagnostics) : s.Quiet u :=
  ⟨h.vigilant, hSame.symm.trans h.same⟩

end Session

namespace Grammar

open Session

variable {g : Grammar} {s t : Session}

/-- Both parts of a quiet run are quiet. -/
theorem Run.split {u : Session} (hFirst : g.Run s u) (hLast : g.Run u t) (h : s.Quiet t) :
    s.Quiet u ∧ u.Quiet t := by
  have hSame := (Run.continues hFirst).quiet_left (Run.continues hLast) h.same
  exact ⟨⟨h.vigilant, hSame⟩, ⟨h.vigilant.uses (Run.uses hFirst) hSame, h.same.trans hSame.symm⟩⟩

/-- A token that is wanted has been consumed if nothing is reported. -/
theorem expect_of_quiet {wanted : Symbol} (h : s.Quiet (s.expect g.symbols wanted).2) :
    s.coming.head.symbol = wanted ∧ (s.expect g.symbols wanted).2 = s.consume.2 := by
  have hSame := h.same
  rw [expect_eq] at hSame ⊢
  split
  · next hFound => exact ⟨hFound, rfl⟩
  · next hMissing =>
    rw [if_neg hMissing] at hSame
    dsimp only at hSame
    split at hSame
    · next hInvalid => exact absurd hInvalid (h.vigilant.head_ne hSame)
    · exact absurd hSame (s.continues_peeked.diagnostics_report_ne _)

end Grammar

end Precedence
