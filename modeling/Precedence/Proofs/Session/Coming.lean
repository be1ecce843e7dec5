import Mathlib.Data.Stream.Init
import Precedence.Parse.Session

/-!
The tokens still to come. Behind the last token the end is found as often as it is asked for, so
what a session has before it is an endless sequence. Looking ahead leaves that sequence alone and
changes nothing but what has been reported; consuming takes its head. Every operation on tokens is
described here by the sequence, so nothing else has to open the two lists that tokens are kept in.
-/
namespace Precedence.Session

/-- The tokens that consuming would find from here on, in order. -/
def coming (s : Session) : Stream' Token :=
  s.ahead ++ₛ (s.upcoming.map (·.token) ++ₛ Stream'.const s.ending)

/-- The tokens of a source come behind its start, and its end is found again and again. -/
theorem coming_ofSource {lx : Lexicon} {source : List Char} {body : List Lexeme} {last : Lexeme}
    (h : lx.lexemes source = body ++ [last]) :
    (ofSource lx source).coming =
      .cons (.empty .sof 0 .origin) (body.map (·.token) ++ₛ Stream'.const last.token) := by
  simp [ofSource, ofLexemes, coming, h, Stream'.append_append_stream, Stream'.cons_append_stream,
    ← Stream'.const_eq]

/-- Everything that has been reported, and then what the lexer has still to report. Only a report
of the parser's own changes it. -/
def log (s : Session) : List Message :=
  s.diagnostics.toList ++ s.upcoming.flatMap (·.messages)

/-- The session in which the next token has been looked at. -/
def peeked (s : Session) : Session := (s.lookahead 0).2

/-- Two sessions that differ at most in how far their tokens have been looked at. -/
structure Alike (s t : Session) : Prop where
  source : t.source = s.source
  ending : t.ending = s.ending
  previous : t.previous = s.previous
  arena : t.arena = s.arena
  record : t.record = s.record
  coming : t.coming = s.coming
  log : t.log = s.log

theorem Alike.refl (s : Session) : s.Alike s := ⟨rfl, rfl, rfl, rfl, rfl, rfl, rfl⟩

theorem Alike.trans {s t u : Session} (h : s.Alike t) (h' : t.Alike u) : s.Alike u :=
  ⟨h'.source.trans h.source, h'.ending.trans h.ending, h'.previous.trans h.previous,
    h'.arena.trans h.arena, h'.record.trans h.record, h'.coming.trans h.coming, h'.log.trans h.log⟩

/-! ### Looking ahead -/

theorem alike_reveal (s : Session) : s.Alike s.reveal := by
  cases hUpcoming : s.upcoming with
  | nil =>
      constructor <;>
        simp [reveal, coming, log, hUpcoming, Stream'.append_append_stream,
          Stream'.cons_append_stream, ← Stream'.const_eq]
  | cons lexeme rest =>
      constructor <;>
        simp [reveal, coming, log, hUpcoming, Stream'.append_append_stream,
          Stream'.cons_append_stream, Diagnostics.toList, Diagnostics.append]

theorem alike_revealMany (s : Session) (n : Nat) : s.Alike (s.revealMany n) := by
  induction n generalizing s with
  | zero => exact .refl s
  | succ n ih => exact s.alike_reveal.trans (ih s.reveal)

theorem alike_lookahead (s : Session) (n : Nat) : s.Alike (s.lookahead n).2 :=
  s.alike_revealMany _

/-- The tokens that have not been looked at become fewer from the front. -/
theorem upcoming_revealMany_suffix (s : Session) (n : Nat) :
    (s.revealMany n).upcoming <:+ s.upcoming := by
  induction n generalizing s with
  | zero => exact List.suffix_rfl
  | succ n ih =>
      refine (ih s.reveal).trans ?_
      unfold reveal
      split
      · exact List.suffix_rfl
      · next lexeme rest hUpcoming =>
        rw [hUpcoming]
        exact List.suffix_cons lexeme rest

theorem length_ahead_revealMany (s : Session) (n : Nat) :
    (s.revealMany n).ahead.length = s.ahead.length + n := by
  induction n generalizing s with
  | zero => rfl
  | succ n ih =>
      have hReveal : s.reveal.ahead.length = s.ahead.length + 1 := by
        unfold reveal
        split <;> simp
      rw [revealMany, ih, hReveal, Nat.add_right_comm, Nat.add_assoc]

/-- Looking ahead shows the token that consuming would find at that place. -/
theorem lookahead_fst (s : Session) (n : Nat) : (s.lookahead n).1 = s.coming.get n := by
  have hLength := s.length_ahead_revealMany (n + 1 - s.ahead.length)
  have hShown : n < (s.revealMany (n + 1 - s.ahead.length)).ahead.length := by omega
  rw [← (s.alike_revealMany (n + 1 - s.ahead.length)).coming]
  simp only [lookahead, coming, Stream'.get_append_left _ _ _ hShown,
    List.getElem?_eq_getElem hShown, Option.getD_some]

/-- Comparing tokens with symbols in order is looking ahead as well. -/
theorem alike_areAheadFrom (s : Session) (place : Nat) (symbols : List Symbol) :
    s.Alike (s.areAheadFrom place symbols).2 := by
  induction symbols generalizing s place with
  | nil => exact .refl s
  | cons symbol symbols ih =>
      have hLooked : s.Alike (s.isAhead symbol place).2 := s.alike_lookahead place
      rw [areAheadFrom]
      dsimp only
      split
      · exact hLooked.trans (ih _ _)
      · exact hLooked

theorem lookahead_zero (s : Session) : s.lookahead 0 = (s.coming.head, s.peeked) :=
  Prod.ext (s.lookahead_fst 0) rfl

theorem alike_peeked (s : Session) : s.Alike s.peeked := s.alike_lookahead 0

@[simp] theorem source_peeked (s : Session) : s.peeked.source = s.source := s.alike_peeked.source

@[simp] theorem ending_peeked (s : Session) : s.peeked.ending = s.ending := s.alike_peeked.ending

@[simp] theorem previous_peeked (s : Session) : s.peeked.previous = s.previous :=
  s.alike_peeked.previous

@[simp] theorem arena_peeked (s : Session) : s.peeked.arena = s.arena := s.alike_peeked.arena

@[simp] theorem coming_peeked (s : Session) : s.peeked.coming = s.coming := s.alike_peeked.coming

@[simp] theorem log_peeked (s : Session) : s.peeked.log = s.log := s.alike_peeked.log

/-- Once looked at, the next token is the first of those that have been looked at. -/
theorem ahead_peeked (s : Session) : ∃ rest, s.peeked.ahead = s.coming.head :: rest := by
  have hLength := s.length_ahead_revealMany (0 + 1 - s.ahead.length)
  cases hAhead : s.peeked.ahead with
  | nil =>
      have hEmpty : (s.revealMany (0 + 1 - s.ahead.length)).ahead.length = 0 :=
        List.length_eq_zero_iff.mpr hAhead
      omega
  | cons token rest =>
      refine ⟨rest, ?_⟩
      rw [← coming_peeked, coming, hAhead, Stream'.cons_append_stream, Stream'.head_cons]

/-- A token that has been looked at is not looked at again. -/
@[simp] theorem peeked_peeked (s : Session) : s.peeked.peeked = s.peeked := by
  obtain ⟨rest, hAhead⟩ := s.ahead_peeked
  change s.peeked.revealMany (0 + 1 - s.peeked.ahead.length) = s.peeked
  have hNone : 0 + 1 - s.peeked.ahead.length = 0 := by simp [hAhead]
  rw [hNone, revealMany]

/-! ### Consuming -/

theorem consume_eq (s : Session) :
    s.consume = (s.coming.head,
      { s.peeked with ahead := s.peeked.ahead.drop 1, previous := s.coming.head }) := by
  unfold consume
  rw [lookahead_zero]

@[simp] theorem consume_fst (s : Session) : s.consume.1 = s.coming.head := by rw [consume_eq]

@[simp] theorem consume_peeked (s : Session) : s.peeked.consume = s.consume := by
  simp [consume_eq]

@[simp] theorem source_consume (s : Session) : s.consume.2.source = s.source := by
  simp [consume_eq]

@[simp] theorem ending_consume (s : Session) : s.consume.2.ending = s.ending := by
  simp [consume_eq]

@[simp] theorem previous_consume (s : Session) : s.consume.2.previous = s.coming.head := by
  simp [consume_eq]

@[simp] theorem arena_consume (s : Session) : s.consume.2.arena = s.arena := by
  simp [consume_eq]

@[simp] theorem log_consume (s : Session) : s.consume.2.log = s.log := by
  rw [consume_eq, ← log_peeked s]
  rfl

@[simp] theorem coming_consume (s : Session) : s.consume.2.coming = s.coming.tail := by
  obtain ⟨rest, hAhead⟩ := s.ahead_peeked
  rw [consume_eq, ← coming_peeked s]
  simp [coming, hAhead, Stream'.cons_append_stream]

/-- What is to come is the next token and what is to come behind it. -/
theorem coming_eq_cons (s : Session) : s.coming = .cons s.coming.head s.consume.2.coming := by
  rw [coming_consume, Stream'.cons_head_tail]

/-- A token is accepted exactly when it is the next one, and otherwise it has been looked at. -/
theorem accept_eq (s : Session) (symbol : Symbol) :
    s.accept symbol =
      if s.coming.head.symbol = symbol then (true, s.consume.2) else (false, s.peeked) := by
  unfold accept isAhead
  rw [lookahead_zero]
  simp only [beq_iff_eq, consume_peeked]

theorem acceptAny_eq (s : Session) (symbols : List Symbol) :
    s.acceptAny symbols =
      if s.coming.head.symbol ∈ symbols then (some s.coming.head.symbol, s.consume.2)
      else (none, s.peeked) := by
  unfold acceptAny
  rw [lookahead_zero]
  simp only [consume_peeked]

/-- The token that is wanted is consumed. In the place of any other stands an empty one, and a fault
is reported unless the token that was found is invalid. -/
theorem expect_eq (s : Session) (symbols : SymbolTable) (wanted : Symbol) :
    s.expect symbols wanted =
      if s.coming.head.symbol = wanted then s.consume
      else (.empty .invalid s.coming.head.range.span.start s.coming.head.range.start,
        if s.coming.head.symbol = .invalid then s.peeked
        else (s.peeked.fault symbols (.expected wanted s.coming.head.symbol)
          s.coming.head.range).2) := by
  unfold expect
  rw [lookahead_zero]
  simp only [consume_peeked]

/-! ### Reports and nodes -/

section Other

variable (s : Session) (m : Message) (kind : NodeKind) (range : SourceRange) (id : NodeId)

@[simp] theorem coming_report : (s.report m).2.coming = s.coming := rfl

@[simp] theorem coming_alloc : (s.alloc kind range).2.coming = s.coming := rfl

@[simp] theorem coming_setRange : (s.setRange id range).coming = s.coming := rfl

@[simp] theorem coming_attach (message : MessageId) : (s.attach id message).coming = s.coming := rfl

@[simp] theorem coming_nameNode (token : Token) : (s.nameNode token).2.coming = s.coming := rfl

@[simp] theorem log_alloc : (s.alloc kind range).2.log = s.log := rfl

@[simp] theorem log_nameNode (token : Token) : (s.nameNode token).2.log = s.log := rfl

@[simp] theorem source_alloc : (s.alloc kind range).2.source = s.source := rfl

@[simp] theorem source_nameNode (token : Token) : (s.nameNode token).2.source = s.source := rfl

end Other

/-- A report goes behind everything that has been reported, and in front of what is still to be. -/
theorem log_report (s : Session) (m : Message) :
    (s.report m).2.log = s.diagnostics.toList ++ m :: s.upcoming.flatMap (·.messages) := by
  simp [log, report, Diagnostics.push, Diagnostics.toList]

/-- A report that does not pass a test leaves those that do alone. -/
theorem filter_log_report {s : Session} {P : Message → Bool} {m : Message} (h : P m = false) :
    (s.report m).2.log.filter P = s.log.filter P := by
  rw [log_report, log, List.filter_append, List.filter_append,
    List.filter_cons_of_neg (by rw [h]; exact Bool.false_ne_true)]

end Precedence.Session
