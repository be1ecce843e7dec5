import Precedence.Proofs.Lexer.Iteration
import Precedence.Proofs.Session.Use

/-!
Tokens that are made when they are asked for. A session has all tokens of its source before it and
uncovers them one by one. The same is had from a lexer at work and a queue: to look at a token,
tokens of the lexer are put in the queue until there are enough of them. Putting one in is matched
by uncovering one, with the same messages, and behind the end both find the end again. So whatever
is done with a session that was opened on a source, a queue gives the same tokens and reports the
same.
-/
namespace Precedence

/-- A lexer, and the tokens that it has given and that are not consumed. -/
structure TokenQueue where
  lexer : Lexer
  tokens : List Token

namespace TokenQueue

/-- The start of a parse of a source. -/
def ofSource (lx : Lexicon) (source : List Char) : TokenQueue := ⟨.ofSource lx source, []⟩

/-- The queue with one more token of the lexer. The character of an invalid token is stepped
over. -/
def push (q : TokenQueue) : TokenQueue :=
  let (token, lexer) := q.lexer.pull
  ⟨lexer, q.tokens ++ [token]⟩

/-- The queue filled up to a place. -/
def fill (q : TokenQueue) (place : Nat) : TokenQueue :=
  if q.tokens.length ≤ place then q.push.fill place else q
termination_by place + 1 - q.tokens.length
decreasing_by
  simp only [push, List.length_append, List.length_singleton]
  omega

/-- The token at a place of the queue. -/
def lookahead (q : TokenQueue) (place : Nat) : Token × TokenQueue :=
  let q := q.fill place
  (q.tokens[place]?.getD default, q)

/-- The next token, taken out of the queue. -/
def consume (q : TokenQueue) : Token × TokenQueue :=
  let (token, q) := q.lookahead 0
  (token, { q with tokens := q.tokens.drop 1 })

/-- The queue with other messages. -/
def withDiagnostics (q : TokenQueue) (d : Diagnostics) : TokenQueue :=
  { q with lexer := { q.lexer with diagnostics := d } }

/-- Something that is done with a queue: a token is looked at or consumed, or messages are added. -/
inductive Use : TokenQueue → TokenQueue → Prop
  | lookahead (q : TokenQueue) (place : Nat) : Use q (q.lookahead place).2
  | consume (q : TokenQueue) : Use q q.consume.2
  | report (q : TokenQueue) {d : Diagnostics}
      (hReported : q.lexer.diagnostics.toList <+: d.toList) : Use q (q.withDiagnostics d)

/-- Whatever is done with a queue, in any number of turns. -/
abbrev Uses : TokenQueue → TokenQueue → Prop := Relation.ReflTransGen Use

end TokenQueue

/-- What a lexer has not given yet, and the token that it gives for ever after that. -/
inductive Lexer.IsBefore (l : Lexer) : List Lexeme → Token → Prop
  | start {lexemes : List Lexeme} {last : Lexeme} (hStarted : l.started = false)
      (hReads : l.lexicon.Reads l.cursor lexemes) (hLast : lexemes.getLast? = some last) :
      IsBefore l (⟨l.cursor.emptyToken .sof, []⟩ :: lexemes) last.token
  | amid {lexemes : List Lexeme} {last : Lexeme} (hStarted : l.started = true)
      (hReads : l.lexicon.Reads l.cursor lexemes) (hLast : lexemes.getLast? = some last) :
      IsBefore l lexemes last.token
  | ended (hStarted : l.started = true) (hEnd : l.cursor.rest = []) :
      IsBefore l [] (l.cursor.emptyToken .eof)

namespace Lexer.IsBefore

variable {l : Lexer} {lexeme : Lexeme} {rest : List Lexeme} {ending : Token}

/-- Behind the end the end is found again, and nothing is left to be done or reported. -/
theorem pull_nil (h : l.IsBefore [] ending) : l.pull = (ending, l) := by
  obtain ⟨lx, c, started, finished, d⟩ := l
  cases h with
  | amid _ _ hLast => cases hLast
  | ended hStarted hEnd =>
      cases hStarted
      have hSkip := lx.skip_of_end hEnd
      rw [pull_of_end d (by rw [hSkip]; exact hEnd), hSkip]
      simp [Diagnostics.append]

/-- Elsewhere the next token is found, what belongs to it is reported, and the others are left. -/
theorem pull_cons (h : l.IsBefore (lexeme :: rest) ending) :
    l.pull.1 = lexeme.token ∧ l.pull.2.diagnostics = l.diagnostics.append lexeme.messages ∧
      l.pull.2.IsBefore rest ending := by
  obtain ⟨lx, c, started, finished, d⟩ := l
  cases h with
  | start hStarted hReads hLast =>
      cases hStarted
      rw [pull_of_not_started]
      refine ⟨rfl, ?_, .amid rfl hReads hLast⟩
      simp [Diagnostics.append]
  | amid hStarted hReads hLast =>
      cases hStarted
      cases hReads with
      | ending hEnd =>
          cases hLast
          rw [pull_of_end d hEnd]
          exact ⟨rfl, rfl, .ended rfl hEnd⟩
      | next hMore hRest =>
          rw [pull_of_more d hMore]
          refine ⟨rfl, rfl, .amid rfl hRest ?_⟩
          obtain ⟨messages, stop, hFound⟩ := hRest.exists_last
          rw [List.getLast?_cons, hFound, Option.getD_some] at hLast
          exact hFound.trans hLast

theorem withDiagnostics {lexemes : List Lexeme} (h : l.IsBefore lexemes ending) (d : Diagnostics) :
    { l with diagnostics := d }.IsBefore lexemes ending := by
  cases h with
  | start hStarted hReads hLast => exact .start hStarted hReads hLast
  | amid hStarted hReads hLast => exact .amid hStarted hReads hLast
  | ended hStarted hEnd => exact .ended hStarted hEnd

end Lexer.IsBefore

namespace Session

/-- A session and a queue have the same tokens waiting and the same messages, and the same is before
them. -/
structure Mirrors (s : Session) (q : TokenQueue) : Prop where
  ahead : s.ahead = q.tokens
  diagnostics : s.diagnostics = q.lexer.diagnostics
  upcoming : q.lexer.IsBefore s.upcoming s.ending

/-- When a source is opened, nothing waits, nothing has been reported, and everything is still
before both. -/
theorem mirrors_ofSource (lx : Lexicon) (source : List Char) :
    (ofSource lx source).Mirrors (.ofSource lx source) := by
  obtain ⟨body, last, hAll, -⟩ := lx.exists_lexemes_eq source
  refine ⟨rfl, rfl, ?_⟩
  have hLast : (lx.lexemes source).getLast? = some last := by rw [hAll, List.getLast?_concat]
  have hEnding : (ofSource lx source).ending = last.token := by
    simp only [ofSource, ofLexemes, hLast, Option.getD_some]
  rw [hEnding]
  exact .start rfl (lx.reads_lexemes source) hLast

variable {s t : Session} {q : TokenQueue}

namespace Mirrors

/-- Uncovering a token is putting one in the queue. -/
theorem reveal (h : s.Mirrors q) : s.reveal.Mirrors q.push := by
  obtain ⟨hAhead, hMessages, hUpcoming⟩ := h
  unfold Session.reveal
  split
  · next hNone =>
    rw [hNone] at hUpcoming
    have hPush : q.push = ⟨q.lexer, q.tokens ++ [s.ending]⟩ := by
      rw [TokenQueue.push, hUpcoming.pull_nil]
    rw [hPush, ← hAhead]
    exact ⟨rfl, hMessages, hNone ▸ hUpcoming⟩
  · next lexeme rest hSome =>
    rw [hSome] at hUpcoming
    obtain ⟨hToken, hReported, hBefore⟩ := hUpcoming.pull_cons
    refine ⟨?_, ?_, hBefore⟩
    · simp only [TokenQueue.push, hAhead, hToken]
    · simp only [TokenQueue.push, hMessages, hReported]

/-- Filling the queue is uncovering as many tokens as are missing. -/
theorem fill (h : s.Mirrors q) (place : Nat) :
    (s.revealMany (place + 1 - s.ahead.length)).Mirrors (q.fill place) := by
  fun_induction TokenQueue.fill q place generalizing s with
  | case1 q hShort ih =>
      -- one of the missing tokens is uncovered first, and the others after it
      have hLength : s.reveal.ahead.length = s.ahead.length + 1 := s.length_ahead_revealMany 1
      have hMissing : place + 1 - s.ahead.length = (place + 1 - s.reveal.ahead.length) + 1 := by
        rw [← h.ahead] at hShort
        omega
      rw [hMissing]
      exact ih h.reveal
  | case2 q hLong =>
      have hNone : place + 1 - s.ahead.length = 0 := by
        rw [← h.ahead] at hLong
        omega
      rw [hNone]
      exact h

/-- Looking at a place shows the same token, and uncovers as many. -/
theorem lookahead (h : s.Mirrors q) (place : Nat) :
    (s.lookahead place).1 = (q.lookahead place).1 ∧
      (s.lookahead place).2.Mirrors (q.lookahead place).2 := by
  have hFilled := h.fill place
  refine ⟨?_, hFilled⟩
  have hLength := s.length_ahead_revealMany (place + 1 - s.ahead.length)
  have hShown : place < (s.revealMany (place + 1 - s.ahead.length)).ahead.length := by omega
  simp only [Session.lookahead, TokenQueue.lookahead, ← hFilled.ahead,
    List.getElem?_eq_getElem hShown, Option.getD_some]

theorem consume (h : s.Mirrors q) :
    s.consume.1 = q.consume.1 ∧ s.consume.2.Mirrors q.consume.2 := by
  obtain ⟨hToken, hLooked⟩ := h.lookahead 0
  refine ⟨hToken, ?_, hLooked.diagnostics, hLooked.upcoming⟩
  exact congrArg (List.drop 1) hLooked.ahead

/-- What is done with a session can be done with the queue that it mirrors. -/
theorem exists_use (h : s.Mirrors q) (hUse : s.Use t) : ∃ r, q.Use r ∧ t.Mirrors r := by
  cases hUse with
  | lookahead place => exact ⟨_, .lookahead q place, (h.lookahead place).2⟩
  | consume => exact ⟨_, .consume q, h.consume.2⟩
  | work hContinues hAhead hUpcoming =>
      have hReported := hContinues.reported
      rw [h.diagnostics] at hReported
      refine ⟨_, .report q hReported, hAhead.trans h.ahead, rfl, ?_⟩
      rw [hUpcoming, hContinues.ending]
      exact h.upcoming.withDiagnostics _

end Mirrors

/-- A session that was opened on a source and a lexer that is asked for tokens one by one cannot be
told apart. Whatever has been done with the session, the same can have been done with a queue; then
the same tokens wait in it, the same has been reported, and the token at each place is the same. -/
theorem Uses.exists_queue {lx : Lexicon} {source : List Char} (h : (ofSource lx source).Uses s) :
    ∃ q, (TokenQueue.ofSource lx source).Uses q ∧ s.Mirrors q ∧
      ∀ place, (s.lookahead place).1 = (q.lookahead place).1 := by
  have hMirrored : ∃ q, (TokenQueue.ofSource lx source).Uses q ∧ s.Mirrors q := by
    induction h with
    | refl => exact ⟨_, .refl, mirrors_ofSource lx source⟩
    | tail _ hLast ih =>
        obtain ⟨q, hUses, hMirrors⟩ := ih
        obtain ⟨r, hUse, hMirrors⟩ := hMirrors.exists_use hLast
        exact ⟨r, hUses.tail hUse, hMirrors⟩
  obtain ⟨q, hUses, hMirrors⟩ := hMirrored
  exact ⟨q, hUses, hMirrors, fun place => (hMirrors.lookahead place).1⟩

end Session

end Precedence
