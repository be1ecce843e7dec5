import Precedence.Proofs.Grammar.CleanParse
import Precedence.Proofs.Lexer.Iteration

/-!
What a session is asked about its tokens. Whichever questions are put to it and in whichever order,
the tokens that it gives away are those that iterating a lexer yields, one after the other and the
end of the input for ever; looking ahead shows what will be given away later, and a question that is
answered in the negative changes nothing.
-/
namespace Precedence

/-- Something that a session is asked about its tokens. -/
inductive Request where
  | lookahead (place : Nat)
  | isAhead (symbol : Symbol) (place : Nat)
  | areAhead (symbols : List Symbol)
  | accept (symbol : Symbol)
  | acceptAny (symbols : List Symbol)
  | consume
  | consumeMany (count : Nat)
  | expect (wanted : Symbol)
deriving DecidableEq, Inhabited

/-- Whether a message is one of the lexer's, by its code. -/
def Message.isOfLexer (m : Message) : Bool :=
  m.code ∈ [.invalidCharacter, .unterminatedString, .invalidNumber, .unterminatedComment]

namespace Session

/-- The tokens that are consumed when a request is granted, and the session after it. A token that
is accepted is the one consumed last then. -/
def grant (t : SymbolTable) (s : Session) : Request → List Token × Session
  | .lookahead place => ([], (s.lookahead place).2)
  | .isAhead symbol place => ([], (s.isAhead symbol place).2)
  | .areAhead symbols => ([], (s.areAheadFrom 0 symbols).2)
  | .accept symbol =>
    let (found, s) := s.accept symbol
    (if found then [s.previous] else [], s)
  | .acceptAny symbols =>
    let (found, s) := s.acceptAny symbols
    (if found.isSome then [s.previous] else [], s)
  | .consume =>
    let (token, s) := s.consume
    ([token], s)
  | .consumeMany count => s.consumeMany count
  | .expect wanted =>
    let found := (s.lookahead 0).1.symbol == wanted
    let (token, s) := s.expect t wanted
    (if found then [token] else [], s)

/-- The tokens that are consumed when requests are granted in order, and the session after them. -/
def grantAll (t : SymbolTable) (s : Session) : List Request → List Token × Session
  | [] => ([], s)
  | request :: requests =>
    let (tokens, s) := s.grant t request
    let (later, s) := s.grantAll t requests
    (tokens ++ later, s)

/-- From one session to another some tokens have been consumed in order, the last of them is the one
consumed last, and no message of the lexer's has been lost or made up. -/
structure Takes (s : Session) (tokens : List Token) (t : Session) : Prop where
  coming : s.coming = tokens ++ₛ t.coming
  previous : t.previous = tokens.getLast?.getD s.previous
  log : t.log.filter (·.isOfLexer) = s.log.filter (·.isOfLexer)

variable {s t u : Session}

namespace Takes

theorem of_alike (h : s.Alike t) : s.Takes [] t :=
  ⟨h.coming.symm, h.previous, congrArg _ h.log⟩

theorem consume (s : Session) : s.Takes [s.coming.head] s.consume.2 := by
  constructor
  · rw [coming_consume]
    exact (Stream'.append_stream_head_tail s.coming).symm
  · simp
  · rw [log_consume]

theorem trans {tokens later : List Token} (h : s.Takes tokens t) (h' : t.Takes later u) :
    s.Takes (tokens ++ later) u := by
  constructor
  · rw [h.coming, h'.coming, Stream'.append_append_stream]
  · rw [h'.previous, h.previous, List.getLast?_append]
    cases later.getLast? with
    | none => rfl
    | some token => rfl
  · exact h'.log.trans h.log

theorem tokens_eq {tokens : List Token} (h : s.Takes tokens t) :
    tokens = s.coming.take tokens.length := by
  rw [h.coming, Stream'.take_append_of_le_length _ _ _ (Nat.le_refl _), List.take_length]

theorem coming_eq {tokens : List Token} (h : s.Takes tokens t) :
    t.coming = s.coming.drop tokens.length := by
  rw [h.coming, Stream'.drop_append_stream]

/-- The lexer's messages so far are the first of those that it had to report at the start. -/
theorem reported {tokens : List Token} (h : s.Takes tokens t) :
    t.diagnostics.toList.filter (·.isOfLexer) <+: s.log.filter (·.isOfLexer) := by
  rw [← h.log, Session.log, List.filter_append]
  exact List.prefix_append _ _

end Takes

/-! ### Single requests -/

theorem takes_consumeMany (s : Session) (count : Nat) :
    s.Takes (s.consumeMany count).1 (s.consumeMany count).2 := by
  induction count generalizing s with
  | zero => exact .of_alike (.refl s)
  | succ count ih =>
      have hFirst := Takes.consume s
      rw [← consume_fst] at hFirst
      exact hFirst.trans (ih s.consume.2)

/-- A message about what was expected is not one of the lexer's. -/
theorem takes_expect_of_ne (table : SymbolTable) {wanted : Symbol}
    (h : s.coming.head.symbol ≠ wanted) : s.Takes [] (s.expect table wanted).2 := by
  have hLooked := Takes.of_alike s.alike_peeked
  rw [expect_eq, if_neg h]
  dsimp only
  split
  · exact hLooked
  · refine ⟨hLooked.coming, hLooked.previous, ?_⟩
    exact (filter_log_report rfl).trans hLooked.log

/-- Granting a request consumes the tokens that it is said to. -/
theorem takes_grant (table : SymbolTable) (s : Session) (request : Request) :
    s.Takes (s.grant table request).1 (s.grant table request).2 := by
  cases request with
  | lookahead place => exact .of_alike (s.alike_lookahead place)
  | isAhead symbol place => exact .of_alike (s.alike_lookahead place)
  | areAhead symbols => exact .of_alike (s.alike_areAheadFrom 0 symbols)
  | accept symbol =>
      by_cases hFound : s.coming.head.symbol = symbol
      · simpa [grant, accept_eq, hFound] using Takes.consume s
      · simpa [grant, accept_eq, hFound] using Takes.of_alike s.alike_peeked
  | acceptAny symbols =>
      by_cases hFound : s.coming.head.symbol ∈ symbols
      · simpa [grant, acceptAny_eq, hFound] using Takes.consume s
      · simpa [grant, acceptAny_eq, hFound] using Takes.of_alike s.alike_peeked
  | consume => simpa [grant] using Takes.consume s
  | consumeMany count => exact s.takes_consumeMany count
  | expect wanted =>
      by_cases hFound : s.coming.head.symbol = wanted
      · simpa [grant, lookahead_fst, expect_eq, hFound] using Takes.consume s
      · simpa [grant, lookahead_fst, hFound] using takes_expect_of_ne table hFound

theorem takes_grantAll (table : SymbolTable) (s : Session) (requests : List Request) :
    s.Takes (s.grantAll table requests).1 (s.grantAll table requests).2 := by
  induction requests generalizing s with
  | nil => exact .of_alike (.refl s)
  | cons request requests ih => exact (s.takes_grant table request).trans (ih _)

/-! ### What can be consumed -/

theorem length_consumeMany (s : Session) (count : Nat) :
    (s.consumeMany count).1.length = count := by
  induction count generalizing s with
  | zero => rfl
  | succ count ih => exact congrArg (· + 1) (ih s.consume.2)

theorem consumeMany_fst (s : Session) (count : Nat) :
    (s.consumeMany count).1 = s.coming.take count := by
  have hTokens := (s.takes_consumeMany count).tokens_eq
  rwa [length_consumeMany] at hTokens

/-- The token that looking ahead shows is the one that is consumed after those in front of it. -/
theorem lookahead_eq_consume (s : Session) (place : Nat) :
    (s.lookahead place).1 = ((s.lookahead place).2.consumeMany place).2.consume.1 := by
  have hComing := ((s.lookahead place).2.takes_consumeMany place).coming_eq
  rw [length_consumeMany, (s.alike_lookahead place).coming] at hComing
  rw [consume_fst, hComing, Stream'.head_drop, lookahead_fst]

/-- Nothing has been consumed: the token consumed last and the tokens that can be consumed are the
same. -/
structure Rests (s t : Session) : Prop where
  previous : t.previous = s.previous
  remaining (count : Nat) : (t.consumeMany count).1 = (s.consumeMany count).1

theorem Takes.rests (h : s.Takes [] t) : s.Rests t := by
  refine ⟨h.previous, fun count => ?_⟩
  rw [consumeMany_fst, consumeMany_fst, h.coming, Stream'.nil_append_stream]

theorem rests_accept {symbol : Symbol} (h : (s.accept symbol).1 = false) :
    s.Rests (s.accept symbol).2 := by
  rw [accept_eq] at h ⊢
  split at h
  · cases h
  · next hOther =>
    rw [if_neg hOther]
    exact (Takes.of_alike s.alike_peeked).rests

theorem rests_acceptAny {symbols : List Symbol} (h : (s.acceptAny symbols).1 = none) :
    s.Rests (s.acceptAny symbols).2 := by
  rw [acceptAny_eq] at h ⊢
  split at h
  · cases h
  · next hOther =>
    rw [if_neg hOther]
    exact (Takes.of_alike s.alike_peeked).rests

end Session

namespace Grammar

open Session

variable {g : Grammar}

/-- Looking ahead never changes what is consumed. Whatever is asked of a session that is opened on a
source, the tokens consumed are those that iterating a lexer yields, in order, and then the end of
the input for ever, and the lexer's messages so far are the first of those of the iteration. At any
time looking ahead shows the token that is consumed at that place, and a token that is not accepted
or not the one expected leaves everything where it was. -/
theorem tokens_of_requests {rules : Rules} {options : Options}
    (hRules : rules.grammar options = .ok g)
    (hLiterals : ∀ rule ∈ g.lexicon.literals, rule.isBuiltIn = true)
    (hSpellings : ∀ p ∈ g.lexicon.punctuators.entries, p.spelling.head? ≠ some '#')
    (source : List Char) :
    ∃ tokens last l, (Lexer.ofSource g.lexicon source).Yields (tokens ++ [last]) l ∧
      last.symbol = .eof ∧
      ∀ requests consumed s,
        (Session.ofSource g.lexicon source).grantAll g.symbols requests = (consumed, s) →
          consumed = (tokens ++ₛ Stream'.const last).take consumed.length ∧
          s.diagnostics.toList.filter (·.isOfLexer) <+:
            l.diagnostics.toList.filter (·.isOfLexer) ∧
          (∀ place,
            (s.lookahead place).1 = ((s.lookahead place).2.consumeMany place).2.consume.1 ∧
            (s.lookahead place).1 =
              (tokens ++ₛ Stream'.const last).get (consumed.length + place)) ∧
          (∀ symbol, (s.accept symbol).1 = false → s.Rests (s.accept symbol).2) ∧
          (∀ symbols, (s.acceptAny symbols).1 = none → s.Rests (s.acceptAny symbols).2) ∧
          ∀ wanted, (s.lookahead 0).1.symbol ≠ wanted →
            s.Rests (s.expect g.symbols wanted).2 := by
  obtain ⟨l, hYields, hMessages⟩ := Lexer.exists_yields g.lexicon source
  obtain ⟨body, last, hAll, hLast, -⟩ := g.lexicon.exists_lexemes_eq source
  rw [(isOrdinary_of_rules hRules hLiterals hSpellings).stream_eq] at hYields hMessages
  have hComing := coming_ofSource hAll
  rw [← Stream'.cons_append_stream] at hComing
  refine ⟨.empty .sof 0 .origin :: body.map (·.token), last.token, l, ?_, hLast, ?_⟩
  · rw [hAll] at hYields
    simpa using hYields
  · intro requests consumed s hGranted
    have hTakes := takes_grantAll g.symbols (ofSource g.lexicon source) requests
    rw [hGranted] at hTakes
    refine ⟨?_, ?_, fun place => ⟨s.lookahead_eq_consume place, ?_⟩, fun _ => rests_accept,
      fun _ => rests_acceptAny, fun wanted hOther => ?_⟩
    · rw [← hComing]
      exact hTakes.tokens_eq
    · rw [hMessages]
      exact hTakes.reported
    · rw [← hComing, lookahead_fst, hTakes.coming_eq, Stream'.get_drop]
    · rw [lookahead_fst] at hOther
      exact (takes_expect_of_ne g.symbols hOther).rests

end Grammar

namespace Sample

open Grammar

/-- A name, a character that starts no token, and a string that is never closed. -/
def strayText : String := "a $ 'b"

/-- Requests of every kind, some of which go past the end. -/
def strayRequests : List Request :=
  [.lookahead 1, .consume, .isAhead .name 0, .areAhead [.name, .invalid, .eof], .accept semicolon,
    .expect semicolon, .accept .name, .acceptAny [semicolon], .acceptAny [semicolon, .invalid],
    .lookahead 3, .consumeMany 3, .expect .eof]

/-- All tokens of the text are consumed in this way, and the end of the input three times. -/
theorem tokens_of_requests_strayText :
    ∃ tokens last l consumed s,
      (Lexer.ofSource operatorGrammar.lexicon strayText.toList).Yields (tokens ++ [last]) l ∧
      (Session.ofSource operatorGrammar.lexicon strayText.toList).grantAll operatorGrammar.symbols
        strayRequests = (consumed, s) ∧
      consumed.map (·.symbol) = [.sof, .name, .invalid, .string, .eof, .eof, .eof] ∧
      consumed = (tokens ++ₛ Stream'.const last).take consumed.length ∧
      s.diagnostics.toList.map (·.code) =
        [.invalidCharacter, .unterminatedString, .unexpectedToken] ∧
      s.diagnostics.toList.filter (·.isOfLexer) <+:
        l.diagnostics.toList.filter (·.isOfLexer) := by
  have hRules : operators.grammar .standard = .ok operatorGrammar :=
    Except.eq_ok_getD (by decide +kernel) default
  obtain ⟨tokens, last, l, hYields, -, hGranted⟩ := tokens_of_requests hRules
    (by decide +kernel) (by decide +kernel) strayText.toList
  obtain ⟨hConsumed, hReported, -⟩ := hGranted strayRequests _ _ rfl
  exact ⟨tokens, last, l, _, _, hYields, rfl, by decide +kernel, hConsumed, by decide +kernel,
    hReported⟩

end Sample

end Precedence
