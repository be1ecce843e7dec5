import Precedence.Lexer.Names
import Precedence.Punctuator

/-!
The lexicon of a grammar, and the tokens that it finds in a source. At a cursor everything ignored
is skipped first; then literals are tried in the order of registration, then the spellings that no
identifier could start with, the longest first, then identifiers, among which the remaining
spellings are keywords. A character that starts no token is reported and makes a token of its own.

Every token but the last reads at least one character, so a source of `n` characters has at most
`n + 1` tokens, the end of the input included.
-/
namespace Precedence

/-- The rules by which a source is cut into tokens. -/
structure Lexicon where
  punctuators : PunctuatorSet
  literals : List LiteralRule
  ignores : List IgnoreRule
  names : NamePolicy

/-- A token with what is reported on the way to its end. -/
structure Lexeme where
  token : Token
  messages : List Message
deriving DecidableEq, Inhabited

/-- A token found at a cursor, and the number of characters that it takes. -/
structure Recognition where
  token : Token
  messages : List Message
  width : Nat
deriving DecidableEq, Inhabited

/-- The number of characters that are done with once the token is. The character of an invalid
token is not read by finding the token, so it counts on top. -/
def Recognition.taken (r : Recognition) : Nat :=
  if r.token.symbol = .invalid then r.width + 1 else r.width

namespace Lexicon

/-- No rule at all, and identifiers of the standard form. -/
def empty : Lexicon := ⟨.empty, [], [], .standard⟩

instance : Inhabited Lexicon := ⟨empty⟩

/-- The cursor behind everything that is ignored, and the messages of the rules that applied, after
those reported before. -/
def skipFrom (lx : Lexicon) (reported : List Message) (c : Cursor) : Cursor × List Message :=
  let reading := IgnoreRule.readFirst c lx.ignores
  if _ : c.rest = [] then (c, reported)
  else if _ : reading.width = 0 then (c, reported ++ reading.messages)
  else lx.skipFrom (reported ++ reading.messages) (c.advanceBy reading.width)
termination_by c.rest.length
decreasing_by
  rename_i hEnd hStill
  have hMoves : (IgnoreRule.readFirst c lx.ignores).width ≠ 0 := hStill
  have hLeft := List.length_pos_iff.mpr hEnd
  rw [Cursor.rest_advanceBy, List.length_drop]
  omega

/-- The cursor behind everything that is ignored, and what is reported on the way. -/
def skip (lx : Lexicon) (c : Cursor) : Cursor × List Message := lx.skipFrom [] c

/-- The longest spelling that starts at a cursor, among those that no identifier starts with. -/
def punctuatorAt? (lx : Lexicon) (c : Cursor) : Option Punctuator :=
  lx.punctuators.entries.find? fun p =>
    !p.spelling.head?.any lx.names.isStart && p.startsText c.rest

/-- The identifier at a cursor, or the keyword if its word is a spelling. -/
def recogniseName (lx : Lexicon) (c : Cursor) : Recognition :=
  let reading := lx.names.read c
  let word := c.rest.take reading.width
  let symbol := (lx.punctuators.findSpelling? word).getD .name
  ⟨c.tokenTo (c.advanceBy reading.width) symbol, reading.messages, reading.width⟩

/-- The token for a character that starts no other. It covers the character and ends one column
further, but the character stays unread. -/
def recogniseInvalid (c : Cursor) : Recognition :=
  let range : SourceRange :=
    ⟨⟨c.offset, c.offset + c.current.utf8Size⟩, c.position,
      ⟨c.position.line, c.position.column + 1⟩⟩
  ⟨.covering .invalid range, [(LexicalFault.invalidCharacter c.current).message range], 0⟩

/-- The token at a cursor where neither the end nor anything ignored is found. -/
def recognise (lx : Lexicon) (c : Cursor) : Recognition :=
  match LiteralRule.readFirst c lx.literals with
  | (messages, some reading) => ⟨reading.token, messages ++ reading.messages, reading.width⟩
  | (messages, none) =>
    let found : Recognition :=
      match lx.punctuatorAt? c with
      | some p => ⟨c.tokenTo (c.advanceBy p.length) p.symbol, [], p.length⟩
      | none => if lx.names.isStart c.current then lx.recogniseName c else recogniseInvalid c
    { found with messages := messages ++ found.messages }

/-- The next token from a cursor, and the cursor after it. The character of an invalid token is
left unread. -/
def next (lx : Lexicon) (c : Cursor) : Lexeme × Cursor :=
  let (c, skipped) := lx.skip c
  if c.rest = [] then (⟨c.emptyToken .eof, skipped⟩, c)
  else
    let found := lx.recognise c
    (⟨found.token, skipped ++ found.messages⟩, c.advanceBy found.width)

theorem width_ne_zero_of_readFirst {rules : List LiteralRule} {c : Cursor}
    {messages : List Message} {reading : LiteralReading}
    (h : LiteralRule.readFirst c rules = (messages, some reading)) : reading.width ≠ 0 := by
  induction rules generalizing messages with
  | nil => simp [LiteralRule.readFirst] at h
  | cons rule rules ih =>
    rw [LiteralRule.readFirst] at h
    split at h
    · exact ih h
    · split at h
      · simp only [Prod.mk.injEq] at h
        exact ih (Prod.ext rfl h.2)
      · simp_all

/-- A token that was found gets the reading on by at least one character. -/
theorem taken_recognise_pos (lx : Lexicon) (c : Cursor) : 0 < (lx.recognise c).taken := by
  have hTaken (r : Recognition) (h : r.width ≠ 0 ∨ r.token.symbol = .invalid) : 0 < r.taken := by
    unfold Recognition.taken
    split
    · exact Nat.succ_pos _
    · next hValid => exact Nat.pos_of_ne_zero (h.resolve_right hValid)
  apply hTaken
  unfold recognise
  split
  · next h => exact .inl (width_ne_zero_of_readFirst h)
  · dsimp only
    split
    · next p _ => exact .inl (Nat.ne_of_gt p.length_pos)
    · split
      · left
        simp only [recogniseName, NamePolicy.read]
        omega
      · exact .inr rfl

/-- Skipping never goes back. -/
theorem length_rest_skipFrom_le (lx : Lexicon) (reported : List Message) (c : Cursor) :
    (lx.skipFrom reported c).1.rest.length ≤ c.rest.length := by
  fun_induction skipFrom lx reported c with
  | case1 => exact Nat.le_refl _
  | case2 => exact Nat.le_refl _
  | case3 c _ _ _ _ ih =>
    refine Nat.le_trans ih ?_
    simp

/-- All tokens from a cursor on, behind those that were found before, which are in reverse. The
last token is the end of the input. -/
def lexemesFrom (lx : Lexicon) (found : List Lexeme) (c : Cursor) : List Lexeme :=
  let skipped := lx.skip c
  if _ : skipped.1.rest = [] then
    (⟨skipped.1.emptyToken .eof, skipped.2⟩ :: found).reverse
  else
    let r := lx.recognise skipped.1
    lx.lexemesFrom (⟨r.token, skipped.2 ++ r.messages⟩ :: found) (skipped.1.advanceBy r.taken)
termination_by c.rest.length
decreasing_by
  rename_i hEnd
  have hLeft : 0 < (lx.skip c).1.rest.length := List.length_pos_iff.mpr hEnd
  have hSkip : (lx.skip c).1.rest.length ≤ c.rest.length := lx.length_rest_skipFrom_le [] c
  have hTaken := lx.taken_recognise_pos (lx.skip c).1
  rw [Cursor.rest_advanceBy, List.length_drop]
  omega

/-- All tokens of a source after its start, the end of the input last. -/
def lexemes (lx : Lexicon) (source : List Char) : List Lexeme :=
  lx.lexemesFrom [] (.ofSource source)

/-- What was found before stays in front of what is found later. -/
theorem lexemesFrom_append (lx : Lexicon) (found earlier : List Lexeme) (c : Cursor) :
    lx.lexemesFrom (found ++ earlier) c = earlier.reverse ++ lx.lexemesFrom found c := by
  fun_induction lexemesFrom lx found c with
  | case1 found c skipped hEnd =>
    rw [lexemesFrom, dif_pos hEnd]
    simp [skipped]
  | case2 found c skipped hEnd r ih =>
    rw [lexemesFrom, dif_neg hEnd]
    exact ih

/-- The first token from a cursor on, and then the others. -/
theorem lexemesFrom_nil (lx : Lexicon) (c : Cursor) :
    lx.lexemesFrom [] c =
      let skipped := lx.skip c
      if skipped.1.rest = [] then [⟨skipped.1.emptyToken .eof, skipped.2⟩]
      else
        let r := lx.recognise skipped.1
        ⟨r.token, skipped.2 ++ r.messages⟩ ::
          lx.lexemesFrom [] (skipped.1.advanceBy r.taken) := by
  rw [lexemesFrom]
  dsimp only
  split
  · rfl
  · exact lx.lexemesFrom_append [] [_] _

end Lexicon

end Precedence
