import Precedence.Proofs.Arena.Attachment
import Precedence.Proofs.Arena.Walk
import Precedence.Proofs.Engine.Run
import Precedence.Proofs.Lexer.Faults

/-!
What the library's constructs keep of a session, whatever they parse: a character that starts no
token has been reported once it was looked at, and a fault that belongs to a node is attached to
one. Each is kept by the few things that constructs do to a session, and there is one lemma for each
of these.
-/
namespace Precedence

/-- Whether a code is of faults that belong to a node. -/
def ErrorCode.isAscribed (c : ErrorCode) : Bool :=
  c ∈ [.noPrefix, .invalidParameter, .invalidEscape]

/-- No fault of the lexer belongs to a node. -/
theorem Message.isAscribed_of_isOfLexer {m : Message} (h : m.isOfLexer = true) :
    m.code.isAscribed = false := by
  unfold isOfLexer at h
  cases hCode : m.code <;> rw [hCode] at h <;> first | rfl | exact absurd h (by decide)

namespace Session

variable {s t u : Session}

/-! ### Invalid tokens -/

/-- Invalid tokens have been reported if they have been looked at, and will be when they are. -/
structure Watchful (s : Session) : Prop where
  ahead : ∀ token ∈ s.ahead, token.symbol = .invalid → s.diagnostics.hasErrors = true
  upcoming : ∀ lexeme ∈ s.upcoming, lexeme.token.symbol = .invalid →
    ∃ m ∈ lexeme.messages, m.isError = true
  ending : s.ending.symbol ≠ .invalid

/-- At the start of a source nothing has been looked at. -/
theorem watchful_ofSource {lx : Lexicon} (hBuiltIn : lx.isBuiltIn = true)
    (hSpellings : ∀ p ∈ lx.punctuators.entries, p.symbol ≠ .invalid) (source : List Char) :
    (ofSource lx source).Watchful := by
  refine ⟨List.forall_mem_nil _, List.forall_mem_cons.mpr ⟨fun hInvalid => ?_, ?_⟩, ?_⟩
  · cases hInvalid
  · exact (lx.reads_lexemes source).reported_of_invalid hBuiltIn hSpellings
  · rw [ending_ofSource]
    decide

theorem Watchful.reveal (h : s.Watchful) : s.reveal.Watchful := by
  obtain ⟨hAhead, hUpcoming, hEnding⟩ := h
  unfold Session.reveal
  split
  · exact ⟨List.forall_mem_append.mpr
      ⟨hAhead, List.forall_mem_singleton.mpr fun hInvalid => absurd hInvalid hEnding⟩, hUpcoming,
      hEnding⟩
  · next lexeme rest hLexemes =>
    rw [hLexemes] at hUpcoming
    obtain ⟨hLexeme, hRest⟩ := List.forall_mem_cons.mp hUpcoming
    have hGrows : s.diagnostics.toList <+: (s.diagnostics.append lexeme.messages).toList := by
      simp [Diagnostics.toList, Diagnostics.append]
    refine ⟨List.forall_mem_append.mpr ⟨fun token hMem hInvalid => ?_,
      List.forall_mem_singleton.mpr fun hInvalid => ?_⟩, hRest, hEnding⟩
    · exact Diagnostics.hasErrors_of_prefix hGrows (hAhead token hMem hInvalid)
    · obtain ⟨m, hMem, hError⟩ := hLexeme hInvalid
      rw [Diagnostics.hasErrors_iff]
      exact ⟨m, by simp [Diagnostics.toList, Diagnostics.append, hMem], hError⟩

theorem Watchful.peeked (h : s.Watchful) : s.peeked.Watchful := by
  suffices hMany : ∀ n, (s.revealMany n).Watchful from hMany _
  intro n
  induction n generalizing s with
  | zero => exact h
  | succ n ih => exact ih h.reveal

/-- An invalid token that comes next has been reported when it is looked at. -/
theorem Watchful.hasErrors_peeked (h : s.Watchful) (hInvalid : s.coming.head.symbol = .invalid) :
    s.peeked.diagnostics.hasErrors = true := by
  obtain ⟨rest, hAhead⟩ := s.ahead_peeked
  apply h.peeked.ahead s.coming.head _ hInvalid
  rw [hAhead]
  exact List.mem_cons_self

/-- Whatever leaves the tokens alone and withdraws no message keeps watchful. -/
theorem Watchful.of_same (h : s.Watchful) (hAhead : t.ahead = s.ahead)
    (hUpcoming : t.upcoming = s.upcoming) (hContinues : s.Continues t) : t.Watchful := by
  refine ⟨?_, ?_, ?_⟩
  · rw [hAhead]
    exact fun token hMem hInvalid =>
      Diagnostics.hasErrors_of_prefix hContinues.reported (h.ahead token hMem hInvalid)
  · rw [hUpcoming]
    exact h.upcoming
  · rw [hContinues.ending]
    exact h.ending

theorem Watchful.consume (h : s.Watchful) : s.consume.2.Watchful := by
  obtain ⟨hAhead, hUpcoming, hEnding⟩ := h.peeked
  rw [consume_eq]
  exact ⟨fun token hMem => hAhead token (List.mem_of_mem_drop hMem), hUpcoming, hEnding⟩

/-! ### Faults that belong to nodes -/

/-- Every fault that belongs to a node is attached to one, and the lexer will report none. -/
structure Ascribed (s : Session) : Prop where
  attached : ∀ i m, s.diagnostics.toList[i]? = some m → m.code.isAscribed = true →
    ∃ node, ⟨i⟩ ∈ s.arena.attached node
  upcoming : ∀ lexeme ∈ s.upcoming, ∀ m ∈ lexeme.messages, m.code.isAscribed = false

/-- At the start of a source nothing has been reported. -/
theorem ascribed_ofSource {lx : Lexicon} (hBuiltIn : lx.isBuiltIn = true) (source : List Char) :
    (ofSource lx source).Ascribed := by
  refine ⟨fun i m hFound => ?_, List.forall_mem_cons.mpr ⟨List.forall_mem_nil _, ?_⟩⟩
  · cases hFound
  · intro lexeme hMem m hReported
    exact Message.isAscribed_of_isOfLexer
      ((lx.reads_lexemes source).isOfLexer hBuiltIn lexeme hMem m hReported)

/-- Further messages keep this if each of them that belongs to a node is attached to one. -/
theorem Ascribed.append (h : s.Ascribed) (messages : List Message)
    (hDiagnostics : t.diagnostics.toList = s.diagnostics.toList ++ messages)
    (hUpcoming : t.upcoming ⊆ s.upcoming)
    (hAttached : ∀ node, s.arena.attached node ⊆ t.arena.attached node)
    (hNew : ∀ i m, messages[i]? = some m → m.code.isAscribed = true →
      ∃ node, ⟨s.diagnostics.toList.length + i⟩ ∈ t.arena.attached node) : t.Ascribed := by
  refine ⟨fun i m hFound hCode => ?_, fun lexeme hMem => h.upcoming lexeme (hUpcoming hMem)⟩
  rw [hDiagnostics, List.getElem?_append] at hFound
  split at hFound
  · obtain ⟨node, hMem⟩ := h.attached i m hFound hCode
    exact ⟨node, hAttached node hMem⟩
  · next hLater =>
    have hPlace := hNew _ m hFound hCode
    rwa [Nat.add_sub_cancel' (Nat.le_of_not_lt hLater)] at hPlace

/-- Whatever reports nothing and detaches nothing keeps it as well. -/
theorem Ascribed.of_same (h : s.Ascribed) (hDiagnostics : t.diagnostics = s.diagnostics)
    (hUpcoming : t.upcoming = s.upcoming)
    (hAttached : ∀ node, s.arena.attached node ⊆ t.arena.attached node) : t.Ascribed := by
  refine h.append [] (by rw [hDiagnostics, List.append_nil]) (by simp [hUpcoming]) hAttached ?_
  intro i m hFound
  cases hFound

theorem Ascribed.reveal (h : s.Ascribed) : s.reveal.Ascribed := by
  unfold Session.reveal
  split
  · exact h.of_same rfl rfl fun _ => List.Subset.refl _
  · next lexeme rest hLexemes =>
    have hUpcoming := h.upcoming
    rw [hLexemes] at hUpcoming
    refine h.append lexeme.messages ?_ ?_ (fun _ => List.Subset.refl _) ?_
    · simp [Diagnostics.toList, Diagnostics.append]
    · rw [hLexemes]
      exact List.subset_cons_self _ _
    · intro i m hFound hCode
      rw [hUpcoming lexeme List.mem_cons_self m (List.mem_of_getElem? hFound)] at hCode
      cases hCode

theorem Ascribed.peeked (h : s.Ascribed) : s.peeked.Ascribed := by
  suffices hMany : ∀ n, (s.revealMany n).Ascribed from hMany _
  intro n
  induction n generalizing s with
  | zero => exact h
  | succ n ih => exact ih h.reveal

theorem Ascribed.consume (h : s.Ascribed) : s.consume.2.Ascribed := by
  obtain ⟨hAttached, hUpcoming⟩ := h.peeked
  rw [consume_eq]
  exact ⟨hAttached, hUpcoming⟩

/-! ### Both -/

/-- One session comes after another in a parse with the library's constructs. -/
structure Proceeds (s t : Session) : Prop where
  continues : s.Continues t
  watchful : s.Watchful → t.Watchful
  ascribed : s.Ascribed → t.Ascribed

theorem Proceeds.refl (s : Session) : s.Proceeds s := ⟨.refl s, id, id⟩

theorem Proceeds.trans (h : s.Proceeds t) (h' : t.Proceeds u) : s.Proceeds u :=
  ⟨h.continues.trans h'.continues, h'.watchful ∘ h.watchful, h'.ascribed ∘ h.ascribed⟩

theorem proceeds_peeked (s : Session) : s.Proceeds s.peeked :=
  ⟨s.continues_peeked, .peeked, .peeked⟩

theorem proceeds_consume (s : Session) : s.Proceeds s.consume.2 :=
  ⟨s.continues_consume, .consume, .consume⟩

theorem proceeds_alloc (s : Session) (kind : NodeKind) (range : SourceRange) :
    s.Proceeds (s.alloc kind range).2 :=
  ⟨s.continues_alloc kind range, fun h => h.of_same rfl rfl (s.continues_alloc kind range),
    fun h => h.of_same rfl rfl fun node => by simp [alloc]⟩

theorem proceeds_nameNode (s : Session) (token : Token) : s.Proceeds (s.nameNode token).2 :=
  ⟨s.continues_nameNode token, fun h => h.of_same rfl rfl (s.continues_nameNode token),
    fun h => h.of_same rfl rfl fun node => by simp [nameNode, alloc]⟩

theorem proceeds_setRange (s : Session) (id : NodeId) (range : SourceRange) :
    s.Proceeds (s.setRange id range) :=
  ⟨s.continues_setRange id range, fun h => h.of_same rfl rfl (s.continues_setRange id range),
    fun h => h.of_same rfl rfl fun node => by simp [setRange]⟩

theorem toList_report (s : Session) (m : Message) :
    (s.report m).2.diagnostics.toList = s.diagnostics.toList ++ [m] := by
  simp [report, Diagnostics.push, Diagnostics.toList]

theorem report_fst (s : Session) (m : Message) :
    (s.report m).1 = ⟨s.diagnostics.toList.length⟩ := by
  simp [report, Diagnostics.push, Diagnostics.size, Diagnostics.toList]

/-- A fault that belongs to no node is reported. -/
theorem proceeds_fault (s : Session) (symbols : SymbolTable) {f : SyntaxFault}
    (hCode : f.code.isAscribed = false) (range : SourceRange) :
    s.Proceeds (s.fault symbols f range).2 := by
  have hContinues := s.continues_report (f.message symbols range)
  refine ⟨hContinues, fun h => h.of_same rfl rfl hContinues, fun h => ?_⟩
  refine h.append _ (s.toList_report _) (List.Subset.refl _) (fun _ => List.Subset.refl _) ?_
  intro i m hFound hAscribed
  obtain rfl : m = f.message symbols range := List.mem_singleton.mp (List.mem_of_getElem? hFound)
  rw [SyntaxFault.message, hCode] at hAscribed
  cases hAscribed

/-- A message is reported and attached to a node that exists when this is done. -/
theorem proceeds_attach {m : Message} {node : NodeId} (hContinues : s.Continues t)
    (hAhead : t.ahead = s.ahead) (hUpcoming : t.upcoming = s.upcoming)
    (hDiagnostics : t.diagnostics = (s.report m).2.diagnostics)
    (hAttached : ∀ other, t.arena.attached other = s.arena.attached other)
    (hNode : t.arena.contains node = true) :
    s.Proceeds (t.attach node (s.report m).1) := by
  have hAll := hContinues.trans (t.continues_attach node (s.report m).1)
  refine ⟨hAll, fun h => h.of_same hAhead hUpcoming hAll, fun h => ?_⟩
  have hPlace (other : NodeId) : (t.attach node (s.report m).1).arena.attached other =
      if other = node ∧ t.arena.contains node = true then
        s.arena.attached other ++ [(s.report m).1] else s.arena.attached other := by
    rw [← hAttached]
    exact t.arena.attached_attach node other _
  refine h.append [m] ?_ (by rw [← hUpcoming]; exact List.Subset.refl _) ?_ ?_
  · rw [← s.toList_report m, ← hDiagnostics]
    rfl
  · intro other
    rw [hPlace]
    split
    · exact List.subset_append_left _ _
    · exact List.Subset.refl _
  · intro i found hFound _
    have hFirst : i = 0 := by
      have hLess := (List.getElem?_eq_some_iff.mp hFound).1
      simpa using hLess
    refine ⟨node, ?_⟩
    rw [hPlace, if_pos ⟨rfl, hNode⟩, report_fst, hFirst]
    exact List.mem_append_right _ List.mem_cons_self

/-- A fault is reported and attached to a node. -/
theorem proceeds_flag (s : Session) (symbols : SymbolTable) (f : SyntaxFault) (range : SourceRange)
    {node : NodeId} (hNode : s.arena.contains node = true) :
    s.Proceeds ((s.fault symbols f range).2.attach node (s.fault symbols f range).1) :=
  proceeds_attach (s.continues_report _) rfl rfl rfl (fun _ => rfl) hNode

/-- A token is rejected: a message about it is attached to its node. -/
theorem proceeds_rejectedNode (s : Session) (token : Token) (m : Message) :
    s.Proceeds (s.rejectedNode token m).2 := by
  refine proceeds_attach ((s.continues_report m).trans (continues_alloc _ _ _)) rfl rfl rfl
    (fun other => ?_) ?_
  · exact s.arena.attached_alloc other _ _
  · exact s.arena.contains_alloc_self _ _

theorem proceeds_expect (s : Session) (symbols : SymbolTable) (wanted : Symbol) :
    s.Proceeds (s.expect symbols wanted).2 := by
  rw [expect_eq]
  split
  · exact s.proceeds_consume
  · dsimp only
    split
    · exact s.proceeds_peeked
    · exact s.proceeds_peeked.trans (proceeds_fault _ _ rfl _)

end Session

end Precedence
