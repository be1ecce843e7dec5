import Precedence.Proofs.Escape
import Precedence.Proofs.Lexer.Strings
import Precedence.Proofs.Recovery.Progress

/-!
The places of bad escapes. In a content they stand one behind the other, each being the text at its
place. The construct for strings reports each of them once, in the same order, where that text
stands in the source, and attaches what it reports to the node of the string.
-/
namespace Precedence

/-! ### In a content -/

/-- Bad escapes are where a content has them: one behind the other, each the text at its place and
opened by the escape character. A place that cut a character would have no text. -/
structure InvalidEscape.AreLocated (escape : Char) (content : List Char)
    (errors : List InvalidEscape) : Prop where
  ordered : errors.Pairwise fun a b => a.offset < b.offset ∧ a.offset + a.length ≤ b.offset
  text : ∀ error ∈ errors,
    Text.slice? error.offset (error.offset + error.length) content = some error.sequence
  opened : ∀ error ∈ errors, error.sequence.head? = some escape

namespace Escape

/-- Each bad escape ends before the next one starts. -/
theorem pairwise_errors (escape : Char) (offset : Nat) (content : List Char) :
    (resolveFrom escape offset content).errors.Pairwise fun a b =>
      a.offset < b.offset ∧ a.offset + a.length ≤ b.offset := by
  fun_induction resolveFrom escape offset content with
  | case1 => exact .nil
  | case2 offset rest reading value hValue sequence later ih => exact ih
  | case3 offset rest reading hValue sequence later ih =>
      refine List.pairwise_cons.mpr ⟨fun error hError => ?_, ih⟩
      have hBehind := (within_of_mem_errors hError).2.1
      have hWide := Char.utf8Size_pos escape
      simp only [InvalidEscape.length, sequence, Text.byteLength_cons] at hBehind ⊢
      omega
  | case4 offset c rest hPlain later ih => exact ih

/-- The bad escapes that are listed for a content are where it has them. -/
theorem areLocated_errors (escape : Char) (content : List Char) :
    InvalidEscape.AreLocated escape content (unescape escape content).errors := by
  refine ⟨pairwise_errors escape 0 content, fun error hError => ?_, fun error hError => ?_⟩
  · obtain ⟨before, after, hContent, hOffset, -⟩ := exists_of_mem_errors hError
    rw [hOffset, hContent, Nat.zero_add, ← List.append_assoc]
    exact Text.slice?_append before error.sequence after
  · obtain ⟨before, after, -, -, hHead⟩ := exists_of_mem_errors hError
    exact hHead

end Escape

/-! ### In a session -/

namespace Session

/-- A session in which messages have been reported and attached to a node, each once and in order,
and nothing else. What is attached is the numbers that the reports got. -/
structure Charges (s : Session) (node : NodeId) (reports : List Message) (t : Session) : Prop where
  reported : t.diagnostics.toList = s.diagnostics.toList ++ reports
  attached : t.arena.attached node = s.arena.attached node ++
    (List.range' s.diagnostics.toList.length reports.length).map MessageId.mk
  elsewhere : ∀ other, other ≠ node → t.arena.attached other = s.arena.attached other
  arena : s.arena.Extends t.arena

variable {s t u : Session} {node : NodeId}

theorem Charges.refl (s : Session) (node : NodeId) : s.Charges node [] s :=
  ⟨(List.append_nil _).symm, (List.append_nil _).symm, fun _ _ => rfl, .refl s.arena⟩

/-- A new node changes nothing about the others, and has no messages itself. -/
theorem charges_alloc (s : Session) (kind : NodeKind) (range : SourceRange) (node : NodeId) :
    s.Charges node [] (s.alloc kind range).2 := by
  refine ⟨(List.append_nil _).symm, ?_, fun other _ => s.arena.attached_alloc other kind range,
    s.arena.extends_alloc kind range⟩
  rw [List.length_nil, List.range'_zero, List.map_nil, List.append_nil]
  exact s.arena.attached_alloc node kind range

theorem Charges.trans {reports later : List Message} (h : s.Charges node reports t)
    (h' : t.Charges node later u) : s.Charges node (reports ++ later) u := by
  refine ⟨?_, ?_, fun other hOther => ?_, h.arena.trans h'.arena⟩
  · rw [h'.reported, h.reported, List.append_assoc]
  · rw [h'.attached, h.attached, h.reported, List.length_append, List.length_append,
      List.append_assoc, ← List.map_append, List.range'_append_1]
  · rw [h'.elsewhere other hOther, h.elsewhere other hOther]

/-- One message is reported and attached. -/
theorem charges_attach (s : Session) (m : Message) (hNode : s.arena.contains node = true) :
    s.Charges node [m] ((s.report m).2.attach node (s.report m).1) := by
  have hPlace (other : NodeId) := s.arena.attached_attach node other (s.report m).1
  refine ⟨s.toList_report m, ?_, fun other hOther => ?_, s.arena.extends_attach node _⟩
  · rw [report_fst] at hPlace ⊢
    exact (hPlace node).trans (if_pos ⟨rfl, hNode⟩)
  · exact (hPlace other).trans (if_neg fun h => hOther h.1)

end Session

namespace Engine

variable (e : Engine) (s : Session) {node : NodeId}

/-- Faults that are attached to a node are reported in order, and nothing else is. -/
theorem charges_attachFaults (faults : List (SyntaxFault × SourceRange))
    (hNode : s.arena.contains node = true) :
    s.Charges node (faults.map fun fault => fault.1.message e.symbols fault.2)
      (e.attachFaults node faults s) := by
  unfold attachFaults
  induction faults generalizing s with
  | nil => exact .refl s node
  | cons fault faults ih =>
      have hFirst := s.charges_attach (fault.1.message e.symbols fault.2) hNode
      exact hFirst.trans (ih _ (hFirst.arena.contains hNode))

end Engine

/-! ### In a source -/

variable {opening closing : List Char} {c : Cursor}

/-- The content of a string stands in the source where the text of its token starts. -/
theorem LiteralRule.exists_payload_of_read? {source : List Char} {escape : Option Char}
    {reading : LiteralReading} (hIn : c.IsIn source)
    (hRead : (string opening closing escape).read? c = some reading) :
    ∃ before after, source = before ++ (reading.token.payload source ++ after) ∧
      reading.token.text.start = Text.byteLength before := by
  rw [read?] at hRead
  split at hRead
  · cases hRead
    obtain ⟨before, hSource, hOffset⟩ := hIn.advanceBy opening.length
    rw [Cursor.rest_advanceBy] at hSource
    let content := Delimited.scan closing escape 0 (c.rest.drop opening.length)
    refine ⟨before, (c.rest.drop opening.length).drop content.length, ?_, hOffset⟩
    rw [payload_readString hIn, List.take_append_drop, ← hSource]
  · cases hRead

/-- The place of a bad escape in the source has its text. -/
theorem Engine.slice?_escapeRange {source content before after : List Char} {token : Token}
    {escape : Char} {error : InvalidEscape} (hSource : source = before ++ (content ++ after))
    (hText : token.text.start = Text.byteLength before)
    (hError : error ∈ (unescape escape content).errors) :
    Text.slice? (escapeRange source token content error).span.start
      (escapeRange source token content error).span.stop source = some error.sequence := by
  obtain ⟨early, late, hContent, hOffset, -⟩ := Escape.exists_of_mem_errors hError
  have hSlice := Text.slice?_append (before ++ early) error.sequence (late ++ after)
  have hAll : source = before ++ early ++ error.sequence ++ (late ++ after) := by
    rw [hSource, hContent]
    simp only [List.append_assoc]
  rw [← hAll, Text.byteLength_append, ← hText] at hSlice
  rw [Nat.zero_add] at hOffset
  rw [← hOffset] at hSlice
  exact hSlice

/-- A bad escape has been reported where it stands in the source. -/
structure InvalidEscape.IsReportedBy (source : List Char) (error : InvalidEscape) (m : Message) :
    Prop where
  code : m.code = .invalidEscape
  severity : m.severity = .error
  text : Text.slice? m.range.span.start m.range.span.stop source = some error.sequence

/-- The bad escapes of a string are located exactly: those of the content of its token are listed
where they are, and the construct for strings, under any escape character, makes a node of the token
and reports each of them at its place in the source, in order, attached to that node, and nothing
else. The delimiters, the content and the escape character of the lexer may be any. -/
theorem Engine.string_locates {ruleEscape : Option Char} {reading : LiteralReading} {s : Session}
    (hIn : c.IsIn s.source)
    (hRead : (LiteralRule.string opening closing ruleEscape).read? c = some reading) (e : Engine)
    (escape : Char) :
    let content := reading.token.payload s.source
    let errors := (unescape escape content).errors
    let result := e.string (some escape) reading.token s
    InvalidEscape.AreLocated escape content errors ∧
      ∃ reports, List.Forall₂ (InvalidEscape.IsReportedBy s.source) errors reports ∧
        s.Charges result.1 reports result.2 ∧
        result.2.arena.attached result.1 =
          (List.range' s.diagnostics.toList.length errors.length).map MessageId.mk ∧
        result.2.arena.kind? result.1 =
          some (.literal (.string (String.ofList (unescape escape content).value))) := by
  intro content errors result
  obtain ⟨before, after, hSource, hText⟩ := LiteralRule.exists_payload_of_read? hIn hRead
  let kind := NodeKind.literal (.string (String.ofList (unescape escape content).value))
  let faults := errors.map fun error =>
    (SyntaxFault.invalidEscape error.sequence, escapeRange s.source reading.token content error)
  have hNode := s.arena.contains_alloc_self kind reading.token.range
  have hNew : s.arena.attached result.1 = [] := s.arena.attached_size
  have hFaults := e.charges_attachFaults (s.alloc kind reading.token.range).2 faults hNode
  have hCharges := (s.charges_alloc kind reading.token.range result.1).trans hFaults
  refine ⟨Escape.areLocated_errors escape content, _, ?_, hCharges, ?_, ?_⟩
  · rw [List.nil_append, List.map_map, List.forall₂_map_right_iff, List.forall₂_same]
    exact fun error hError => ⟨rfl, rfl, slice?_escapeRange hSource hText hError⟩
  · have hAttached := hCharges.attached
    rw [hNew, List.nil_append, List.nil_append, List.length_map, List.length_map] at hAttached
    exact hAttached
  · exact hFaults.arena.kind (s.arena.kind?_alloc_self kind reading.token.range)

namespace Sample

/-- A string in guillemets, with two bad escapes behind letters of two bytes each. -/
def guillemets : List Char := "x «é\\qü\\u12» y".toList

/-- The session before that source. -/
def guillemetsSession : Session := .ofLexemes guillemets [] (.empty .eof 0 .origin)

/-- Both bad escapes are found in the content and reported in the source. -/
theorem string_locates_guillemets :
    ∃ reading, (LiteralRule.string ['«'] ['»'] (some '\\')).read?
        ((Cursor.ofSource guillemets).advanceBy 2) = some reading ∧
      let e := (Grammar.empty .standard).engine 0 0
      let s := guillemetsSession
      let content := reading.token.payload s.source
      let errors := (unescape '\\' content).errors
      let result := e.string (some '\\') reading.token s
      errors = [⟨2, ['\\', 'q']⟩, ⟨6, ['\\', 'u', '1', '2']⟩] ∧
        InvalidEscape.AreLocated '\\' content errors ∧
        ∃ reports, List.Forall₂ (InvalidEscape.IsReportedBy s.source) errors reports ∧
          s.Charges result.1 reports result.2 ∧
          result.2.arena.attached result.1 =
            (List.range' s.diagnostics.toList.length errors.length).map MessageId.mk ∧
          result.2.arena.kind? result.1 =
            some (.literal (.string (String.ofList (unescape '\\' content).value))) := by
  let c := (Cursor.ofSource guillemets).advanceBy 2
  have hRead : (LiteralRule.string ['«'] ['»'] (some '\\')).read? c =
      some (LiteralRule.readString ['«'] ['»'] (some '\\') c) := rfl
  have hPayload : (LiteralRule.readString ['«'] ['»'] (some '\\') c).token.payload guillemets =
      ['é', '\\', 'q', 'ü', '\\', 'u', '1', '2'] := by decide +kernel
  have hIn : c.IsIn guillemetsSession.source := (Cursor.isIn_ofSource guillemets).advanceBy 2
  refine ⟨_, hRead, ?_, Engine.string_locates hIn hRead _ '\\'⟩
  rw [show guillemetsSession.source = guillemets from rfl, hPayload]
  simp [unescape, Escape.resolveFrom, Escape.read, Escape.simple?, Escape.readCodePoint,
    Radix.isDigit, Radix.digitValue?, Radix.base, List.takeWhile, Char.utf8Size]

end Sample

end Precedence
