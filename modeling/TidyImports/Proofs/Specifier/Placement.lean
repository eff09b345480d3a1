import TidyImports.Proofs.Document.Placement
import TidyImports.Proofs.Edit.Accepted
import TidyImports.Proofs.Script.Placement
import TidyImports.Specifier.Replacement

/-! Where the changes that replace specifiers stand. A change replaces the inside of a literal, which
lies in its statement, so changes stand apart like the statements of a block and like the blocks of
a document. -/
namespace TidyImports.Specifier

open Document Script

variable {document : Text} {block : ScriptBlock} {fileName : Text} {r : Resolver}

def statementSpan (block : ScriptBlock) (s : Statement) : Edit.Span :=
  ⟨block.offset + s.span.start, s.span.length⟩

def statementChange? (r : Resolver) (fileName : Text) (block : ScriptBlock) (s : Statement) :
    Option Edit.Change :=
  (s.kind.source?.map (ofLiteral fileName block)).bind r.change?

theorem filterMap_ofProgram (program : Program) :
    (ofProgram fileName block program).filterMap r.change? =
      program.statements.filterMap (statementChange? r fileName block) := by
  rw [ofProgram, List.filterMap_filterMap]
  rfl

theorem ofLiteral_between (fileName : Text) {literal : SourceLiteral} (h : literal.Quoted block.text)
    (place : block.PlacedIn document) :
    (ofLiteral fileName block literal).span.start = block.offset + literal.span.start + 1 ∧
      (ofLiteral fileName block literal).span.stop = block.offset + literal.span.stop - 1 ∧
      literal.span.start + 2 ≤ literal.span.stop ∧
      document.isBoundary (block.offset + literal.span.start + 1) = true ∧
      document.isBoundary (block.offset + literal.span.stop - 1) = true := by
  obtain ⟨quote, body, rest, hquote, hplace, hlength⟩ := h
  obtain ⟨behind, hblock⟩ := place
  have hsize : quote.utf8Size = 1 := by rcases hquote with rfl | rfl <;> rfl
  have inside := (hblock.inner hplace).tail
  rw [hsize] at inside
  have hstop : literal.span.stop = literal.span.start + literal.span.length := rfl
  have hend : block.offset + literal.span.stop - 1 =
      block.offset + literal.span.start + 1 + Text.width body := by omega
  have closing : document.RestAt (block.offset + literal.span.stop - 1) (quote :: rest ++ behind) := by
    rw [hend]
    apply Text.RestAt.append
    simpa using inside
  refine ⟨rfl, ?_, by omega, inside.isBoundary, closing.isBoundary⟩
  rw [ofLiteral, Edit.Span.stop_ofBounds]
  omega

/-- The inside of a literal ends in front of its closing quote, so in front of the end of its
statement. -/
structure InsideStatement (document : Text) (block : ScriptBlock) (s : Statement)
    (inside : Edit.Span) : Prop where
  start_le : (statementSpan block s).start ≤ inside.start
  stop_lt : inside.stop < (statementSpan block s).stop
  between : document.isBoundary inside.start = true ∧ document.isBoundary inside.stop = true

theorem insideStatement_ofLiteral (fileName : Text) {s : Statement} {literal : SourceLiteral}
    (placed : s.Placed block.text) (place : block.PlacedIn document)
    (h : s.kind.source? = some literal) :
    InsideStatement document block s (ofLiteral fileName block literal).span := by
  obtain ⟨quoted, hfirst, hlast⟩ := placed.sourced literal h
  obtain ⟨hstart, hstop, hlong, hbefore, hbehind⟩ := ofLiteral_between fileName quoted place
  have hlow : (statementSpan block s).start = block.offset + s.span.start := rfl
  have hhigh : (statementSpan block s).stop = block.offset + s.span.stop := by
    simp only [statementSpan, Edit.Span.stop]
    omega
  refine ⟨?_, ?_, ?_, ?_⟩
  · rw [hstart, hlow]
    omega
  · rw [hstop, hhigh]
    omega
  · rwa [hstart]
  · rwa [hstop]

theorem start_stop_of_change? {specifier : ModuleSpecifier} {c : Edit.Change}
    (h : r.change? specifier = some c) :
    c.start = specifier.span.start ∧ c.stop = specifier.span.stop := by
  obtain ⟨text, _, rfl⟩ := Option.map_eq_some_iff.1 h
  refine ⟨rfl, ?_⟩
  rw [Edit.Change.replace, Edit.Change.stop, Edit.Span.stop_ofBounds,
    Nat.max_eq_right specifier.span.start_le_stop]

theorem statementChange?_in {s : Statement} {c : Edit.Change} (placed : s.Placed block.text)
    (place : block.PlacedIn document) (h : statementChange? r fileName block s = some c) :
    c.In (statementSpan block s).start (statementSpan block s).stop ∧
      document.isBoundary c.start = true ∧ document.isBoundary c.stop = true := by
  obtain ⟨specifier, hspecifier, hchange⟩ := Option.bind_eq_some_iff.1 h
  obtain ⟨literal, hliteral, rfl⟩ := Option.map_eq_some_iff.1 hspecifier
  obtain ⟨hlow, hhigh, hbetween⟩ := insideStatement_ofLiteral fileName placed place hliteral
  have hle := (ofLiteral fileName block literal).span.start_le_stop
  obtain ⟨hstart, hstop⟩ := start_stop_of_change? hchange
  rw [hstart, hstop]
  exact ⟨⟨by omega, by omega, by omega, by omega⟩, hbetween⟩

theorem statementSpan_within {s : Statement} (placed : s.Placed block.text) :
    block.span.start ≤ (statementSpan block s).start ∧
      (statementSpan block s).stop ≤ block.span.stop := by
  obtain ⟨rest, hstop⟩ := Text.restAt_of_isBoundary placed.stop
  have inside := hstop.le_width
  simp only [ScriptBlock.span, statementSpan, Edit.Span.stop] at inside ⊢
  omega

theorem ordered_statementSpans (block : ScriptBlock) {statements : List Statement}
    (h : statements.Pairwise fun a b => a.span.stop ≤ b.span.start) :
    statements.Pairwise fun a b => (statementSpan block a).stop ≤ (statementSpan block b).start := by
  refine h.imp fun {a b} hle => ?_
  simp only [statementSpan, Edit.Span.stop] at hle ⊢
  omega

theorem ofProgram_isPatchIn {program : Program}
    (h : Statement.InOrder block.text program.statements) (place : block.PlacedIn document) :
    Edit.IsPatchIn document block.span.start block.span.stop
      ((ofProgram fileName block program).filterMap r.change?) := by
  rw [filterMap_ofProgram]
  refine ⟨Edit.isPatch_filterMap (statementSpan block) (ordered_statementSpans block h.ordered)
    fun s hs c hc => statementChange?_in (h.placed s hs) place hc, fun c hc => ?_⟩
  obtain ⟨s, hs, hchange⟩ := List.mem_filterMap.1 hc
  obtain ⟨hlow, hlt, hle, hhigh⟩ := (statementChange?_in (h.placed s hs) place hchange).1
  obtain ⟨hstart, hstop⟩ := statementSpan_within (h.placed s hs)
  constructor <;> omega

theorem blocks_eq_ok {blocks : List ScriptBlock} {changes : List Edit.Change}
    (h : (r.blocks fileName blocks).outcome = .ok changes) :
    ∃ lists, changes = lists.flatten.filterMap r.change? ∧
      List.Forall₂ (fun block specifiers => collect fileName block = .ok specifiers) blocks lists := by
  induction blocks generalizing changes with
  | nil =>
      cases h
      exact ⟨[], rfl, .nil⟩
  | cons block rest ih =>
      simp only [Resolver.blocks] at h
      cases hcollect : collect fileName block with
      | error e => simp [hcollect] at h
      | ok specifiers =>
          simp only [hcollect, Except.map] at h
          cases hrest : (r.blocks fileName rest).outcome with
          | error e => simp [hrest] at h
          | ok more =>
              obtain ⟨lists, rfl, each⟩ := ih hrest
              simp only [hrest, Except.ok.injEq] at h
              refine ⟨specifiers :: lists, ?_, .cons hcollect each⟩
              rw [List.flatten_cons, List.filterMap_append, h]

theorem collect_eq_ok {specifiers : List ModuleSpecifier}
    (h : collect fileName block = .ok specifiers) :
    ∃ program, parse block.kind.dialect block.text = .ok program ∧
      specifiers = ofProgram fileName block program := by
  rw [collect] at h
  cases hparse : parse block.kind.dialect block.text with
  | error e => simp [hparse, Except.map] at h
  | ok program =>
      rw [hparse] at h
      exact ⟨program, rfl, (Except.ok.inj h).symm⟩

/-- The changes of the rewriter are accepted as they are, for all options and aliases. -/
theorem document_isPatch (r : Resolver) (fileName : Text) (kind : Document.Kind)
    {changes : List Edit.Change}
    (h : (r.document fileName kind document).outcome = .ok changes) :
    Edit.IsPatch document changes := by
  obtain ⟨lists, rfl, each⟩ := blocks_eq_ok h
  have inOrder := inOrder_scriptBlocks kind document
  have found : List.Forall₂ (fun block list => ∃ specifiers,
      collect fileName block = .ok specifiers ∧ list = specifiers.filterMap r.change?)
      (scriptBlocks kind document) (lists.map (List.filterMap r.change?)) :=
    List.forall₂_map_right_iff.2 (each.imp fun block specifiers h => ⟨specifiers, h, rfl⟩)
  rw [List.filterMap_flatten]
  refine (Edit.isPatch_flatten ScriptBlock.span found inOrder.ordered ?_).1
  rintro block hblock list ⟨specifiers, hcollect, rfl⟩
  obtain ⟨program, hparse, rfl⟩ := collect_eq_ok hcollect
  exact ofProgram_isPatchIn (inOrder_of_parse hparse) (inOrder.placed block hblock)

end TidyImports.Specifier
