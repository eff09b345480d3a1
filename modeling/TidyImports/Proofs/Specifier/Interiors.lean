import TidyImports.Proofs.Edit.Regions
import TidyImports.Proofs.Specifier.Placement

/-! What replacing specifiers leaves of a document. Nothing but the insides of relative specifiers
changes, and they lie in script blocks. -/
namespace TidyImports.Document

variable {document : Text} {block : ScriptBlock} {blocks : List ScriptBlock}

theorem ScriptBlock.PlacedIn.slice_eq (h : block.PlacedIn document) :
    document.slice block.span.start block.span.stop = block.text := by
  obtain ⟨rest, place⟩ := h
  exact place.slice_eq

theorem ScriptBlock.InOrder.spansInOrder (h : ScriptBlock.InOrder document blocks) :
    Edit.SpansInOrder document (blocks.map ScriptBlock.span) := by
  refine ⟨List.forall_mem_map.2 fun block hblock => ?_, List.pairwise_map.2 h.ordered⟩
  obtain ⟨rest, place⟩ := h.placed block hblock
  exact ⟨place.isBoundary, place.append.isBoundary⟩

end TidyImports.Document

namespace TidyImports.Specifier

open Document Script

variable {document fileName : Text} {block : ScriptBlock} {r : Resolver} {s : ModuleSpecifier}
  {specifiers : List ModuleSpecifier}

def relatives (specifiers : List ModuleSpecifier) : List ModuleSpecifier :=
  specifiers.filter (·.kind = .relative)

def Resolver.interior (r : Resolver) (document : Text) (s : ModuleSpecifier) : Text :=
  (r.newText? s).getD (document.slice s.span.start s.span.stop)

theorem change?_of_not_relative (h : s.kind ≠ .relative) : r.change? s = none := by
  simp [Resolver.change?, Resolver.newText?, Resolver.resolve?, h]

theorem filterMap_relatives (specifiers : List ModuleSpecifier) :
    (relatives specifiers).filterMap r.change? = specifiers.filterMap r.change? := by
  rw [relatives, List.filterMap_filter]
  congr 1
  funext s
  by_cases h : s.kind = .relative
  · simp [h]
  · simp [h, change?_of_not_relative h]

theorem puts_change? (r : Resolver) (document : Text) (s : ModuleSpecifier) :
    Edit.Puts document (r.interior document s) s.span (r.change? s) := by
  cases hnew : r.newText? s with
  | none => simp [Edit.Puts, Resolver.interior, Resolver.change?, hnew]
  | some text =>
      have hchange : r.change? s = some (.replace s.span.start s.span.stop text) := by
        rw [Resolver.change?, hnew, Option.map_some]
      obtain ⟨hstart, hstop⟩ := start_stop_of_change? hchange
      rw [hchange, Resolver.interior, hnew]
      exact ⟨hstart, hstop, rfl⟩

theorem spansInOrder_collect (h : collect fileName block = .ok specifiers)
    (place : block.PlacedIn document) :
    Edit.SpansInOrder document (specifiers.map ModuleSpecifier.span) ∧ ∀ s ∈ specifiers,
      block.span.start ≤ s.span.start ∧ s.span.stop ≤ block.span.stop := by
  obtain ⟨program, hparse, rfl⟩ := collect_eq_ok h
  have inOrder := inOrder_of_parse hparse
  have inside : ∀ statement ∈ program.statements, ∀ s,
      statement.kind.source?.map (ofLiteral fileName block) = some s →
        InsideStatement document block statement s.span := by
    intro statement hstatement s hs
    obtain ⟨literal, hliteral, rfl⟩ := Option.map_eq_some_iff.1 hs
    exact insideStatement_ofLiteral fileName (inOrder.placed statement hstatement) place hliteral
  refine ⟨⟨List.forall_mem_map.2 fun s hs => ?_, List.pairwise_map.2 ?_⟩, fun s hs => ?_⟩
  · obtain ⟨statement, hstatement, hsource⟩ := List.mem_filterMap.1 hs
    exact (inside statement hstatement s hsource).between
  · refine List.pairwise_filterMap.2
      ((ordered_statementSpans block inOrder.ordered).imp_of_mem ?_)
    intro first second hfirst hsecond hle s hs t ht
    have before := (inside first hfirst s hs).stop_lt
    have behind := (inside second hsecond t ht).start_le
    omega
  · obtain ⟨statement, hstatement, hsource⟩ := List.mem_filterMap.1 hs
    have within := statementSpan_within (inOrder.placed statement hstatement)
    have inside := inside statement hstatement s hsource
    have hstart := inside.start_le
    have hstop := inside.stop_lt
    omega

/-- The changes of a resolver put its texts into the relative specifiers that are found, each of them
inside a script block, and keep everything else. -/
def InteriorsReplaced (r : Resolver) (fileName : Text) (kind : Document.Kind) (document : Text)
    (changes : List Edit.Change) : Prop :=
  ∃ lists, List.Forall₂ (fun block specifiers => collect fileName block = .ok specifiers)
      (scriptBlocks kind document) lists ∧
    (∀ s ∈ relatives lists.flatten, ∃ block ∈ scriptBlocks kind document,
      block.span.start ≤ s.span.start ∧ s.span.stop ≤ block.span.stop) ∧
    Edit.apply document changes = .ok (Edit.weave
      (Edit.gaps 0 document ((relatives lists.flatten).map ModuleSpecifier.span))
      ((relatives lists.flatten).map (r.interior document)))

theorem interiorsReplaced_document {kind : Document.Kind} {changes : List Edit.Change}
    (h : (r.document fileName kind document).outcome = .ok changes) :
    InteriorsReplaced r fileName kind document changes := by
  have patch := document_isPatch r fileName kind h
  obtain ⟨lists, rfl, each⟩ := blocks_eq_ok h
  have blocks := inOrder_scriptBlocks kind document
  obtain ⟨spans, inside⟩ := Edit.spansInOrder_flatten each blocks.spansInOrder
    fun block hblock specifiers hcollect =>
      spansInOrder_collect hcollect (blocks.placed block hblock)
  have part : ((relatives lists.flatten).map ModuleSpecifier.span).Sublist
      (lists.flatten.map ModuleSpecifier.span) := List.filter_sublist.map _
  refine ⟨lists, each, fun s hs => inside s (List.mem_filter.1 hs).1, ?_⟩
  rw [patch.apply_eq_ok, ← filterMap_relatives]
  exact congrArg Except.ok (Edit.splice_filterMap
    ⟨fun s hs => spans.between s (part.subset hs), spans.ordered.sublist part⟩
    (Text.restAt_zero document) (fun _ _ => Nat.zero_le _) fun s _ => puts_change? r document s)

end TidyImports.Specifier
