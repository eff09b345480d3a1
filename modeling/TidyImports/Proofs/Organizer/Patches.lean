import TidyImports.Organizer.Pipeline
import TidyImports.Proofs.Import.Groups
import TidyImports.Proofs.Specifier.Placement

/-! The patches of the built-in passes. Each pass goes through the script blocks of a document, and
what it finds in a block is a patch of the block; put together these are a patch of the document, so
no run of the organizer fails because of its own changes. -/
namespace TidyImports.Organizer

open Document Import Script

variable {document fileName : Text} {keepUnused : Bool} {order : TypeOrder}

/-- What the organizer finds in a block: the changes of its parsed script, in offsets of the
document. -/
def BlockChanges (keepUnused : Bool) (order : TypeOrder) (block : ScriptBlock)
    (changes : List Edit.Change) : Prop :=
  ∃ program, parse block.kind.dialect block.text = .ok program ∧
    changes = (organizeProgram block.text program (keepUnused || block.embedded)
      block.kind.hasElements order).map (Edit.Change.shift block.offset)

theorem organizeBlocks_eq_ok {blocks : List ScriptBlock} {changes : List Edit.Change}
    (h : organizeBlocks keepUnused order blocks = .ok changes) :
    ∃ lists, changes = lists.flatten ∧
      List.Forall₂ (BlockChanges keepUnused order) blocks lists := by
  induction blocks generalizing changes with
  | nil =>
      cases h
      exact ⟨[], rfl, .nil⟩
  | cons block rest ih =>
      simp only [organizeBlocks, organizeBlock] at h
      cases hparse : parse block.kind.dialect block.text with
      | error e => simp [hparse, Except.map] at h
      | ok program =>
          simp only [hparse, Except.map] at h
          cases hrest : organizeBlocks keepUnused order rest with
          | error e => simp [hrest] at h
          | ok more =>
              obtain ⟨lists, rfl, each⟩ := ih hrest
              simp only [hrest, Except.ok.injEq] at h
              exact ⟨_ :: lists, h.symm, .cons ⟨program, hparse, rfl⟩ each⟩

theorem BlockChanges.isPatchIn {block : ScriptBlock} {changes : List Edit.Change}
    (h : BlockChanges keepUnused order block changes) (place : block.PlacedIn document) :
    Edit.IsPatchIn document block.span.start block.span.stop changes := by
  obtain ⟨program, hparse, rfl⟩ := h
  obtain ⟨rest, here⟩ := place
  exact (organizeProgram_isPatchIn (inOrder_of_parse hparse)).shift here

theorem organizeDocument_isPatch {kind : Document.Kind} {changes : List Edit.Change}
    (h : organizeDocument kind document keepUnused order = .ok changes) :
    Edit.IsPatch document changes := by
  obtain ⟨lists, rfl, each⟩ := organizeBlocks_eq_ok h
  have inOrder := inOrder_scriptBlocks kind document
  exact (Edit.isPatch_flatten ScriptBlock.span each inOrder.ordered fun block hblock list hlist =>
    hlist.isPatchIn (inOrder.placed block hblock)).1

/-- A change of the organizer covers one import group of one block, with at most the line break
behind it, and touches no other group. -/
def CoversOneGroup (kind : Document.Kind) (document : Text) (c : Edit.Change) : Prop :=
  ∃ block ∈ scriptBlocks kind document, ∃ program group inBlock,
    parse block.kind.dialect block.text = .ok program ∧
      group ∈ importGroups block.text program.statements ∧
      c = Edit.Change.shift block.offset inBlock ∧ CoversGroup block.text group inBlock ∧
      ∀ other ∈ importGroups block.text program.statements, other ≠ group →
        inBlock.stop ≤ (groupSpan other).start ∨ (groupSpan other).stop ≤ inBlock.start

theorem organizeDocument_covers {kind : Document.Kind} {changes : List Edit.Change}
    (h : organizeDocument kind document keepUnused order = .ok changes) :
    ∀ c ∈ changes, CoversOneGroup kind document c := by
  obtain ⟨lists, rfl, each⟩ := organizeBlocks_eq_ok h
  intro c hc
  obtain ⟨list, hlist, hc⟩ := List.mem_flatten.1 hc
  obtain ⟨block, hblock, program, hparse, rfl⟩ := Edit.exists_of_forall₂ each list hlist
  obtain ⟨inBlock, hin, rfl⟩ := List.mem_map.1 hc
  have inOrder := inOrder_of_parse hparse
  obtain ⟨group, hgroup, covers⟩ := organizeProgram_covers inOrder inBlock hin
  exact ⟨block, hblock, program, group, inBlock, hparse, hgroup, rfl, covers,
    (groupsInOrder_of_inOrder inOrder).covers_one hgroup covers⟩

theorem answer_eq_ok {kind : Document.Kind} {request : ServiceRequest}
    {records : List FileChanges} (h : answer kind fileName document request = .ok records) :
    organizeDocument kind document request.keepUnused request.order =
      .ok (changesOf fileName records) := by
  unfold answer at h
  split at h
  · simp at h
  · split at h
    · simp at h
    · next hchanges =>
      cases h
      simpa [changesOf] using hchanges
    · next changes _ hchanges =>
      cases h
      simpa [changesOf] using hchanges

theorem patched_eq_ok {changes : List Edit.Change} (h : Edit.IsPatch document changes) :
    patched document changes = .ok (Edit.splice 0 document changes) := by
  simp only [patched, h.apply_eq_ok]

theorem applyRecords_eq_patched (w : World) (records : List FileChanges) :
    (applyRecords w fileName document records).1 =
      patched document (changesOf fileName records) := by
  unfold applyRecords
  split
  · next hnone => rw [hnone]
  · rfl

theorem shift_zero : Edit.Change.shift 0 = id := funext fun _ => rfl

theorem organizeDocument_script (keepUnused : Bool) (order : TypeOrder) {kind : ScriptKind}
    {program : Program} (h : parse kind.dialect document = .ok program) :
    organizeDocument (.script kind) document keepUnused order =
      .ok (organizeProgram document program keepUnused kind.hasElements order) := by
  simp only [organizeDocument, scriptBlocks, organizeBlocks, organizeBlock, h, Except.map,
    Bool.or_false, shift_zero, List.map_id, List.append_nil]

theorem organizeText_eq_ok (w : World) {options : Settings.Options} {kind : Document.Kind}
    {changes : List Edit.Change} (hkind : Kind.resolve? options.parser fileName = some kind)
    (h : organizeDocument kind document options.keepUnused options.typeOrder = .ok changes) :
    (organizeText builtIn w fileName document options).1 = .ok (Edit.splice 0 document changes) := by
  have patch := patched_eq_ok (organizeDocument_isPatch h)
  have answered : ∃ records, answer kind fileName document
        ⟨fileName, options.keepUnused, options.typeOrder⟩ = .ok records ∧
      changesOf fileName records = changes := by
    cases changes with
    | nil => exact ⟨[], by simp [answer, h], rfl⟩
    | cons c changes =>
        exact ⟨[⟨fileName, c :: changes, false⟩], by simp [answer, h], by simp [changesOf]⟩
  obtain ⟨records, hrecords, hchanges⟩ := answered
  simp only [organizeText, builtIn, hkind, hrecords]
  rw [applyRecords_eq_patched, hchanges, patch]

def NoPatchError (result : Except OrganizeError Text) : Prop :=
  ∀ e, result ≠ .error (.patch e)

theorem noPatchError_replaceSpecifiers (w : World) (fileName document : Text)
    (options : Settings.Options) :
    NoPatchError (replaceSpecifiers w fileName document options).1 := by
  intro e
  simp only [replaceSpecifiers]
  split
  · simp
  · split
    · simp
    · next changes hchanges =>
      rw [patched_eq_ok (Specifier.document_isPatch _ _ _ hchanges)]
      simp

theorem noPatchError_organizeText (w : World) (options : Settings.Options) :
    NoPatchError (organizeText builtIn w fileName document options).1 := by
  intro e
  simp only [organizeText]
  split
  · next failure _ => cases failure <;> simp [OrganizeError.ofService]
  · next service hservice =>
    split
    · next failure _ => cases failure <;> simp [OrganizeError.ofService]
    · next records hrecords =>
      obtain ⟨kind, rfl⟩ : ∃ kind, answer kind fileName document = service := by
        simp only [builtIn] at hservice
        split at hservice
        · next kind _ => exact ⟨kind, Except.ok.inj hservice⟩
        · simp at hservice
      have patch := organizeDocument_isPatch (answer_eq_ok hrecords)
      rw [applyRecords_eq_patched, patched_eq_ok patch]
      simp

theorem noPatchError_organize (w : World) (code : Text) (options : Settings.Options) :
    NoPatchError (organize builtIn w code options).1 := by
  simp only [organize]
  split
  · simp [NoPatchError]
  · split
    · split
      · next e w' hreplace =>
        have clean := noPatchError_replaceSpecifiers w (Path.normalizeSeparators options.effectivePath)
          code options
        rw [hreplace] at clean
        exact clean
      · exact noPatchError_organizeText _ _
    · exact noPatchError_organizeText _ _

/-- The changes of both built-in passes are accepted as they are: for every kind of document, text,
resolver and request they ascend, stand apart, inside the text and between characters. A change of
the organizer covers one group, with the line break behind it only if nothing is left of the group.
So no run with the built-in service refuses a patch. -/
theorem builtIn_never_refused (kind : Document.Kind) (fileName text : Text) :
    (∀ (r : Specifier.Resolver) (changes : List Edit.Change),
      (r.document fileName kind text).outcome = .ok changes → Edit.IsPatch text changes) ∧
    (∀ (request : ServiceRequest) (records : List FileChanges),
      answer kind fileName text request = .ok records →
        Edit.IsPatch text (changesOf fileName records) ∧
          ∀ c ∈ changesOf fileName records, CoversOneGroup kind text c) ∧
    ∀ (w : World) (options : Settings.Options) (e : Edit.PatchError),
      (organize builtIn w text options).1 ≠ .error (.patch e) := by
  refine ⟨fun r changes h => Specifier.document_isPatch r fileName kind h,
    fun request records h => ?_, fun w options e => noPatchError_organize w text options e⟩
  have changes := answer_eq_ok h
  exact ⟨organizeDocument_isPatch changes, organizeDocument_covers changes⟩

def sampleResolver : Specifier.Resolver :=
  ⟨{ Settings.SpecifierOptions.none with absolutePathPrefix := some "@/".toList }, .empty,
    "/p".toList, "/p/src".toList⟩

theorem unusedImport_never_refused :
    Edit.IsPatch "/* é */\nimport a from '../a'\r\nb()".toList [.replace 24 28 "@/a".toList] ∧
      Edit.IsPatch "/* é */\nimport a from '../a'\r\nb()".toList [.replace 9 31 []] ∧
      CoversOneGroup (.script .ts) "/* é */\nimport a from '../a'\r\nb()".toList
        (.replace 9 31 []) := by
  obtain ⟨rewriter, organizer, _⟩ := builtIn_never_refused (.script .ts) "file.ts".toList
    "/* é */\nimport a from '../a'\r\nb()".toList
  have replaced := rewriter sampleResolver [.replace 24 28 "@/a".toList]
    (eq_ok_of_toOption (by decide +kernel))
  obtain ⟨removed, covers⟩ := organizer ⟨"file.ts".toList, false, .last⟩
    [⟨"file.ts".toList, [.replace 9 31 []], false⟩] (eq_ok_of_toOption (by decide +kernel))
  exact ⟨replaced, removed, covers _ (by decide)⟩

end TidyImports.Organizer
