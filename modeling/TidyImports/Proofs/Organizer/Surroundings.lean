import TidyImports.Proofs.Organizer.Patches
import TidyImports.Proofs.Specifier.Interiors

/-! What stands around the scripts of a document. Organizing a document organizes each script block by
itself and puts the new blocks in the place of the old ones; replacing specifiers changes nothing
but the insides of relative specifiers in those blocks. -/
namespace TidyImports.Organizer

open Document Import Script

variable {document fileName : Text} {keepUnused : Bool} {order : TypeOrder}

def alone (block : ScriptBlock) : ScriptBlock := { block with offset := 0 }

theorem organizeBlock_alone {block : ScriptBlock} {program : Program}
    (h : parse block.kind.dialect block.text = .ok program) :
    organizeBlock (alone block) keepUnused order =
      .ok (organizeProgram block.text program (keepUnused || block.embedded)
        block.kind.hasElements order) := by
  simp only [organizeBlock, alone, h, Except.map, shift_zero, List.map_id]

/-- The text that organizing a block by itself makes of it. -/
def OrganizedAlone (keepUnused : Bool) (order : TypeOrder) (block : ScriptBlock) (new : Text) : Prop :=
  ∃ own, organizeBlock (alone block) keepUnused order = .ok own ∧ Edit.apply block.text own = .ok new

theorem BlockChanges.organizedAlone {block : ScriptBlock} {changes : List Edit.Change}
    (h : BlockChanges keepUnused order block changes) :
    OrganizedAlone keepUnused order block (Edit.splice block.span.start block.text changes) := by
  obtain ⟨program, hparse, rfl⟩ := h
  have own : Edit.IsPatch block.text (organizeProgram block.text program
      (keepUnused || block.embedded) block.kind.hasElements order) :=
    (organizeProgram_isPatchIn (inOrder_of_parse hparse)).patch
  refine ⟨_, organizeBlock_alone hparse, ?_⟩
  have moved := Edit.splice_shift (n := 0) (t := block.text) block.offset (organizeProgram block.text
    program (keepUnused || block.embedded) block.kind.hasElements order)
  rw [Nat.zero_add] at moved
  rw [own.apply_eq_ok, ScriptBlock.span, moved]

/-- Changes leave the gaps between the blocks of a document as they are and give each block the text that
organizing it by itself makes of it. -/
def BlocksOrganized (keepUnused : Bool) (order : TypeOrder) (kind : Document.Kind) (document : Text)
    (changes : List Edit.Change) : Prop :=
  ∃ news, List.Forall₂ (OrganizedAlone keepUnused order) (scriptBlocks kind document) news ∧
    Edit.apply document changes = .ok (Edit.weave
      (Edit.gaps 0 document ((scriptBlocks kind document).map ScriptBlock.span)) news)

theorem blocksOrganized_organizeDocument {kind : Document.Kind} {changes : List Edit.Change}
    (h : organizeDocument kind document keepUnused order = .ok changes) :
    BlocksOrganized keepUnused order kind document changes := by
  have patch := organizeDocument_isPatch h
  obtain ⟨lists, rfl, each⟩ := organizeBlocks_eq_ok h
  have inOrder := inOrder_scriptBlocks kind document
  have found : List.Forall₂
      (fun block list => block.PlacedIn document ∧ BlockChanges keepUnused order block list)
      (scriptBlocks kind document) lists :=
    (List.forall₂_and_left _ _).2 ⟨inOrder.placed, each⟩
  obtain ⟨news, hnews, hsplice⟩ := Edit.splice_flatten found inOrder.spansInOrder
    (fun block _ list hlist => hlist.2.isPatchIn hlist.1) (Text.restAt_zero document)
    fun _ _ => Nat.zero_le _
  refine ⟨news, hnews.imp ?_, ?_⟩
  · rintro block new ⟨list, ⟨place, hlist⟩, rfl⟩
    rw [place.slice_eq]
    exact hlist.organizedAlone
  · rw [patch.apply_eq_ok, hsplice]

/-- A document is its script blocks and the gaps around them. The changes of the built-in service keep the
gaps and put each block in its place as organizing it alone leaves it; those of a resolver keep all
but the insides of relative specifiers in the blocks. -/
theorem surroundings_kept (kind : Document.Kind) (fileName text : Text) :
    Edit.weave (Edit.gaps 0 text ((scriptBlocks kind text).map ScriptBlock.span))
        ((scriptBlocks kind text).map ScriptBlock.text) = text ∧
    (∀ (request : ServiceRequest) (records : List FileChanges),
      answer kind fileName text request = .ok records →
        BlocksOrganized request.keepUnused request.order kind text (changesOf fileName records)) ∧
    ∀ (r : Specifier.Resolver) (changes : List Edit.Change),
      (r.document fileName kind text).outcome = .ok changes →
        Specifier.InteriorsReplaced r fileName kind text changes := by
  refine ⟨?_, fun request records h => blocksOrganized_organizeDocument (answer_eq_ok h),
    fun r changes h => Specifier.interiorsReplaced_document h⟩
  have inOrder := inOrder_scriptBlocks kind text
  have whole := Edit.weave_old inOrder.spansInOrder (Text.restAt_zero text) fun _ _ => Nat.zero_le _
  have same : (scriptBlocks kind text).map (fun block => text.slice block.span.start block.span.stop) =
      (scriptBlocks kind text).map ScriptBlock.text :=
    List.map_congr_left fun block hblock => (inOrder.placed block hblock).slice_eq
  rwa [List.map_map, Function.comp_def, same] at whole

/-- A component with wide characters in front of both scripts: nothing is to be done in the first one,
and two import groups of the second are indented. -/
def sampleComponent : Text :=
  "é<script>a()</script>ü<script>import b from 'b'\n import '../a'\n\nimport '../d'\n import c from 'c'</script>".toList

def sampleUnindented : List Edit.Change :=
  [.replace 32 64 "import b from 'b'\nimport '../a'".toList,
    .replace 66 98 "import '../d'\nimport c from 'c'".toList]

theorem sampleComponent_surroundings :
    answer .vue "c.vue".toList sampleComponent ⟨"c.vue".toList, false, .last⟩ =
        .ok [⟨"c.vue".toList, sampleUnindented, false⟩] ∧
      BlocksOrganized false .last .vue sampleComponent sampleUnindented ∧
      (sampleResolver.document "c.vue".toList .vue sampleComponent).outcome =
        .ok [.replace 59 63 "@/a".toList, .replace 74 78 "@/d".toList] ∧
      Specifier.InteriorsReplaced sampleResolver "c.vue".toList .vue sampleComponent
        [.replace 59 63 "@/a".toList, .replace 74 78 "@/d".toList] := by
  obtain ⟨_, organizer, rewriter⟩ := surroundings_kept .vue "c.vue".toList sampleComponent
  have answered : answer .vue "c.vue".toList sampleComponent ⟨"c.vue".toList, false, .last⟩ =
      .ok [⟨"c.vue".toList, sampleUnindented, false⟩] := eq_ok_of_toOption (by decide +kernel)
  have replaced : (sampleResolver.document "c.vue".toList .vue sampleComponent).outcome =
      .ok [.replace 59 63 "@/a".toList, .replace 74 78 "@/d".toList] :=
    eq_ok_of_toOption (by decide +kernel)
  exact ⟨answered, organizer _ _ answered, replaced, rewriter _ _ replaced⟩

end TidyImports.Organizer
