import TidyImports.Proofs.Document.Replaced
import TidyImports.Proofs.Organizer.OutsideImports
import TidyImports.Proofs.Organizer.Surroundings
import TidyImports.Proofs.Organizer.World
import TidyImports.Proofs.Specifier.Replaced

/-! Running twice. Organized imports are organized into themselves, and replaced specifiers are not
replaced again, so a second run leaves the text of the first one as it is, provided that the text is
read back as it was printed. The scripts of a document are read back if each print is set apart from what
stands behind it and the statements between the groups are read as before. Whatever breaks this, such as a
missing semicolon between an import and the code behind it, breaks the second run. -/
namespace TidyImports.Import

variable {text : Text} {order : TypeOrder} {isUsed : Text → Bool}

/-- A group of a text is read as the organized imports that it was printed from. -/
structure ReadsBack (text : Text) (comments : List Edit.Span) (isUsed : Text → Bool)
    (order : TypeOrder) (group : List Script.ImportDeclaration) (imports : List Item) : Prop where
  read : group.filterMap (Item.ofDeclaration? text comments isUsed) =
    (organizeGroup order imports).map (Item.printed (newlineOf text))
  print : text.slice (groupSpan group).start (groupSpan group).stop =
    Text.glue (newlineOf text) ((organizeGroup order imports).map (Item.render (newlineOf text)))

theorem ReadsBack.organizedText_eq {program : Script.Program}
    {group : List Script.ImportDeclaration} {imports : List Item}
    (h : ReadsBack text program.comments isUsed order group imports) :
    organizedText text program isUsed order group =
      text.slice (groupSpan group).start (groupSpan group).stop := by
  have settled : GroupSettled order
      ((organizeGroup order imports).map (Item.printed (newlineOf text))) :=
    groupSettled_printed (groupSettled_organizeGroup order imports)
  rw [organizedText, h.read, organizeGroup_eq_self settled, h.print, List.map_map]
  rfl

end TidyImports.Import

namespace TidyImports.Organizer

open Document Import Script

variable {document fileName : Text}

def resolverOf (w : World) (fileName : Text) (options : Settings.Options) : Specifier.Resolver :=
  Specifier.Resolver.new w.tree options.specifiers (optionAliases w options.specifiers).1
    (w.tree.resolve fileName)

def BlockReadsBack (keepUnused : Bool) (order : TypeOrder) (block : ScriptBlock) : Prop :=
  ∃ program, parse block.kind.dialect block.text = .ok program ∧
    ∀ group ∈ importGroups block.text program.statements, ∃ imports,
      ReadsBack block.text program.comments
        (isUsedIn program (keepUnused || block.embedded) block.kind.hasElements) order group imports

def BlockStands (keepUnused : Bool) (order : TypeOrder) (block : ScriptBlock) : Prop :=
  ∃ program, parse block.kind.dialect block.text = .ok program ∧
    ∀ group ∈ importGroups block.text program.statements,
      organizedText block.text program
        (isUsedIn program (keepUnused || block.embedded) block.kind.hasElements) order group =
          block.text.slice (groupSpan group).start (groupSpan group).stop

def SpecifierOf (fileName : Text) (kind : Document.Kind) (document : Text)
    (s : Specifier.ModuleSpecifier) : Prop :=
  ∃ block ∈ scriptBlocks kind document, ∃ specifiers,
    Specifier.collect fileName block = .ok specifiers ∧ s ∈ specifiers

/-- A block is parsed, and each of its specifiers is one of a document as a resolver leaves it: replaced,
or as it was. -/
def BlockLeft (r : Specifier.Resolver) (fileName : Text) (kind : Document.Kind) (document : Text)
    (block : ScriptBlock) : Prop :=
  ∃ specifiers, Specifier.collect fileName block = .ok specifiers ∧ ∀ t ∈ specifiers, ∃ s,
    SpecifierOf fileName kind document s ∧ t.targetModule = (r.newText? s).getD s.targetModule

/-- A text is read back as a run over a document printed it. -/
structure TextReadsBack (w : World) (options : Settings.Options) (kind : Document.Kind)
    (document text : Text) : Prop where
  groups : ∀ block ∈ scriptBlocks kind text,
    BlockReadsBack options.keepUnused options.typeOrder block
  specifiers : options.specifiers.isEnabled = true → ∀ block ∈ scriptBlocks kind text,
    BlockLeft (resolverOf w (Path.normalizeSeparators options.effectivePath) options)
      (Path.normalizeSeparators options.effectivePath) kind document block

/-- The text that a run organizes: the document with its specifiers replaced. -/
def replacedText (w : World) (document : Text) (options : Settings.Options) : Except OrganizeError Text :=
  if options.specifiers.isEnabled then
    (replaceSpecifiers w (Path.normalizeSeparators options.effectivePath) document options).1
  else .ok document

/-- A block is parsed, what is printed for it can be read again as it is printed, and does not close the
element that it stands in. -/
def BlockRepeats (keepUnused : Bool) (order : TypeOrder) (block : ScriptBlock) : Prop :=
  ∃ program, parse block.kind.dialect block.text = .ok program ∧
    Repeatable block.kind.dialect block.text program
      (isUsedIn program (keepUnused || block.embedded) block.kind.hasElements) order ∧
    (block.embedded = true → elementBody? (organizedScript block.text program
      (isUsedIn program (keepUnused || block.embedded) block.kind.hasElements) order) = none)

/-- The blocks of a document with its specifiers replaced are repeatable, and what replaced the specifiers is
read as it was put in. -/
def DocumentRepeats (w : World) (options : Settings.Options) (kind : Document.Kind) (document : Text) :
    Prop :=
  ∃ text, replacedText w document options = .ok text ∧ ∀ block ∈ scriptBlocks kind text,
    BlockRepeats options.keepUnused options.typeOrder block ∧
    (options.specifiers.isEnabled = true →
      BlockLeft (resolverOf w (Path.normalizeSeparators options.effectivePath) options)
        (Path.normalizeSeparators options.effectivePath) kind document block)

structure TextStands (w : World) (options : Settings.Options) (kind : Document.Kind)
    (document text : Text) : Prop where
  groups : ∀ block ∈ scriptBlocks kind text, BlockStands options.keepUnused options.typeOrder block
  specifiers : options.specifiers.isEnabled = true → ∀ block ∈ scriptBlocks kind text,
    BlockLeft (resolverOf w (Path.normalizeSeparators options.effectivePath) options)
      (Path.normalizeSeparators options.effectivePath) kind document block

theorem groupChange?_eq_none_iff {text new : Text} {span : Edit.Span} :
    groupChange? text new span = none ↔ new = text.slice span.start span.stop := by
  rw [groupChange?]
  constructor
  · intro h
    by_contra hne
    rw [if_neg hne] at h
    split at h <;> simp at h
  · exact fun h => if_pos h

/-- A document is left without changes exactly if its blocks are parsed and each group is printed as it
is written. -/
theorem organizeDocument_eq_nil_iff {kind : Document.Kind} {keepUnused : Bool} {order : TypeOrder} :
    organizeDocument kind document keepUnused order = .ok [] ↔
      ∀ block ∈ scriptBlocks kind document, BlockStands keepUnused order block := by
  unfold organizeDocument
  generalize scriptBlocks kind document = blocks
  induction blocks with
  | nil => simp [organizeBlocks]
  | cons block rest ih =>
      rw [List.forall_mem_cons, ← ih]
      constructor
      · intro h
        simp only [organizeBlocks, organizeBlock] at h
        cases hparse : parse block.kind.dialect block.text with
        | error e => simp [hparse, Except.map] at h
        | ok program =>
            simp only [hparse, Except.map] at h
            cases hrest : organizeBlocks keepUnused order rest with
            | error e => simp [hrest] at h
            | ok more =>
                simp only [hrest, Except.ok.injEq, List.append_eq_nil_iff, List.map_eq_nil_iff] at h
                obtain ⟨none, rfl⟩ := h
                refine ⟨⟨program, hparse, fun group hgroup => ?_⟩, rfl⟩
                have kept := List.filterMap_eq_nil_iff.1 none group hgroup
                rw [groupChange?_eq_none_iff] at kept
                exact kept
      · rintro ⟨⟨program, hparse, groups⟩, hrest⟩
        have none : organizeProgram block.text program (keepUnused || block.embedded)
            block.kind.hasElements order = [] := by
          refine List.filterMap_eq_nil_iff.2 fun group hgroup => ?_
          rw [groupChange?_eq_none_iff]
          exact groups group hgroup
        simp only [organizeBlocks, organizeBlock, hparse, Except.map, none, hrest]
        rfl

theorem BlockReadsBack.stands {keepUnused : Bool} {order : TypeOrder} {block : ScriptBlock}
    (h : BlockReadsBack keepUnused order block) : BlockStands keepUnused order block := by
  obtain ⟨program, hparse, groups⟩ := h
  refine ⟨program, hparse, fun group hgroup => ?_⟩
  obtain ⟨imports, readsBack⟩ := groups group hgroup
  exact readsBack.organizedText_eq

theorem TextReadsBack.stands {w : World} {options : Settings.Options} {kind : Document.Kind} {text : Text}
    (h : TextReadsBack w options kind document text) : TextStands w options kind document text :=
  ⟨fun block hblock => (h.groups block hblock).stands, h.specifiers⟩

theorem organize_of_replaced {w : World} {options : Settings.Options} {text : Text}
    (halone : options.isEmbedded = false) (replaced : replacedText w document options = .ok text) :
    ∃ w', organize builtIn w document options =
      organizeText builtIn w' (Path.normalizeSeparators options.effectivePath) text options := by
  rw [replacedText] at replaced
  rw [organize, if_neg (by simp [halone])]
  split at replaced
  · next enabled =>
    refine ⟨(replaceSpecifiers w (Path.normalizeSeparators options.effectivePath) document options).2, ?_⟩
    rw [if_pos enabled, ← Prod.mk.eta (p := replaceSpecifiers w _ document options), replaced]
  · next plain =>
    obtain rfl := Except.ok.inj replaced
    exact ⟨w, by rw [if_neg plain]⟩

theorem BlockLeft.of_modules {r : Specifier.Resolver} {kind : Document.Kind} {block block' : ScriptBlock}
    {program again : Program} (h : BlockLeft r fileName kind document block)
    (parsed : parse block.kind.dialect block.text = .ok program)
    (parsed' : parse block'.kind.dialect block'.text = .ok again)
    (modules : ∀ m ∈ modulesIn again.statements, m ∈ modulesIn program.statements) :
    BlockLeft r fileName kind document block' := by
  obtain ⟨specifiers, hcollect, left⟩ := h
  obtain ⟨_, parsed'', rfl⟩ := Specifier.collect_eq_ok hcollect
  obtain rfl := Except.ok.inj (parsed.symm.trans parsed'')
  have collected : Specifier.collect fileName block' = .ok (Specifier.ofProgram fileName block' again) := by
    rw [Specifier.collect, parsed']
    rfl
  refine ⟨_, collected, fun t ht => ?_⟩
  obtain ⟨s, hs, found⟩ := List.mem_filterMap.1 ht
  obtain ⟨literal, hliteral, rfl⟩ := Option.map_eq_some_iff.1 found
  obtain ⟨s', hs', found'⟩ := List.mem_filterMap.1 (modules literal.value
    (List.mem_filterMap.2 ⟨s, hs, by rw [hliteral]; rfl⟩))
  obtain ⟨literal', hliteral', same⟩ := Option.map_eq_some_iff.1 found'
  obtain ⟨origin, horigin, target⟩ := left (Specifier.ofLiteral fileName block literal')
    (List.mem_filterMap.2 ⟨s', hs', by rw [hliteral']; rfl⟩)
  exact ⟨origin, horigin, same.symm.trans target⟩

theorem BlockLeft.of_collected {r : Specifier.Resolver} {kind : Document.Kind} {block block' : ScriptBlock}
    {before behind : List Specifier.ModuleSpecifier} (hblock : block ∈ scriptBlocks kind document)
    (hbefore : Specifier.collect fileName block = .ok before)
    (hbehind : Specifier.collect fileName block' = .ok behind)
    (targets : List.Forall₂ (fun s t => t.targetModule = (r.newText? s).getD s.targetModule) before behind) :
    BlockLeft r fileName kind document block' := by
  refine ⟨behind, hbehind, fun t ht => ?_⟩
  obtain ⟨s, hs, target⟩ := Edit.exists_of_forall₂ targets t ht
  exact ⟨s, ⟨block, hblock, before, hbefore, hs⟩, target⟩

theorem OrganizedAlone.eq_organizedScript {keepUnused : Bool} {order : TypeOrder} {block : ScriptBlock}
    {new : Text} {program : Program} (h : OrganizedAlone keepUnused order block new)
    (parsed : parse block.kind.dialect block.text = .ok program) :
    new = organizedScript block.text program
      (isUsedIn program (keepUnused || block.embedded) block.kind.hasElements) order := by
  obtain ⟨own, changes, applied⟩ := h
  rw [organizeBlock_alone parsed, Except.ok.injEq] at changes
  subst changes
  have patch : Edit.IsPatch block.text (organizeProgram block.text program (keepUnused || block.embedded)
    block.kind.hasElements order) := (organizeProgram_isPatchIn (inOrder_of_parse parsed)).patch
  rw [patch.apply_eq_ok, splice_organizeProgram parsed, Except.ok.injEq] at applied
  exact applied.symm

section Block

variable {keepUnused : Bool} {order : TypeOrder} {block block' : ScriptBlock}
  (h : BlockRepeats keepUnused order block)
  (standsFor : StandsFor (OrganizedAlone keepUnused order) block block')
include h standsFor

theorem BlockRepeats.exists_again : ∃ program again, parse block.kind.dialect block.text = .ok program ∧
    parse block'.kind.dialect block'.text = .ok again ∧
    (∀ m ∈ modulesIn again.statements, m ∈ modulesIn program.statements) ∧
    ∀ group ∈ importGroups block'.text again.statements, organizedText block'.text again
      (isUsedIn again (keepUnused || block'.embedded) block'.kind.hasElements) order group =
        block'.text.slice (groupSpan group).start (groupSpan group).stop := by
  obtain ⟨program, parsed, repeatable, -⟩ := h
  have used (name : Text) (used : program.names.isUsed name = true) :
      isUsedIn program (keepUnused || block.embedded) block.kind.hasElements name = true := by
    rw [isUsedIn, used, Bool.or_true]
  obtain ⟨again, parsed', names, modules, groups⟩ :=
    repeatable.stands parsed used (standsFor.related.eq_organizedScript parsed).symm
  rw [← standsFor.kind] at parsed'
  have same : isUsedIn again (keepUnused || block'.embedded) block'.kind.hasElements =
      isUsedIn program (keepUnused || block.embedded) block.kind.hasElements := by
    funext name
    rw [isUsedIn, isUsedIn, names, standsFor.kind, standsFor.embedded]
  exact ⟨program, again, parsed, parsed', modules, same ▸ groups⟩

theorem BlockRepeats.stands : BlockStands keepUnused order block' := by
  obtain ⟨_, again, -, parsed, -, groups⟩ := h.exists_again standsFor
  exact ⟨again, parsed, groups⟩

theorem BlockRepeats.left {r : Specifier.Resolver} {kind : Document.Kind}
    (left : BlockLeft r fileName kind document block) : BlockLeft r fileName kind document block' := by
  obtain ⟨_, _, parsed, parsed', modules, -⟩ := h.exists_again standsFor
  exact left.of_modules parsed parsed' modules

end Block

theorem organizeBlocks_of_parsed (keepUnused : Bool) (order : TypeOrder) {blocks : List ScriptBlock}
    (h : ∀ block ∈ blocks, ∃ program, parse block.kind.dialect block.text = .ok program) :
    ∃ changes, organizeBlocks keepUnused order blocks = .ok changes := by
  induction blocks with
  | nil => exact ⟨[], rfl⟩
  | cons block rest ih =>
      obtain ⟨⟨program, parsed⟩, others⟩ := List.forall_mem_cons.1 h
      obtain ⟨changes, hchanges⟩ := ih others
      simp only [organizeBlocks, organizeBlock, parsed, hchanges, Except.map]
      exact ⟨_, rfl⟩

theorem standsFor_organizeText {w : World} {options : Settings.Options} {kind : Document.Kind}
    {before text : Text}
    (hkind : Kind.resolve? options.parser fileName = some kind)
    (repeats : ∀ block ∈ scriptBlocks kind before, BlockRepeats options.keepUnused options.typeOrder block)
    (hrun : (organizeText builtIn w fileName before options).1 = .ok text) :
    List.Forall₂ (StandsFor fun block new => BlockRepeats options.keepUnused options.typeOrder block ∧
        OrganizedAlone options.keepUnused options.typeOrder block new)
      (scriptBlocks kind before) (scriptBlocks kind text) := by
  have parsed : ∀ block ∈ scriptBlocks kind before, ∃ program,
      parse block.kind.dialect block.text = .ok program := fun block hblock => by
    obtain ⟨program, parsed, -⟩ := repeats block hblock
    exact ⟨program, parsed⟩
  obtain ⟨changes, organized⟩ : ∃ changes, organizeDocument kind before options.keepUnused options.typeOrder =
    .ok changes := organizeBlocks_of_parsed options.keepUnused options.typeOrder parsed
  obtain ⟨news, alone, applied⟩ := blocksOrganized_organizeDocument organized
  rw [(organizeDocument_isPatch organized).apply_eq_ok, Except.ok.injEq] at applied
  rw [organizeText_eq_ok w hkind organized, applied, Except.ok.injEq] at hrun
  rw [← hrun]
  refine standsFor_scriptBlocks kind (fun block new h embedded => ?_)
    ((List.forall₂_and_left _ _).2 ⟨repeats, alone⟩)
  obtain ⟨⟨program, parsed, -, unclosed⟩, organized⟩ := h
  rw [organized.eq_organizedScript parsed]
  exact unclosed embedded

/-- What a run prints for a repeatable document stands. -/
theorem DocumentRepeats.stands {w : World} {options : Settings.Options} {kind : Document.Kind} {text : Text}
    (h : DocumentRepeats w options kind document)
    (hkind : Kind.resolve? options.parser (Path.normalizeSeparators options.effectivePath) = some kind)
    (halone : options.isEmbedded = false) (hrun : (organize builtIn w document options).1 = .ok text) :
    TextStands w options kind document text := by
  obtain ⟨before, replaced, each⟩ := h
  obtain ⟨w', run⟩ := organize_of_replaced halone replaced
  rw [run] at hrun
  have standFor := standsFor_organizeText hkind (fun block hblock => (each block hblock).1) hrun
  have origin : ∀ block' ∈ scriptBlocks kind text, ∃ block ∈ scriptBlocks kind before,
      BlockRepeats options.keepUnused options.typeOrder block ∧
        StandsFor (OrganizedAlone options.keepUnused options.typeOrder) block block' := by
    intro block' hblock'
    obtain ⟨block, hblock, ⟨repeats, organized⟩, same, embedded⟩ :=
      Edit.exists_of_forall₂ standFor block' hblock'
    exact ⟨block, hblock, repeats, organized, same, embedded⟩
  constructor
  · intro block' hblock'
    obtain ⟨block, -, repeats, standsFor⟩ := origin block' hblock'
    exact repeats.stands standsFor
  · intro enabled block' hblock'
    obtain ⟨block, hblock, repeats, standsFor⟩ := origin block' hblock'
    exact repeats.left standsFor ((each block hblock).2 enabled)

theorem kind_of_collect {block : ScriptBlock} {specifiers : List Specifier.ModuleSpecifier}
    (h : Specifier.collect fileName block = .ok specifiers) :
    ∀ s ∈ specifiers, s.kind = Specifier.classify s.targetModule := by
  obtain ⟨program, _, rfl⟩ := Specifier.collect_eq_ok h
  intro s hs
  obtain ⟨statement, _, hstatement⟩ := List.mem_filterMap.1 hs
  obtain ⟨literal, _, rfl⟩ := Option.map_eq_some_iff.1 hstatement
  rfl

theorem document_left {r : Specifier.Resolver} {kind : Document.Kind} {text : Text}
    (undotted : r.IsUndotted)
    (h : ∀ block ∈ scriptBlocks kind text, BlockLeft r fileName kind document block) :
    r.document fileName kind text = ⟨[], .ok []⟩ := by
  rw [Specifier.Resolver.document]
  generalize scriptBlocks kind text = blocks at h
  -- By induction on the blocks: a resolver finds nothing to do in what it has left.
  induction blocks with
  | nil => rfl
  | cons block rest ih =>
      obtain ⟨⟨specifiers, hcollect, left⟩, h⟩ := List.forall_mem_cons.1 h
      have kept : ∀ t ∈ specifiers, r.newText? t = none := by
        intro t ht
        obtain ⟨s, ⟨_, _, _, hfound, hs⟩, hsame⟩ := left t ht
        exact undotted.newText?_again (kind_of_collect hfound s hs) (kind_of_collect hcollect t ht)
          hsame
      have changes : specifiers.filterMap r.change? = [] := by
        refine List.filterMap_eq_nil_iff.2 fun t ht => ?_
        rw [Specifier.Resolver.change?, kept t ht, Option.map_none]
      have notes : specifiers.filterMap r.note? = [] := by
        refine List.filterMap_eq_nil_iff.2 fun t ht => ?_
        rw [Specifier.Resolver.note?, kept t ht, Option.map_none]
      simp only [Specifier.Resolver.blocks, hcollect, changes, notes, ih h]
      rfl

theorem isUndotted_resolverOf {w : World} {options : Settings.Options}
    (hcwd : Path.isRooted w.tree.cwd = true)
    (hstart : ∀ start, options.specifiers.absolutePathPrefix = some start → start.head? ≠ some '.')
    (haliases : ∀ entry ∈ (optionAliases w options.specifiers).1.entries, entry.IsUndotted) :
    (resolverOf w fileName options).IsUndotted :=
  ⟨(Path.canonical_dirname (Path.canonical_resolve hcwd [fileName]).isRooted).isRooted, hstart,
    haliases⟩

theorem patched_nil (text : Text) : patched text [] = .ok text :=
  patched_eq_ok ⟨.nil, .nil, by simp, by simp⟩

theorem replaceSpecifiers_left {w w' : World} {options : Settings.Options} {kind : Document.Kind}
    {text : Text} (hkind : Kind.resolve? options.parser fileName = some kind)
    (files : (optionAliases w options.specifiers).2.SameFiles w')
    (undotted : (resolverOf w fileName options).IsUndotted)
    (h : ∀ block ∈ scriptBlocks kind text,
      BlockLeft (resolverOf w fileName options) fileName kind document block) :
    replaceSpecifiers w' fileName text options = (.ok text, w') := by
  have left := document_left undotted h
  have tree := files.tree.trans (optionAliases_tree w options.specifiers)
  rw [resolverOf, ← tree] at left
  simp only [replaceSpecifiers, hkind, optionAliases_again w options.specifiers files, left,
    patched_nil]
  rfl

theorem organizeText_left (w : World) {options : Settings.Options} {kind : Document.Kind}
    {text : Text} (hkind : Kind.resolve? options.parser fileName = some kind)
    (h : organizeDocument kind text options.keepUnused options.typeOrder = .ok []) :
    ∃ calls, organizeText builtIn w fileName text options = (.ok text, { w with calls }) := by
  have answered : answer kind fileName text ⟨fileName, options.keepUnused, options.typeOrder⟩ =
      .ok [] := by simp [answer, h]
  refine ⟨((w.called (.create options.parser fileName text)).called
    (.organize ⟨fileName, options.keepUnused, options.typeOrder⟩)).calls, ?_⟩
  simp only [organizeText, builtIn, hkind, answered, applyRecords, changesOf, List.filter_nil,
    List.flatMap_nil, patched_nil]
  rfl

theorem organizeText_refused (w : World) {options : Settings.Options} {kind : Document.Kind}
    {text : Text} {e : SyntaxError} (hkind : Kind.resolve? options.parser fileName = some kind)
    (h : organizeDocument kind text options.keepUnused options.typeOrder = .error e) :
    (organizeText builtIn w fileName text options).1 = .error (.parse fileName) := by
  have answered : answer kind fileName text ⟨fileName, options.keepUnused, options.typeOrder⟩ =
      .error (.parse fileName) := by simp [answer, h]
  simp only [organizeText, builtIn, hkind, answered, OrganizeError.ofService]

theorem exists_kind_of_organize {w : World} {options : Settings.Options} {text : Text}
    (halone : options.isEmbedded = false)
    (hrun : (organize builtIn w document options).1 = .ok text) :
    ∃ kind, Kind.resolve? options.parser (Path.normalizeSeparators options.effectivePath) =
      some kind := by
  cases hkind : Kind.resolve? options.parser (Path.normalizeSeparators options.effectivePath) with
  | some kind => exact ⟨kind, rfl⟩
  | none =>
      cases henabled : options.specifiers.isEnabled with
      | false => simp [organize, halone, henabled, organizeText, builtIn, hkind] at hrun
      | true => simp [organize, halone, henabled, replaceSpecifiers, hkind] at hrun

/-- A second run leaves the text of the first one as it is, and nothing in its world changes but that
its service was called: for all files, loaded aliases and options whose prefix and patterns do not
start with a dot, if what is printed for the scripts of the document can be read again, or if the text is
read back as the first run printed it. -/
theorem organize_again (w : World) (document text : Text) (options : Settings.Options)
    (hcwd : Path.isRooted w.tree.cwd = true)
    (hstart : ∀ start, options.specifiers.absolutePathPrefix = some start → start.head? ≠ some '.')
    (haliases : ∀ entry ∈ (optionAliases w options.specifiers).1.entries, entry.IsUndotted)
    (hrun : (organize builtIn w document options).1 = .ok text)
    (hread : options.isEmbedded = false → ∀ kind,
      Kind.resolve? options.parser (Path.normalizeSeparators options.effectivePath) = some kind →
        DocumentRepeats w options kind document ∨ TextReadsBack w options kind document text) :
    (organize builtIn (organize builtIn w document options).2 text options).1 = .ok text ∧
      (options.isEmbedded = false → ∃ calls,
        (organize builtIn (organize builtIn w document options).2 text options).2 =
          { (organize builtIn w document options).2 with calls }) := by
  cases halone : options.isEmbedded with
  | true =>
      refine ⟨?_, by simp⟩
      rw [organize, if_pos halone]
  | false =>
      obtain ⟨kind, hkind⟩ := exists_kind_of_organize halone hrun
      have stands : TextStands w options kind document text :=
        (hread halone kind hkind).elim (fun repeats => repeats.stands hkind halone hrun)
          TextReadsBack.stands
      obtain ⟨calls, organized⟩ := organizeText_left (organize builtIn w document options).2 hkind
        (organizeDocument_eq_nil_iff.2 stands.groups)
      have again : organize builtIn (organize builtIn w document options).2 text options =
          (.ok text, { (organize builtIn w document options).2 with calls }) := by
        cases henabled : options.specifiers.isEnabled with
        | false =>
            rw [organize, if_neg (by simp [halone]), if_neg (by simp [henabled]), organized]
        | true =>
            have files := sameFiles_organize builtIn w document options hkind halone henabled
            have replaced := replaceSpecifiers_left hkind files
              (isUndotted_resolverOf hcwd hstart haliases) (stands.specifiers henabled)
            rw [organize, if_neg (by simp [halone]), if_pos henabled, replaced]
            exact organized
      rw [again]
      exact ⟨rfl, fun _ => ⟨calls, rfl⟩⟩

def projectWorld : World := World.new (FileTree.new "/p".toList) (.kept .debug)

def prefixed : Settings.Options :=
  { Settings.Options.default with
    specifiers := { Settings.SpecifierOptions.none with absolutePathPrefix := some "@/".toList } }

def untidy : Text := "'use client'\nimport a, { u } from './a'\na()\nimport { v } from 'v'".toList

def retargeted : Text := "'use client'\nimport a, { u } from '@/a'\na()\nimport { v } from 'v'".toList

def tidied : Text := "'use client'\nimport a from '@/a'\na()\n".toList

def untidySpecifiers : List Specifier.ModuleSpecifier :=
  [⟨"'./a'".toList, .relative, "file.ts".toList, "./a".toList, .ofBounds 35 38⟩,
    ⟨"'v'".toList, .aliased, "file.ts".toList, "v".toList, .ofBounds 63 64⟩]

def retargetedSpecifiers : List Specifier.ModuleSpecifier :=
  [⟨"'@/a'".toList, .aliased, "file.ts".toList, "@/a".toList, .ofBounds 35 38⟩,
    ⟨"'v'".toList, .aliased, "file.ts".toList, "v".toList, .ofBounds 63 64⟩]

theorem untidy_read : (parse ⟨true, false⟩ retargeted).toOption.isSome = true ∧
    (replacedText projectWorld untidy prefixed).toOption = some retargeted ∧
    Repeatable ⟨true, false⟩ retargeted (parsed ⟨true, false⟩ retargeted)
      (isUsedIn (parsed ⟨true, false⟩ retargeted) false false) .last ∧
    organizedScript retargeted (parsed ⟨true, false⟩ retargeted)
      (isUsedIn (parsed ⟨true, false⟩ retargeted) false false) .last = tidied ∧
    (Specifier.collect "file.ts".toList ⟨0, untidy, .ts, false⟩).toOption = some untidySpecifiers ∧
    (Specifier.collect "file.ts".toList ⟨0, retargeted, .ts, false⟩).toOption = some retargetedSpecifiers ∧
    List.Forall₂ (fun s t => t.targetModule =
        ((resolverOf projectWorld "file.ts".toList prefixed).newText? s).getD s.targetModule)
      untidySpecifiers retargetedSpecifiers := by
  decide +kernel

theorem untidy_repeats : DocumentRepeats projectWorld prefixed (.script .ts) untidy := by
  obtain ⟨parses, replaced, repeatable, -, before, behind, targets⟩ := untidy_read
  exact ⟨retargeted, eq_ok_of_toOption replaced, List.forall_mem_singleton.2
    ⟨⟨_, parse_eq_parsed parses, repeatable, by simp⟩, fun _ => .of_collected (List.mem_singleton_self _)
      (eq_ok_of_toOption before) (eq_ok_of_toOption behind) targets⟩⟩

theorem organize_untidy : (organize builtIn projectWorld untidy prefixed).1 = .ok tidied := by
  have script : Kind.resolve? prefixed.parser (Path.normalizeSeparators prefixed.effectivePath) =
      some (.script .ts) := by decide
  obtain ⟨parses, replaced, -, printed, -⟩ := untidy_read
  obtain ⟨w, run⟩ := organize_of_replaced rfl (eq_ok_of_toOption replaced)
  rw [run, organizeText_script w script (parse_eq_parsed parses)]
  exact congrArg Except.ok printed

def component : Text := "<script>\n import a from './a'\n import 'b'\na()\n</script>".toList

def retargetedComponent : Text := "<script>\n import a from '@/a'\n import 'b'\na()\n</script>".toList

def tidiedComponent : Text := "<script>\n import a from '@/a'\nimport 'b'\na()\n</script>".toList

def inComponent : Settings.Options := { prefixed with parser := some "vue".toList }

def untidyBlock : ScriptBlock := ⟨8, "\n import a from './a'\n import 'b'\na()\n".toList, .jsx, true⟩

def retargetedBlock : ScriptBlock := ⟨8, "\n import a from '@/a'\n import 'b'\na()\n".toList, .jsx, true⟩

def untidyInBlock : List Specifier.ModuleSpecifier :=
  [⟨"'./a'".toList, .relative, "file.ts".toList, "./a".toList, .ofBounds 25 28⟩,
    ⟨"'b'".toList, .aliased, "file.ts".toList, "b".toList, .ofBounds 39 40⟩]

def retargetedInBlock : List Specifier.ModuleSpecifier :=
  [⟨"'@/a'".toList, .aliased, "file.ts".toList, "@/a".toList, .ofBounds 25 28⟩,
    ⟨"'b'".toList, .aliased, "file.ts".toList, "b".toList, .ofBounds 39 40⟩]

theorem component_read : scriptBlocks .vue component = [untidyBlock] ∧
    scriptBlocks .vue retargetedComponent = [retargetedBlock] ∧
    (replacedText projectWorld component inComponent).toOption = some retargetedComponent ∧
    (parse ⟨false, true⟩ retargetedBlock.text).toOption.isSome = true ∧
    Repeatable ⟨false, true⟩ retargetedBlock.text (parsed ⟨false, true⟩ retargetedBlock.text)
      (isUsedIn (parsed ⟨false, true⟩ retargetedBlock.text) true true) .last ∧
    elementBody? (organizedScript retargetedBlock.text (parsed ⟨false, true⟩ retargetedBlock.text)
      (isUsedIn (parsed ⟨false, true⟩ retargetedBlock.text) true true) .last) = none ∧
    (Specifier.collect "file.ts".toList untidyBlock).toOption = some untidyInBlock ∧
    (Specifier.collect "file.ts".toList retargetedBlock).toOption = some retargetedInBlock ∧
    List.Forall₂ (fun s t => t.targetModule =
        ((resolverOf projectWorld "file.ts".toList inComponent).newText? s).getD s.targetModule)
      untidyInBlock retargetedInBlock ∧
    (organize builtIn projectWorld component inComponent).1.toOption = some tidiedComponent := by
  decide +kernel

theorem component_repeats : DocumentRepeats projectWorld inComponent .vue component := by
  obtain ⟨blocks, blocks', replaced, parses, repeatable, unclosed, before, behind, targets, -⟩ :=
    component_read
  refine ⟨retargetedComponent, eq_ok_of_toOption replaced, ?_⟩
  rw [blocks']
  exact List.forall_mem_singleton.2 ⟨⟨_, parse_eq_parsed parses, repeatable, fun _ => unclosed⟩,
    fun _ => .of_collected (blocks ▸ List.mem_singleton_self _) (eq_ok_of_toOption before)
      (eq_ok_of_toOption behind) targets⟩

theorem organize_again_tidied :
    ((organize builtIn projectWorld untidy prefixed).1 = .ok tidied ∧
      (organize builtIn (organize builtIn projectWorld untidy prefixed).2 tidied prefixed).1 =
        .ok tidied) ∧
    (organize builtIn projectWorld component inComponent).1 = .ok tidiedComponent ∧
      (organize builtIn (organize builtIn projectWorld component inComponent).2 tidiedComponent
        inComponent).1 = .ok tidiedComponent := by
  obtain ⟨-, -, -, -, -, -, -, -, -, run'⟩ := component_read
  have run' := eq_ok_of_toOption run'
  have rooted : Path.isRooted projectWorld.tree.cwd = true := by decide
  have start : ∀ start, prefixed.specifiers.absolutePathPrefix = some start →
      start.head? ≠ some '.' := by
    rintro start ⟨⟩
    decide
  have aliases : ∀ entry ∈ (optionAliases projectWorld prefixed.specifiers).1.entries,
      entry.IsUndotted := by
    have none : (optionAliases projectWorld prefixed.specifiers).1.entries = [] := by decide
    rw [none]
    simp
  have script : Kind.resolve? prefixed.parser (Path.normalizeSeparators prefixed.effectivePath) =
      some (.script .ts) := by decide
  have vue : Kind.resolve? inComponent.parser (Path.normalizeSeparators inComponent.effectivePath) =
      some .vue := by decide
  obtain ⟨again, -⟩ := organize_again projectWorld untidy tidied prefixed rooted start aliases
    organize_untidy fun _ kind hkind => by
      obtain rfl := Option.some.inj (script.symm.trans hkind)
      exact .inl untidy_repeats
  obtain ⟨again', -⟩ := organize_again projectWorld component tidiedComponent inComponent rooted start
    aliases run' fun _ kind hkind => by
      obtain rfl := Option.some.inj (vue.symm.trans hkind)
      exact .inl component_repeats
  exact ⟨⟨organize_untidy, again⟩, run', again'⟩

theorem organize_fused (w : World) :
    (organize builtIn w fused Settings.Options.default).1 = .error (.parse "file.ts".toList) := by
  obtain ⟨e, hparse⟩ := fused_refused
  have refused : organizeDocument (.script .ts) fused false .last = .error e := by
    have dialect : ScriptKind.ts.dialect = ⟨true, false⟩ := rfl
    simp only [organizeDocument, scriptBlocks, organizeBlocks, organizeBlock, dialect, hparse,
      Except.map]
  exact organizeText_refused w (resolve_keepingIf false) refused

/-- The second run may fail on what the first one put out. -/
theorem organize_again_refused : ∃ text,
    (organize builtIn emptyWorld unseparated Settings.Options.default).1 = .ok text ∧
      (organize builtIn (organize builtIn emptyWorld unseparated Settings.Options.default).2 text
        Settings.Options.default).1 = .error (.parse "file.ts".toList) :=
  ⟨fused, organize_unseparated emptyWorld false, organize_fused _⟩

end TidyImports.Organizer
