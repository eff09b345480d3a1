import TidyImports.Proofs.Import.Repeated
import TidyImports.Proofs.Organizer.Patches
import TidyImports.Proofs.Text.Pieces

/-! What the organizer does to a script when unused bindings are kept. Each group is replaced by imports
that bind exactly what it binds, also when they are read again, and everything outside the groups
stays as it is written. What is put in the place of a group is not always set apart from what follows
on the line: when a declaration without a semicolon ends up last, it may be fused with the statement
behind it, and then nothing can be read again. -/
namespace TidyImports.Import

variable {text newline : Text} {comments : List Edit.Span} {isUsed : Text → Bool}

theorem render_ne_nil {i : Item} (h : i.written ≠ []) : i.render newline ≠ [] := by
  unfold Item.render
  split
  · simp
  · exact h

theorem spanText_ne_nil {d : Script.ImportDeclaration} (h : Declared text d) :
    spanText text d.span ≠ [] := by
  obtain ⟨c, rest, hstart, _⟩ := h.start
  exact slice_ne_nil hstart h.start_lt

theorem Kept.printed (newline : Text) {group : List Script.ImportDeclaration} {outs : List Item}
    (h : Kept text comments isUsed group outs) (hused : ∀ name, isUsed name = true)
    (hdeclared : ∀ d ∈ group, Declared text d) :
    (group ≠ [] → outs ≠ []) ∧ ∀ o ∈ outs, o.render newline ≠ [] := by
  have stretch : ∀ {ds : List Script.ImportDeclaration} {outs : List Item},
      StretchKept text comments isUsed ds outs → (∀ d ∈ ds, Declared text d) →
        ∀ o ∈ outs, o.render newline ≠ [] := by
    intro ds outs h hdeclared o ho
    obtain ⟨d, hd, _, _, written⟩ := h.origin o ho
    exact render_ne_nil (written ▸ spanText_ne_nil (hdeclared d hd))
  induction h with
  | @stretch ds outs h =>
      refine ⟨fun hne hnone => ?_, stretch h hdeclared⟩
      obtain ⟨d, rest, rfl⟩ := List.exists_cons_of_ne_nil hne
      have thawed := h.thawed.1 d List.mem_cons_self
      simp only [isFrozen, Bool.or_eq_false_iff] at thawed
      cases hspecifiers : d.specifiers with
      | nil => simp [hspecifiers] at thawed
      | cons s specifiers =>
          have bound : (⟨headerOf text d, formOf text s⟩ : Binding) ∈
              (d :: rest).flatMap (usedIn text isUsed) := by
            refine List.mem_flatMap.2 ⟨d, List.mem_cons_self, ?_⟩
            rw [usedIn, hspecifiers, usedForms_cons_of_pos (hused s.name)]
            exact List.mem_cons_self
          rw [← h.same, hnone] at bound
          simp at bound
  | @barrier ds rest outs more d i h frozen verbatim hmore ih =>
      obtain ⟨hds, hrest⟩ := List.forall_mem_append.1 hdeclared
      obtain ⟨hd, hrest⟩ := List.forall_mem_cons.1 hrest
      refine ⟨fun _ => by simp, List.forall_mem_append.2 ⟨stretch h hds, ?_⟩⟩
      refine List.forall_mem_cons.2 ⟨?_, (ih hrest).2⟩
      rw [verbatim newline]
      exact spanText_ne_nil hd

def ReadAsPrinted (text : Text) (comments : List Edit.Span) (newline : Text)
    (group : List Script.ImportDeclaration) (imports : List Item) : Prop :=
  group.filterMap (Item.ofDeclaration? text comments fun _ => true) =
    imports.map (Item.printed newline)

theorem ReadAsPrinted.kept {order : TypeOrder} {group : List Script.ImportDeclaration}
    {imports : List Item} (h : ReadAsPrinted text comments newline group imports)
    (settled : GroupSettled order imports) (clauses : ∀ d ∈ group, Script.Clause d.specifiers) :
    Kept text comments (fun _ => true) group (imports.map (Item.printed newline)) := by
  have kept : Kept text comments (fun _ => true) group (organizeGroup order
      (group.filterMap (Item.ofDeclaration? text comments fun _ => true))) :=
    kept_organizeFrom order .nil clauses
  rw [h, organizeGroup_eq_self (groupSettled_printed settled)] at kept
  exact kept

end TidyImports.Import

namespace TidyImports.Organizer

open Document Import Script

variable {code : Text} {program : Program} {order : TypeOrder}

def groupImports (code : Text) (program : Program) (order : TypeOrder)
    (group : List ImportDeclaration) : List Item :=
  organizeGroup order
    (group.filterMap (Item.ofDeclaration? code program.comments fun _ => true))

def printImports (code : Text) (imports : List Item) : Text :=
  Text.glue (newlineOf code) (imports.map (Item.render (newlineOf code)))

theorem groupImports_kept (order : TypeOrder) {dialect : Dialect}
    (h : parse dialect code = .ok program) {group : List ImportDeclaration}
    (hgroup : group ∈ importGroups code program.statements) :
    Kept code program.comments (fun _ => true) group (groupImports code program order group) :=
  kept_organizeFrom order .nil (clause_of_mem_group h hgroup)

theorem printImports_ne_nil (order : TypeOrder) {dialect : Dialect}
    (h : parse dialect code = .ok program) {group : List ImportDeclaration}
    (hgroup : group ∈ importGroups code program.statements) :
    printImports code (groupImports code program order group) ≠ [] := by
  have kept := groupImports_kept order h hgroup
  have declared := (declaredInOrder_of_mem (inOrder_of_parse h) hgroup).declared
  obtain ⟨left, printed⟩ := kept.printed (newlineOf code) (fun _ => rfl) declared
  obtain ⟨first, rest, hfirst⟩ :=
    List.exists_cons_of_ne_nil (left (importGroups_ne_nil group hgroup))
  rw [hfirst] at printed ⊢
  rw [printImports, List.map_cons]
  exact Text.glue_ne_nil (printed first List.mem_cons_self)

theorem organizeText_script (w : World) {fileName : Text} {options : Settings.Options} {kind : ScriptKind}
    (hkind : Kind.resolve? options.parser fileName = some (.script kind))
    (hparse : parse kind.dialect code = .ok program) :
    (organizeText builtIn w fileName code options).1 = .ok (organizedScript code program
      (isUsedIn program options.keepUnused kind.hasElements) options.typeOrder) := by
  have changes := organizeDocument_script options.keepUnused options.typeOrder hparse
  have run := organizeText_eq_ok w hkind changes
  rwa [splice_organizeProgram hparse] at run

/-- A script with the organized imports of its groups in their places. -/
def keptText (code : Text) (program : Program) (order : TypeOrder) : Text :=
  Edit.weave (Edit.gaps 0 code ((importGroups code program.statements).map groupSpan))
    ((importGroups code program.statements).map fun group =>
      printImports code (groupImports code program order group))

theorem keptText_eq (order : TypeOrder) {dialect : Dialect} (h : parse dialect code = .ok program) :
    keptText code program order = organizedScript code program (fun _ => true) order := by
  have spans : (importGroups code program.statements).map (replacedSpan code
      fun group => Text.glue (newlineOf code) (organizedTexts code program (fun _ => true) order group)) =
      (importGroups code program.statements).map groupSpan :=
    List.map_congr_left fun group hgroup => if_neg (printImports_ne_nil order h hgroup)
  rw [organizedScript, organizedFrom, reprinted_zero, spans]
  rfl

/-- A run that keeps unused bindings and replaces no specifiers puts imports in the place of each group
that bind exactly what it binds, and leaves the text between the groups as it is; every statement that
is no import is outside the groups. If what is printed is set apart from what stands behind it, and the
statements between the groups are read as before, the new text is parsed, has the same statements that are
no imports, and binds the same. Group by group a text binds the same, if its groups are read as the imports
that were printed. -/
theorem organize_keeps_outside (w : World) (code : Text) (options : Settings.Options)
    {kind : ScriptKind} {program : Program}
    (hkind : Kind.resolve? options.parser (Path.normalizeSeparators options.effectivePath) =
      some (.script kind))
    (halone : options.isEmbedded = false) (hplain : options.specifiers.isEnabled = false)
    (hkeep : options.keepUnused = true) (hparse : parse kind.dialect code = .ok program) :
    (organize builtIn w code options).1 = .ok (keptText code program options.typeOrder) ∧
    code = Edit.weave
      (Edit.gaps 0 code ((importGroups code program.statements).map groupSpan))
      ((importGroups code program.statements).map fun group =>
        code.slice (groupSpan group).start (groupSpan group).stop) ∧
    (∀ s ∈ program.statements, declaration? s = none →
      ∀ group ∈ importGroups code program.statements,
        s.span.stop ≤ (groupSpan group).start ∨ (groupSpan group).stop ≤ s.span.start) ∧
    (∀ group ∈ importGroups code program.statements,
      Kept code program.comments (fun _ => true) group
        (groupImports code program options.typeOrder group)) ∧
    (Separable kind.dialect code program (fun _ => true) options.typeOrder →
      ∃ again, parse kind.dialect (keptText code program options.typeOrder) = .ok again ∧
        Agree code program.statements (keptText code program options.typeOrder) again.statements) ∧
    ∀ (text : Text) (again : Program), text = keptText code program options.typeOrder →
      parse kind.dialect text = .ok again →
      List.Forall₂ (fun read group => ReadAsPrinted text again.comments (newlineOf code) read
          (groupImports code program options.typeOrder group))
        (importGroups text again.statements) (importGroups code program.statements) →
      List.Forall₂ (fun read group => Kept text again.comments (fun _ => true) read
          ((groupImports code program options.typeOrder group).map
            (Item.printed (newlineOf code))))
        (importGroups text again.statements) (importGroups code program.statements) := by
  have inOrder := inOrder_of_parse hparse
  refine ⟨?_, ?_, ?_, ?_, fun separable => ?_, ?_⟩
  · have run := organizeText_script w hkind hparse
    rw [hkeep] at run
    simp only [organize, halone, hplain, Bool.false_eq_true, if_false]
    rw [keptText_eq options.typeOrder hparse]
    exact run
  · have whole := Edit.weave_old (spansInOrder_groups inOrder) (Text.restAt_zero code)
      fun _ _ => Nat.zero_le _
    rw [List.map_map] at whole
    exact whole.symm
  · exact fun s hs hnone group hgroup => statement_apart inOrder hs hnone hgroup
  · exact fun group hgroup => groupImports_kept options.typeOrder hparse hgroup
  · obtain ⟨again, -, parsed, renewed, -⟩ := parse_reprinted (isNewline_newlineOf code) hparse
      (separable.replaceable hparse) (keptText_eq options.typeOrder hparse).symm
    exact ⟨again, parsed, renewed.agree⟩
  · intro text again _ hagain printed
    have clauses : ∀ read ∈ importGroups text again.statements, ∀ d ∈ read, Clause d.specifiers :=
      fun read hread => clause_of_mem_group hagain hread
    have both := (List.forall₂_and_left _ _).2 ⟨clauses, printed⟩
    refine both.imp fun read group h => ?_
    exact h.2.kept (groupSettled_organizeGroup options.typeOrder _) h.1

def keeping : Settings.Options := { Settings.Options.default with keepUnused := true }

def emptyWorld : World := World.new (FileTree.new "/".toList) (.kept .debug)

theorem sortImports_pair {a b : Item} (h : (compareImports a b).isLE = false) :
    sortImports [a, b] = [b, a] := by
  simp [sortImports, List.mergeSort, List.MergeSort.Internal.splitInTwo, h]

def pairImports : List Item :=
  [⟨"import b from 'b'".toList, "b".toList, "'b'".toList, none, false, some "b".toList, none, [],
      false, false, false⟩,
    ⟨"import a from 'a';".toList, "a".toList, "'a'".toList, none, false, some "a".toList, none, [],
      false, true, false⟩]

theorem organizeGroup_pair : organizeGroup .last pairImports = pairImports.reverse := by
  have segment : organizeGroup .last pairImports =
      (mergeNeighbours (sortImports pairImports)).map (Item.sortNamed .last) := rfl
  have swapped : sortImports pairImports = pairImports.reverse := sortImports_pair (by decide)
  rw [segment, swapped]
  decide +kernel

def separated : Text := "'use client'\nimport b from 'b'\nimport a from 'a';\na(b)".toList

def reordered : Text := "'use client'\nimport a from 'a';\nimport b from 'b'\na(b)".toList

theorem separated_read : (parse ⟨true, false⟩ separated).toOption.isSome = true ∧
    (∀ group ∈ importGroups separated (parsed ⟨true, false⟩ separated).statements,
      group.filterMap (Item.ofDeclaration? separated (parsed ⟨true, false⟩ separated).comments
        fun _ => true) = pairImports ∧
      standsApart (organizedFrom separated (parsed ⟨true, false⟩ separated) (fun _ => true) .last
        (groupSpan group).stop) = true) ∧
    (∀ s ∈ (parsed ⟨true, false⟩ separated).statements, declaration? s = none → s.span.start = 0 ∨
      ¬ ChangedFrom separated (parsed ⟨true, false⟩ separated) (fun _ => true) .last s.span.stop) ∧
    ReadsAlike ⟨true, false⟩ (separated.after 0) reordered ∧
    Edit.weave (Edit.gaps 0 separated
        ((importGroups separated (parsed ⟨true, false⟩ separated).statements).map groupSpan))
      ((importGroups separated (parsed ⟨true, false⟩ separated).statements).map fun _ =>
        printImports separated pairImports.reverse) = reordered := by
  decide +kernel

theorem groupImports_separated {group : List ImportDeclaration}
    (h : group ∈ importGroups separated (parsed ⟨true, false⟩ separated).statements) :
    groupImports separated (parsed ⟨true, false⟩ separated) .last group = pairImports.reverse := by
  obtain ⟨-, groups, -⟩ := separated_read
  rw [groupImports, (groups group h).1, organizeGroup_pair]

theorem parse_separated : parse ⟨true, false⟩ separated = .ok (parsed ⟨true, false⟩ separated) :=
  parse_eq_parsed separated_read.1

theorem keptText_separated : keptText separated (parsed ⟨true, false⟩ separated) .last = reordered := by
  obtain ⟨-, -, -, -, woven⟩ := separated_read
  have printed : ∀ group ∈ importGroups separated (parsed ⟨true, false⟩ separated).statements,
      printImports separated (groupImports separated (parsed ⟨true, false⟩ separated) .last group) =
        printImports separated pairImports.reverse :=
    fun group h => by rw [groupImports_separated h]
  rw [← woven, keptText, List.map_congr_left printed]

theorem separated_separable :
    Separable ⟨true, false⟩ separated (parsed ⟨true, false⟩ separated) (fun _ => true) .last := by
  obtain ⟨-, groups, others, directive, -⟩ := separated_read
  refine ⟨fun group h _ => ?_, fun group h _ => .inr (groups group h).2, fun s hs none changes => ?_⟩
  · have plain : ∀ o ∈ pairImports.reverse, o.modified = true →
        o.attributes = none ∧ ∀ b ∈ o.named, b.Printable := by decide
    rwa [← groupImports_separated h] at plain
  -- Nothing changes behind the call; the directive is read alike in front of both orders.
  · rw [(others s hs none).resolve_right (not_not_intro changes)]
    rw [← keptText_separated, keptText_eq .last parse_separated] at directive
    exact directive

theorem separated_kept_outside :
    (organize builtIn emptyWorld separated keeping).1 = .ok reordered ∧
      (∃ again, parse ⟨true, false⟩ reordered = .ok again ∧
        Agree separated (parsed ⟨true, false⟩ separated).statements reordered again.statements) ∧
      List.Forall₂ (fun read group => Kept reordered (parsed ⟨true, false⟩ reordered).comments
          (fun _ => true) read ((groupImports separated (parsed ⟨true, false⟩ separated) .last
            group).map (Item.printed ['\n'])))
        (importGroups reordered (parsed ⟨true, false⟩ reordered).statements)
        (importGroups separated (parsed ⟨true, false⟩ separated).statements) := by
  have kind : Kind.resolve? keeping.parser (Path.normalizeSeparators keeping.effectivePath) =
      some (.script .ts) := by decide
  obtain ⟨run, _, _, _, same, again⟩ := organize_keeps_outside emptyWorld separated keeping kind
    (by decide) (by decide) (by decide) parse_separated
  have order : keeping.typeOrder = .last := rfl
  rw [order] at run same again
  rw [keptText_separated] at run same
  obtain ⟨program, parsed', agree⟩ := same separated_separable
  have reparses : (parse ⟨true, false⟩ reordered).toOption.isSome = true := by
    rw [show parse ⟨true, false⟩ reordered = .ok program from parsed']
    rfl
  refine ⟨run, ⟨program, parsed', agree⟩,
    again reordered _ keptText_separated.symm (parse_eq_parsed reparses) ?_⟩
  refine (List.forall₂_map_right_iff (R := ReadAsPrinted reordered
    (parsed ⟨true, false⟩ reordered).comments (newlineOf separated))).1 ?_
  rw [List.map_congr_left fun group h => groupImports_separated h]
  unfold ReadAsPrinted
  decide +kernel

def unseparated : Text := "import b from 'b'\nimport a from 'a'; a(b)".toList

def fused : Text := "import a from 'a';\nimport b from 'b' a(b)".toList

theorem unseparated_read : (parse ⟨true, false⟩ unseparated).toOption.isSome = true ∧
    importGroups unseparated (parsed ⟨true, false⟩ unseparated).statements =
      [(importGroups unseparated (parsed ⟨true, false⟩ unseparated).statements).flatten] ∧
    (∀ keepUnused, (importGroups unseparated
        (parsed ⟨true, false⟩ unseparated).statements).flatten.filterMap
        (Item.ofDeclaration? unseparated (parsed ⟨true, false⟩ unseparated).comments
          (isUsedIn (parsed ⟨true, false⟩ unseparated) keepUnused false)) = pairImports) ∧
    groupChange? unseparated (printImports unseparated pairImports.reverse)
        (groupSpan (importGroups unseparated (parsed ⟨true, false⟩ unseparated).statements).flatten) =
      some (.replace 0 36 "import a from 'a';\nimport b from 'b'".toList) ∧
    (parse ⟨true, false⟩ fused).toOption.isNone = true := by
  decide +kernel

theorem parse_unseparated :
    parse ⟨true, false⟩ unseparated = .ok (parsed ⟨true, false⟩ unseparated) :=
  parse_eq_parsed unseparated_read.1

theorem organizeProgram_unseparated (keepUnused : Bool) :
    organizeProgram unseparated (parsed ⟨true, false⟩ unseparated) keepUnused false .last =
      [.replace 0 36 "import a from 'a';\nimport b from 'b'".toList] := by
  obtain ⟨-, groups, read, change, -⟩ := unseparated_read
  rw [printImports] at change
  rw [organizeProgram, groups]
  simp only [List.filterMap_cons, List.filterMap_nil, organizedText, read, organizeGroup_pair, change]

theorem fused_refused : ∃ e, parse ⟨true, false⟩ fused = .error e := by
  cases hparse : parse ⟨true, false⟩ fused with
  | error e => exact ⟨e, rfl⟩
  | ok program =>
      obtain ⟨-, -, -, -, none⟩ := unseparated_read
      rw [hparse] at none
      simp [Except.toOption] at none

def keepingIf (keepUnused : Bool) : Settings.Options :=
  { Settings.Options.default with keepUnused }

theorem resolve_keepingIf (keepUnused : Bool) :
    Kind.resolve? (keepingIf keepUnused).parser
      (Path.normalizeSeparators (keepingIf keepUnused).effectivePath) = some (.script .ts) := by
  cases keepUnused <;> decide

theorem organize_unseparated (w : World) (keepUnused : Bool) :
    (organize builtIn w unseparated (keepingIf keepUnused)).1 = .ok fused := by
  have changes : organizeDocument (.script .ts) unseparated keepUnused .last = _ :=
    organizeDocument_script keepUnused .last parse_unseparated
  rw [show ScriptKind.ts.hasElements = false from rfl, organizeProgram_unseparated] at changes
  have run := organizeText_eq_ok w (resolve_keepingIf keepUnused) changes
  have spliced : Edit.splice 0 unseparated
      [.replace 0 36 "import a from 'a';\nimport b from 'b'".toList] = fused := by decide
  rw [spliced] at run
  exact run

/-- A run that keeps unused bindings may turn a script into a text that is none. -/
theorem organize_unparsed : ∃ text, (organize builtIn emptyWorld unseparated keeping).1 = .ok text ∧
    ∃ e, parse ⟨true, false⟩ text = .error e :=
  ⟨fused, organize_unseparated emptyWorld true, fused_refused⟩

end TidyImports.Organizer
