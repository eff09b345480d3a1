import TidyImports.Proofs.Import.Renewed
import TidyImports.Proofs.Script.Openings

/-! Scripts with their groups of imports worded anew. As long as something changes from a place on, the
groups there are replaced by wordings, one in a line, which bind what is used of the group and nothing that
the group does not bind, or they are removed; and the statements between them are read alike in the old and
in the new text. Then the new text is parsed, with a group in the place of each group that is left, all
other statements are read as before, and the same names are used. -/
namespace TidyImports.Import

open Script Script.Parser

variable {text text' newline : Text} {dialect : Dialect} {limit limit' : Nat}
  {b c d e c' d' : Cursor} {statements : List Statement} {item : TopStatement}
  {items items' behind others : List TopStatement} {group : List ImportDeclaration} {program : Program}
  {isUsed : Text → Bool} {texts : List ImportDeclaration → List Text} {ws vs : List Wording}
  {covers : List Nat}

/-- The text from an offset on, with new texts for the groups of imports, each with its lines glued. -/
def reprinted (text newline : Text) (statements : List Statement) (texts : List ImportDeclaration → List Text)
    (n : Nat) : Text :=
  rewovenFrom text (fun group => Text.glue newline (texts group)) (importGroups text statements) n

theorem reprinted_zero : reprinted text newline statements texts 0 =
    Edit.weave (Edit.gaps 0 text ((importGroups text statements).map
        (replacedSpan text fun group => Text.glue newline (texts group))))
      ((importGroups text statements).map fun group => Text.glue newline (texts group)) := by
  rw [reprinted, rewovenFrom, groupsFrom_eq_self fun _ _ => Nat.zero_le _, (Text.restAt_zero text).after_eq]
  rfl

/-- A group at an offset or behind it changes. -/
def Changes (text newline : Text) (statements : List Statement) (texts : List ImportDeclaration → List Text)
    (n : Nat) : Prop :=
  ChangesFrom text (fun group => Text.glue newline (texts group)) (importGroups text statements) n

instance (text newline : Text) (statements : List Statement) (texts : List ImportDeclaration → List Text)
    (n : Nat) : Decidable (Changes text newline statements texts n) :=
  inferInstanceAs (Decidable (ChangesFrom ..))

/-- New texts for the groups among statements. Up to the last group that changes, each group is printed in
wordings that end before what stands behind it, and every other statement is read alike. -/
structure Replaceable (dialect : Dialect) (isUsed : Text → Bool) (text newline : Text)
    (statements : List Statement) (texts : List ImportDeclaration → List Text) : Prop where
  rows : ∀ group ∈ importGroups text statements,
    Changes text newline statements texts (groupSpan group).start →
      ∃ ws, RowPrints dialect.types isUsed text group (texts group) ws ∧ ∀ w ∈ ws.getLast?, w.ending = [] →
        standsApart (reprinted text newline statements texts (groupSpan group).stop) = true
  alike : ∀ s ∈ statements, declaration? s = none → Changes text newline statements texts s.span.stop →
    ReadsAlike dialect (text.after s.span.start) (reprinted text newline statements texts s.span.start)

theorem RowPrints.ne_nil {new : List Text} {types : Bool} (h : RowPrints types isUsed text group new ws)
    (inhabited : ws ≠ []) : Text.glue newline new ≠ [] := by
  obtain ⟨w, more, rfl⟩ := List.exists_cons_of_ne_nil inhabited
  obtain ⟨valid, phrase⟩ := h.valid w (by simp)
  rw [← h.printed, List.map_cons]
  exact Text.glue_ne_nil (valid.spelled_ne_nil phrase)

theorem RowPrints.exists_opening {new : List Text} {types : Bool}
    (h : RowPrints types isUsed text group new ws) (inhabited : ws ≠ []) (newline t : Text) :
    ∃ b, Cursor.opening? (Text.glue newline new ++ t) = some b ∧ b.source = Text.glue newline new ++ t := by
  obtain ⟨w, more, rfl⟩ := List.exists_cons_of_ne_nil inhabited
  obtain ⟨valid, phrase⟩ := h.valid w (by simp)
  rw [← h.printed, List.map_cons]
  obtain ⟨u, split⟩ := glue_append_text newline (spelled w.lexemes) (more.map fun w => spelled w.lexemes) t
  obtain ⟨rest, scan, noGap, -⟩ := valid.scan phrase u
  rw [split]
  exact exists_opening_of_scan noGap scan

/-! What is left to read. -/

/-- Under a cursor, what is left of the statements of a text is left to read. -/
structure Remains (dialect : Dialect) (limit : Nat) (text : Text) (statements : List Statement) (c : Cursor)
    (items : List TopStatement) (d : Cursor) : Prop where
  reads : Reads topStep (.module_ dialect limit) c items d
  fits : c.Fits text
  scanned : c.Scanned
  left : LeftFrom text statements c.start (items.map TopStatement.statement)

theorem later_of_reads (reads : Reads topStep (.module_ dialect limit) c items d) (fits : c.Fits text) :
    ∀ group ∈ importGroups text (items.map TopStatement.statement), c.start ≤ (groupSpan group).start := by
  obtain ⟨inOrder, start⟩ := inOrder_of_reads reads fits
  intro group hgroup
  obtain ⟨s, hs, -, same⟩ := exists_start_of_group inOrder hgroup
  obtain ⟨item, hitem, rfl⟩ := List.mem_map.1 hs
  rw [same]
  exact start item hitem

namespace Remains

variable (h : Remains dialect limit text statements c items d)
include h

theorem mem_groups (opened : Opened text c items group ws behind e) :
    group ∈ importGroups text statements := by
  have mem : group ∈ groupsFrom (importGroups text statements) c.start := by
    rw [h.left.groups, opened.groups]
    exact List.mem_cons_self
  exact List.mem_of_mem_filter mem

theorem behind_group (inOrder : Statement.InOrder text statements)
    (opened : Opened text c items group ws behind e)
    (reads : Reads topStep (.module_ dialect limit) e behind d) :
    Remains dialect limit text statements e behind d := by
  have fits := (opened.chain.reaches text h.fits).1
  have inside := ((groupsInOrder_of_inOrder inOrder).placed group (h.mem_groups opened)).start_lt
  have stop := opened.stop
  exact ⟨reads, fits, opened.chain.scanned h.scanned,
    opened.leftFrom h.left (later_of_reads reads fits) (Nat.le_refl _) (by omega)⟩

theorem reprinted_eq_self (inOrder : Statement.InOrder text statements)
    (same : ¬ Changes text newline statements texts c.start) :
    reprinted text newline statements texts c.start = c.source :=
  rewovenFrom_eq_self inOrder h.fits.source same

theorem leftAlone (inOrder : Statement.InOrder text statements)
    (same : ¬ Changes text newline statements texts c.start) :
    LeftAlone text newline texts (Changes text newline statements texts)
      (items.map TopStatement.statement) := by
  intro group hgroup
  rw [← h.left.groups] at hgroup
  obtain ⟨mem, behind⟩ := List.mem_filter.1 hgroup
  have kept : Text.glue newline (texts group) = text.slice (groupSpan group).start (groupSpan group).stop :=
    Decidable.byContradiction fun changed => same ⟨group, hgroup, changed⟩
  have placed := (groupsInOrder_of_inOrder inOrder).placed group mem
  obtain ⟨_, _, start, -⟩ := placed.start
  refine ⟨fun changes => same (changes.mono (of_decide_eq_true behind)), fun none => ?_, kept⟩
  rw [none] at kept
  exact slice_ne_nil start placed.start_lt kept.symm

end Remains

theorem Remains.exists_step (h : Remains dialect limit text statements c (item :: others) d) :
    ∃ e, topStep.run (.module_ dialect limit) c = .ok (some item, e) ∧
      Reads topStep (.module_ dialect limit) e others d ∧ e.Fits text ∧ c.start ≤ e.start ∧
      item.statement.span.start = c.start ∧ item.statement.span.stop ≤ e.start := by
  obtain _ | ⟨step, more⟩ := h.reads
  obtain ⟨fits, le, -⟩ := topStep.forward step text h.fits
  obtain ⟨-, found, -⟩ | ⟨-, _, next, found⟩ := run_topStep_eq_ok.1 step
  · cases found
  cases found
  have read := readFrom_of_nextStatement next h.fits
  exact ⟨_, step, more, fits, le, by rw [read.span]; rfl, read.stop_le fits le⟩

theorem Remains.changes_behind (h : Remains dialect limit text statements c (item :: others) d)
    (other : declaration? item.statement = none) (changes : Changes text newline statements texts c.start) :
    Changes text newline statements texts item.statement.span.stop := by
  obtain ⟨e, -, more, fits, le, -, stop⟩ := h.exists_step
  obtain ⟨group, hgroup, changed⟩ := changes
  refine ⟨group, ?_, changed⟩
  have behind := hgroup
  rw [h.left.groups, List.map_cons, importGroups_of_other other] at behind
  have start := later_of_reads more fits group behind
  exact List.mem_filter.2 ⟨List.mem_of_mem_filter hgroup, decide_eq_true (Nat.le_trans stop start)⟩

theorem Remains.behind_other (h : Remains dialect limit text statements c (item :: others) d)
    (other : declaration? item.statement = none) {own : TopStatement}
    (first : c.ReadsFirst dialect own covers e) :
    item = own.shift c.start ∧ Remains dialect limit text statements e others d := by
  obtain ⟨_, step, more, fits, le, -⟩ := h.exists_step
  cases step.symm.trans (first.step limit)
  refine ⟨rfl, more, fits, first.scanned, h.left.skip le (fun s hs => List.mem_cons_of_mem _ hs) ?_⟩
  rw [List.map_cons, importGroups_of_other other]
  exact groupsFrom_eq_self (later_of_reads more fits)

theorem Remains.reprinted_eq_nil (h : Remains dialect limit text statements c items d)
    (inOrder : Statement.InOrder text statements) (empty : c.source = []) :
    reprinted text newline statements texts c.start = [] := by
  have place := h.fits.source
  rw [empty] at place
  have groups : groupsFrom (importGroups text statements) c.start = [] := by
    refine List.filter_eq_nil_iff.2 fun group hgroup => ?_
    obtain ⟨a, rest, start, -⟩ := ((groupsInOrder_of_inOrder inOrder).placed group hgroup).start
    have size := a.utf8Size_pos
    have width := start.add_width
    have whole := place.add_width
    rw [Text.width_cons] at width
    rw [Text.width_nil] at whole
    simp only [decide_eq_true_eq]
    omega
  rw [reprinted, rewovenFrom, groups, place.after_eq]
  rfl

theorem Remains.gap_congr (h : Remains dialect limit text statements c items d)
    (inOrder : Statement.InOrder text statements) {gap : List GapPiece} (isGap : IsGap c.source gap) :
    IsGap (reprinted text newline statements texts c.start) gap :=
  isGap.congr (h.reprinted_eq_nil inOrder)

theorem Remains.exists_rows (h : Remains dialect limit text statements c items d)
    (inOrder : Statement.InOrder text statements)
    (replaceable : Replaceable dialect isUsed text newline statements texts)
    (changes : Changes text newline statements texts c.start) {d₀ : ImportDeclaration}
    (first : (items.map TopStatement.statement).head?.map Statement.kind = some (.importing d₀)) :
    ∃ group ws behind e vs, Opened text c items group ws behind e ∧
      Remains dialect limit text statements e behind d ∧ behind.length < items.length ∧
      Changes text newline statements texts (groupSpan group).start ∧
      RowPrints dialect.types isUsed text group (texts group) vs ∧
      (∀ w ∈ vs.getLast?, w.ending = [] →
        standsApart (reprinted text newline statements texts (groupSpan group).stop) = true) ∧
      GroupPlaced text group := by
  obtain ⟨group, ws, behind, e, opened, more⟩ := exists_opened h.reads h.fits first
  obtain ⟨start, -⟩ := groupSpan_row opened.isGroup
  rw [← start] at changes
  obtain ⟨vs, prints, apart⟩ := replaceable.rows group (h.mem_groups opened) changes
  refine ⟨group, ws, behind, e, vs, opened, h.behind_group inOrder opened more, ?_, changes, prints, apart,
    (groupsInOrder_of_inOrder inOrder).placed group (h.mem_groups opened)⟩
  obtain ⟨w, rest, rfl⟩ := List.exists_cons_of_ne_nil opened.inhabited
  rw [opened.split, List.length_append, rowItems, List.length_cons]
  omega

theorem Remains.exists_gap_removed (h : Remains dialect limit text statements c items d)
    (inOrder : Statement.InOrder text statements)
    (opened : Opened text c items group ws behind e)
    (more : Remains dialect limit text statements e behind d) (none : texts group = []) :
    ∃ gap, IsGap (reprinted text newline statements texts e.start) gap ∧
      reprinted text newline statements texts c.start =
        gapText gap ++ reprinted text newline statements texts e.start := by
  have placed := (groupsInOrder_of_inOrder inOrder).placed group (h.mem_groups opened)
  have removed : ∃ gap, IsGap e.source gap ∧ reprinted text newline statements texts c.start =
      gapText gap ++ reprinted text newline statements texts e.start :=
    opened.exists_rewovenFrom_removed h.fits h.left (later_of_reads more.reads more.fits) more.scanned placed
      (congrArg (Text.glue newline) none)
  obtain ⟨gap, isGap, whole⟩ := removed
  exact ⟨gap, more.gap_congr inOrder isGap, whole⟩

section Reading

variable (inOrder : Statement.InOrder text statements)
  (replaceable : Replaceable dialect isUsed text newline statements texts)
include inOrder replaceable

theorem exists_opening_reprinted (h : Remains dialect limit text statements c items d) :
    ∃ b, Cursor.opening? (reprinted text newline statements texts c.start) = some b := by
  induction hlength : items.length using Nat.strong_induction_on generalizing items c with
  | _ length ih =>
  by_cases changes : Changes text newline statements texts c.start
  · cases items with
    | nil =>
        obtain ⟨group, hgroup, -⟩ := changes
        rw [h.left.groups] at hgroup
        cases hgroup
    | cons item others =>
        cases found : declaration? item.statement with
        | none =>
            obtain ⟨_, -, -, -, -, start, -⟩ := h.exists_step
            have alike := replaceable.alike item.statement (h.left.inside _ (by simp)) found
              (h.changes_behind found changes)
            rw [start] at alike
            obtain ⟨b, opening, -⟩ := alike.exists_opening
            exact ⟨b, opening⟩
        | some d₀ =>
            obtain ⟨group, ws, behind, e, vs, opened, more, shorter, -, prints, -, placed⟩ :=
              h.exists_rows inOrder replaceable changes (congrArg some (declaration?_eq_some.1 found))
            obtain ⟨b, opening⟩ := ih behind.length (hlength ▸ shorter) more rfl
            by_cases empty : vs = []
            · subst empty
              obtain ⟨gap, isGap, whole⟩ := h.exists_gap_removed inOrder opened more prints.printed.symm
              rw [whole]
              exact ⟨b, opening?_skip opening isGap⟩
            · obtain ⟨b, opening, -⟩ := prints.exists_opening empty newline
                (reprinted text newline statements texts (groupSpan group).stop)
              refine ⟨b, ?_⟩
              rw [reprinted, opened.rewovenFrom_printed h.fits h.left
                (later_of_reads more.reads more.fits) placed (prints.ne_nil empty)]
              exact opening
  · rw [h.reprinted_eq_self inOrder changes]
    exact ⟨_, h.scanned.opening?_eq⟩

end Reading

/-! Reading again. -/

theorem otherOutlines_append (items behind : List TopStatement) :
    otherOutlines (items ++ behind) = otherOutlines items ++ otherOutlines behind := by
  simp [otherOutlines]

theorem otherOutlines_row (n : Nat) (ws : List Wording) : otherOutlines (rowItems n ws) = [] := by
  induction ws generalizing n with
  | nil => rfl
  | cons w ws ih => exact ih _

theorem otherOutlines_shift (n : Nat) (items : List TopStatement) :
    otherOutlines (items.map (TopStatement.shift n)) = otherOutlines items := by
  simp only [otherOutlines, List.filter_map, List.map_map, Function.comp_def, TopStatement.shift,
    declaration?_shift, Option.isNone_map]

/-- Statements of a new text that renew those of the old one: they export what those export, and name
outside of imports what those name there. -/
structure Rereads (isUsed : Text → Bool) (text newline : Text) (texts : List ImportDeclaration → List Text)
    (touched : Nat → Prop) (items : List TopStatement) (text' : Text) (items' : List TopStatement) :
    Prop where
  exports : items'.flatMap TopStatement.exports = items.flatMap TopStatement.exports
  outlines : otherOutlines items' = otherOutlines items
  renewed : Renewed isUsed text newline texts touched (items.map TopStatement.statement) text'
    (items'.map TopStatement.statement)

/-- Under a cursor in a new text statements are read that renew those of the old one. -/
def IsReread (dialect : Dialect) (limit : Nat) (isUsed : Text → Bool) (text newline : Text)
    (texts : List ImportDeclaration → List Text) (touched : Nat → Prop) (items : List TopStatement)
    (d : Cursor) (text' : Text) (c : Cursor) : Prop :=
  ∃ items' d', Reads topStep (.module_ dialect limit) c items' d' ∧
    (c.covers = [] → d.covers = [] → d'.covers = []) ∧
    Rereads isUsed text newline texts touched items text' items'

theorem isReread_left (limit' : Nat) {touched : Nat → Prop}
    (h : Remains dialect limit text statements c items d)
    (left : LeftAlone text newline texts touched (items.map TopStatement.statement))
    (fits' : c'.Fits text') (same : c'.here = c.here) :
    IsReread dialect limit' isUsed text newline texts touched items d text' c' := by
  obtain ⟨own, comments, covers, d', rfl, reads', -, -, hcovers, hcovers'⟩ :=
    reads_elsewhere limit' h.reads same
  have place := fits'.source
  rw [Cursor.source_eq_of_here same] at place
  have shifted (n : Nat) : (own.map (TopStatement.shift n)).map TopStatement.statement =
      (own.map TopStatement.statement).map (Statement.shift n) := by
    rw [List.map_map, List.map_map]
    rfl
  refine ⟨_, d', reads', fun none none' => ?_, ?_, ?_, ?_⟩
  · rw [none'] at hcovers
    simp_all
  · simp [List.flatMap_map, TopStatement.shift]
  · rw [otherOutlines_shift, otherOutlines_shift]
  · rw [shifted] at left ⊢
    rw [shifted]
    exact renewed_shift h.fits.source place left

theorem Opened.isReread_removed {touched : Nat → Prop}
    (opened : Opened text c items group ws behind e) (fits : c.Fits text)
    (prints : RowPrints dialect.types isUsed text group (texts group) [])
    (again : IsReread dialect limit' isUsed text newline texts touched behind d text' c') :
    IsReread dialect limit' isUsed text newline texts touched items d text' c' := by
  obtain ⟨items', d', reads', covers, again⟩ := again
  refine ⟨items', d', reads', covers, ?_, ?_, opened.renewed_removed fits prints again.renewed⟩
  · rw [again.exports, opened.split, List.flatMap_append, exports_rowItems]
    rfl
  · rw [again.outlines, opened.split, otherOutlines_append, otherOutlines_row]
    rfl

theorem Opened.isReread_printed {touched : Nat → Prop} {e' : Cursor} {gap extra : List GapPiece}
    (opened : Opened text c items group ws behind e) (hnewline : IsNewline newline)
    (h : Remains dialect limit text statements c items d)
    (reads : Reads topStep (.module_ dialect limit) e behind d)
    (fits' : c'.Fits text') (scanned' : c'.Scanned)
    (prints : RowPrints dialect.types isUsed text group (texts group) vs) (inhabited : vs ≠ [])
    (changes : touched (groupSpan group).start) (hgap : gap = lastGap (rowLexemes ws) ++ extra)
    (row : Row dialect.types c' (spaced (blanks newline) gap vs) e')
    (again : IsReread dialect limit' isUsed text newline texts touched behind d text' e') :
    IsReread dialect limit' isUsed text newline texts touched items d text' c' := by
  obtain ⟨items', d', reads', covers, again⟩ := again
  have ends := opened.groupEnds_row (spaced_ne_nil inhabited) ((lastGap_spaced _ _ inhabited).trans hgap)
    h.fits fits' row.chain reads reads' again.renewed
  refine ⟨_, d', row.reads scanned' reads', fun none => covers (by rw [row.chain.covers, none]), ?_, ?_,
    opened.renewed_printed hnewline h.fits fits' prints inhabited changes row.chain ends again.renewed⟩
  · rw [List.flatMap_append, exports_rowItems, again.exports, opened.split, List.flatMap_append,
      exports_rowItems]
  · rw [otherOutlines_append, again.outlines, opened.split, otherOutlines_append, otherOutlines_row,
      otherOutlines_row]

theorem covers_eq_nil_of_reads (reads : Reads topStep (.module_ dialect limit) c items d)
    (none : d.covers = []) : c.covers = [] := by
  obtain ⟨_, _, _, _, -, -, -, -, covers, -⟩ := reads_elsewhere limit reads rfl
  rw [none] at covers
  exact (List.append_eq_nil_iff.1 covers.symm).2

theorem isReread_behind {touched : Nat → Prop} {own : TopStatement} {covers : List Nat} {e' : Cursor}
    (reads : Reads topStep (.module_ dialect limit) e others d) (fits : c.Fits text) (fits' : c'.Fits text')
    (first : c.ReadsFirst dialect own covers e) (first' : c'.ReadsFirst dialect own covers e')
    (other : declaration? own.statement = none)
    (same : spanText c'.source own.statement.span = spanText c.source own.statement.span)
    (again : IsReread dialect limit' isUsed text newline texts touched others d text' e') :
    IsReread dialect limit' isUsed text newline texts touched (own.shift c.start :: others) d text' c' := by
  obtain ⟨items', d', reads', hcovers, again⟩ := again
  have shifted (n : Nat) : declaration? (own.shift n).statement = none := by
    rw [TopStatement.shift, declaration?_shift, other]
    rfl
  refine ⟨own.shift c'.start :: items', d', .item (first'.step limit') reads',
    fun none none' => ?_, ?_, ?_, ?_⟩
  · have behind := covers_eq_nil_of_reads reads none'
    rw [first.covers, List.append_eq_nil_iff, List.map_eq_nil_iff] at behind
    exact hcovers (by rw [first'.covers, behind.1, none]; rfl) none'
  · rw [List.flatMap_cons, List.flatMap_cons, again.exports]
    rfl
  · rw [otherOutlines, List.filter_cons_of_pos (by simp [shifted]), otherOutlines,
      List.filter_cons_of_pos (by simp [shifted]), List.map_cons, List.map_cons, ← otherOutlines,
      ← otherOutlines, again.outlines]
    rfl
  · exact again.renewed.cons (.other fits.source fits'.source isUsed other same) (shifted _) (shifted _)

theorem Remains.opening_behind {own : TopStatement} {covers : List Nat} {e' : Cursor}
    (h : Remains dialect limit text statements c (own.shift c.start :: others) d)
    (inOrder : Statement.InOrder text statements)
    (replaceable : Replaceable dialect isUsed text newline statements texts)
    (other : declaration? own.statement = none) (first : c.ReadsFirst dialect own covers e)
    (first' : c'.ReadsFirst dialect own covers e')
    (source' : c'.source = reprinted text newline statements texts c.start) :
    Cursor.opening? (reprinted text newline statements texts e.start) = some e'.here ∧
      spanText c'.source own.statement.span = spanText c.source own.statement.span := by
  have moved : declaration? (own.shift c.start).statement = none := by
    rw [TopStatement.shift, declaration?_shift, other]
    rfl
  obtain ⟨-, more⟩ := h.behind_other moved first
  obtain ⟨b, opening⟩ := exists_opening_reprinted inOrder replaceable more
  obtain ⟨u, between, split, width⟩ := Text.restAt_of_isBoundary first.boundary
  have behind := first.behind
  rw [← split, ← width, Text.after_width] at behind
  obtain ⟨gap, isGap, rfl, -⟩ := exists_gap_of_opening? behind
  have source : c.source = between ++ gapText gap ++ e.source := by
    rw [← split, List.append_assoc]
    rfl
  have place := h.fits.source
  rw [source] at place
  have start : c.start + Text.width (between ++ gapText gap) = e.start := by
    have left := place.append.add_width
    have right := more.fits.source.add_width
    omega
  have whole : reprinted text newline statements texts c.start =
      between ++ gapText gap ++ reprinted text newline statements texts e.start := by
    rw [reprinted, h.left.rewovenFrom_skip place fun group hgroup => ?_, start]
    · rfl
    · rw [List.map_cons, importGroups_of_other moved] at hgroup
      rw [start]
      exact later_of_reads more.reads more.fits group hgroup
  have span (t : Text) : spanText (between ++ t) own.statement.span = between := by
    have slice := Text.RestAt.slice_eq (Text.restAt_zero (between ++ t))
    rwa [Nat.zero_add, width, ← first.start] at slice
  rw [List.append_assoc] at whole source
  constructor
  · have behind' := first'.behind
    rw [source', whole, ← width, Text.after_width,
      opening?_skip opening (more.gap_congr inOrder isGap)] at behind'
    rw [opening, behind']
  · rw [source', whole, source, span, span]

theorem Remains.exists_row (h : Remains dialect limit text statements c items d)
    (hnewline : IsNewline newline) (inOrder : Statement.InOrder text statements)
    (opened : Opened text c items group ws behind e)
    (more : Remains dialect limit text statements e behind d)
    (prints : RowPrints dialect.types isUsed text group (texts group) vs) (inhabited : vs ≠ [])
    (apart : ∀ w ∈ vs.getLast?, w.ending = [] →
      standsApart (reprinted text newline statements texts (groupSpan group).stop) = true)
    (placed : GroupPlaced text group) (scanned' : c'.Scanned)
    (opening : Cursor.opening? (reprinted text newline statements texts c.start) = some c'.here)
    (opening' : Cursor.opening? (reprinted text newline statements texts e.start) = some b) :
    ∃ e' extra, Row dialect.types c' (spaced (blanks newline) (lastGap (rowLexemes ws) ++ extra) vs) e' ∧
      Cursor.opening? (reprinted text newline statements texts e.start) = some e'.here := by
  obtain ⟨extra, isGap, source, scanned, here⟩ := exists_gap_of_opening? opening'
  have later := later_of_reads more.reads more.fits
  have isGap' : IsGap (reprinted text newline statements texts e.start) (lastGap (rowLexemes ws)) :=
    more.gap_congr inOrder (isGap_lastGap opened.chain.leads)
  have whole : reprinted text newline statements texts (groupSpan group).stop =
      gapText (lastGap (rowLexemes ws) ++ extra) ++ b.source := by
    rw [gapText_append, List.append_assoc, ← source]
    exact opened.rewovenFrom_stop h.fits h.left later placed
  have printed : reprinted text newline statements texts c.start = Text.glue newline (texts group) ++
      reprinted text newline statements texts (groupSpan group).stop :=
    opened.rewovenFrom_printed h.fits h.left later placed (prints.ne_nil inhabited)
  obtain ⟨b', opened', source'⟩ := prints.exists_opening inhabited newline
    (reprinted text newline statements texts (groupSpan group).stop)
  rw [printed, opened', Option.some.injEq] at opening
  have own : c'.source = Text.glue (gapText (blanks newline)) (vs.map fun w => spelled w.lexemes) ++
      (gapText (lastGap (rowLexemes ws) ++ extra) ++ b.source) := by
    rw [gapText_blanks, prints.printed, ← whole, ← source', opening]
    rfl
  rw [source] at isGap'
  rw [whole] at apart
  obtain ⟨e', row, behind'⟩ := Script.exists_row (separates_newline hnewline) inhabited prints.valid
    scanned' own (isGap'.append isGap) scanned.noGap scanned.scan apart
  refine ⟨e', extra, row, ?_⟩
  rw [opening', ← here, (row.chain.scanned scanned').here_eq scanned behind']

section Step

variable (inOrder : Statement.InOrder text statements)
  (replaceable : Replaceable dialect isUsed text newline statements texts)
  (changes : Changes text newline statements texts c.start) (fits' : c'.Fits text') (scanned' : c'.Scanned)
  (opening : Cursor.opening? (reprinted text newline statements texts c.start) = some c'.here)
include inOrder replaceable changes fits' scanned' opening

theorem Remains.isReread_other (h : Remains dialect limit text statements c (item :: others) d)
    (other : declaration? item.statement = none)
    (again : ∀ e e', Remains dialect limit text statements e others d → e'.Fits text' → e'.Scanned →
      Cursor.opening? (reprinted text newline statements texts e.start) = some e'.here →
        IsReread dialect limit' isUsed text newline texts (Changes text newline statements texts) others d
          text' e') :
    IsReread dialect limit' isUsed text newline texts (Changes text newline statements texts)
      (item :: others) d text' c' := by
  obtain ⟨_, -, -, -, -, start, -⟩ := h.exists_step
  have alike := replaceable.alike item.statement (h.left.inside _ (by simp)) other
    (h.changes_behind other changes)
  rw [start, h.fits.source.after_eq] at alike
  obtain ⟨b, opening', source⟩ := alike.exists_opening
  obtain rfl := Option.some.inj (opening.symm.trans opening')
  have source : c'.source = reprinted text newline statements texts c.start := source
  rw [← source] at alike
  obtain ⟨own, covers, e, e', first, first'⟩ := alike.exists_readsFirst h.scanned h.fits scanned' fits'
  obtain ⟨rfl, more⟩ := h.behind_other other first
  have other : declaration? own.statement = none := by
    have moved : declaration? (own.statement.shift c.start) = none := other
    rw [declaration?_shift] at moved
    exact Option.map_eq_none_iff.1 moved
  obtain ⟨opening, same⟩ := h.opening_behind inOrder replaceable other first first' source
  exact isReread_behind more.reads h.fits fits' first first' other same
    (again e e' more (topStep.forward (first'.step 0) text' fits').1 first'.scanned opening)

theorem Remains.isReread_group (h : Remains dialect limit text statements c items d)
    (hnewline : IsNewline newline) {d₀ : ImportDeclaration}
    (found : (items.map TopStatement.statement).head?.map Statement.kind = some (.importing d₀))
    (again : ∀ behind e e', behind.length < items.length →
      Remains dialect limit text statements e behind d → e'.Fits text' → e'.Scanned →
        Cursor.opening? (reprinted text newline statements texts e.start) = some e'.here →
          IsReread dialect limit' isUsed text newline texts (Changes text newline statements texts) behind d
            text' e') :
    IsReread dialect limit' isUsed text newline texts (Changes text newline statements texts) items d
      text' c' := by
  obtain ⟨group, ws, behind, e, vs, opened, more, shorter, changes', prints, apart, placed⟩ :=
    h.exists_rows inOrder replaceable changes found
  obtain ⟨b, behind'⟩ := exists_opening_reprinted inOrder replaceable more
  by_cases empty : vs = []
  · subst empty
    obtain ⟨gap, isGap, whole⟩ := h.exists_gap_removed inOrder opened more prints.printed.symm
    rw [whole, opening?_skip behind' isGap, Option.some.injEq] at opening
    exact opened.isReread_removed h.fits prints
      (again behind e c' shorter more fits' scanned' (opening ▸ behind'))
  · obtain ⟨e', extra, row, opening'⟩ :=
      h.exists_row hnewline inOrder opened more prints empty apart placed scanned' opening behind'
    exact opened.isReread_printed hnewline h more.reads fits' scanned' prints empty changes' rfl row
      (again behind e e' shorter more (row.chain.reaches text' fits').1 (row.chain.scanned scanned') opening')

end Step

theorem reads_reprinted (limit' : Nat) (hnewline : IsNewline newline)
    (inOrder : Statement.InOrder text statements)
    (replaceable : Replaceable dialect isUsed text newline statements texts)
    (h : Remains dialect limit text statements c items d) (fits' : c'.Fits text') (scanned' : c'.Scanned)
    (opening : Cursor.opening? (reprinted text newline statements texts c.start) = some c'.here) :
    IsReread dialect limit' isUsed text newline texts (Changes text newline statements texts) items d
      text' c' := by
  -- By induction on what is left to read: of the old statements, and with it of the new text.
  induction hlength : items.length using Nat.strong_induction_on generalizing items c c' with
  | _ length ih =>
  by_cases changes : Changes text newline statements texts c.start
  · cases items with
    | nil =>
        obtain ⟨group, hgroup, -⟩ := changes
        rw [h.left.groups] at hgroup
        cases hgroup
    | cons item others =>
        cases found : declaration? item.statement with
        | none =>
            exact h.isReread_other inOrder replaceable changes fits' scanned' opening found
              fun e e' more fits' scanned' opening =>
                ih others.length (by simp [← hlength]) more fits' scanned' opening rfl
        | some d₀ =>
            exact h.isReread_group inOrder replaceable changes fits' scanned' opening hnewline
              (congrArg some (declaration?_eq_some.1 found))
              fun behind e e' shorter more fits' scanned' opening =>
                ih behind.length (hlength ▸ shorter) more fits' scanned' opening rfl
  · rw [h.reprinted_eq_self inOrder changes] at opening
    exact isReread_left limit' h (h.leftAlone inOrder changes) fits'
      (Option.some.inj (h.scanned.opening?_eq.symm.trans opening)).symm

theorem outline_of_reads (reads : Reads topStep (.module_ dialect limit) c items d) (fits : c.Fits text) :
    ∀ item ∈ items, ∀ x, item.statement.kind = .importing x → item.outline = x.outline := by
  intro item hitem x importing
  obtain ⟨c₁, d₁, step, before, -⟩ := reads.exists_run hitem
  obtain ⟨-, found, -⟩ | ⟨-, _, hnext, found⟩ := run_topStep_eq_ok.1 step
  · cases found
  cases found
  obtain ⟨w, -, -, rfl⟩ := exists_wording_of_nextStatement hnext (before text fits).1 importing
  cases importing
  rfl

theorem LeftFrom.reprinted_behind (left : LeftFrom text statements 0 statements)
    (later : ∀ group ∈ importGroups text statements, c.start ≤ (groupSpan group).start) {start : Text}
    (split : text = start ++ c.source) (width : start.width = c.start) :
    reprinted text newline statements texts 0 = start ++ reprinted text newline statements texts c.start := by
  have place : text.RestAt 0 (start ++ c.source) := split ▸ Text.restAt_zero text
  rw [← width] at later ⊢
  rw [← Nat.zero_add start.width] at later ⊢
  exact left.rewovenFrom_skip place later

/-- A script with its groups worded anew is parsed, and it is the script renewed. -/
theorem parse_reprinted (hnewline : IsNewline newline) (h : parse dialect text = .ok program)
    (replaceable : Replaceable dialect isUsed text newline program.statements texts)
    (whole : reprinted text newline program.statements texts 0 = text') :
    ∃ again rest, parse dialect text' = .ok again ∧
      Renewed isUsed text newline texts (Changes text newline program.statements texts)
        program.statements text' again.statements ∧
      NamesFrom rest program.statements program.names ∧ NamesFrom rest again.statements again.names := by
  have inOrder := inOrder_of_parse h
  obtain ⟨items, d, hrun, rfl⟩ := parse_eq_ok.1 h
  obtain ⟨c, moved, hmany, covers, exports⟩ := run_script_eq_ok.1 hrun
  have fits := (advance.forward moved text (initial_fits text)).1
  have scanned := scanned_of_advance moved
  have reads := reads_of_many hmany
  have names := namesFrom_items (outline_of_reads reads fits)
  simp only at inOrder replaceable whole ⊢
  have start := (inOrder_of_reads reads fits).2
  have remains : Remains dialect (text.length + 4) text (items.map TopStatement.statement) c items d :=
    ⟨reads, fits, scanned, .whole inOrder (List.forall_mem_map.2 start)⟩
  obtain ⟨b, opening⟩ := exists_opening_reprinted inOrder replaceable remains
  obtain ⟨start, c', split, here, hcovers, moved'⟩ :=
    run_advance_elsewhere moved opening (remains.reprinted_eq_nil inOrder)
  have width : start.width = c.start := by
    have place : text.RestAt start.width c.source := ⟨start, split.symm, rfl⟩
    have left := place.add_width
    have right := fits.source.add_width
    omega
  rw [(LeftFrom.whole inOrder fun _ _ => Nat.zero_le _).reprinted_behind (later_of_reads reads fits) split
    width] at whole
  subst whole
  have fits' := (advance.forward (moved' (.module_ dialect 0)) _ (initial_fits _)).1
  have scanned' := scanned_of_advance (moved' (.module_ dialect 0))
  rw [← here] at opening
  obtain ⟨items', d', reads', covers', again⟩ := reads_reprinted
    ((start ++ reprinted text newline (items.map TopStatement.statement) texts c.start).length + 4)
    hnewline inOrder replaceable remains fits' scanned' opening
  have names' := namesFrom_items (outline_of_reads reads' fits')
  rw [again.outlines] at names'
  have exports' := again.exports ▸ exports
  exact ⟨_, _, parse_of_reads moved' reads' (covers' hcovers covers) exports', again.renewed, names, names'⟩

end TidyImports.Import
