import TidyImports.Proofs.Import.Meaning
import TidyImports.Proofs.Import.Partition

/-! Scripts that begin with their imports. Where an import stands under the cursor, the statements begin
with the group of this import, which is a row of wordings; whatever stands in the place of the group, the
text goes on with the gap behind the row. -/
namespace TidyImports.Import

open Script Script.Parser

variable {text t : Text} {n : Nat} {dialect : Dialect} {limit : Nat} {c d e : Cursor}
  {statements : List Statement} {items : List TopStatement} {group : List ImportDeclaration}

/-! Groups at the start of statements. -/

def GroupEnds (text : Text) (group : List ImportDeclaration) (behind : List Statement) : Prop :=
  ∀ last ∈ group.getLast?, ∀ next, behind.head?.map Statement.kind = some (.importing next) →
    continuesGroup text last next = false

theorem importGroups_of_other {s : Statement} (other : declaration? s = none) (text : Text)
    (rest : List Statement) : importGroups text (s :: rest) = importGroups text rest := by
  obtain ⟨-, groups⟩ | ⟨d, found, -⟩ := importGroups_cons text s rest
  · exact groups
  · rw [other] at found
    cases found

theorem importGroups_leading {d : ImportDeclaration}
    (first : statements.head?.map Statement.kind = some (.importing d)) (text : Text) :
    ∃ run behind group, statements = run ++ behind ∧ AreGroup run group ∧
      GroupEnds text group behind ∧
      importGroups text statements = group :: importGroups text behind := by
  induction statements generalizing d with
  | nil => cases first
  | cons s rest ih =>
      cases groupStep text s rest with
      | other none =>
          rw [declaration?_eq_some.2 (Option.some.inj first)] at none
          cases none
      | @alone d importing ends groups =>
          have own : AreGroup [s] [d] := areGroup_singleton (declaration?_eq_some.2 importing)
          refine ⟨[s], rest, [d], rfl, own, fun last hlast => ?_, groups⟩
          cases Option.some.inj hlast
          exact ends
      | @joined d next t more group others importing hrest follows continues before groups =>
          obtain ⟨run, behind, group', split, isRun, ends, before'⟩ := ih (d := next) (by simp [hrest, follows])
          obtain ⟨rfl, rfl⟩ := List.cons.inj (before.symm.trans before')
          have whole : s :: rest = (s :: run) ++ behind := by rw [split]; rfl
          refine ⟨_, behind, _, whole, isRun.cons (declaration?_eq_some.2 importing), ?_, groups⟩
          intro last hlast
          rw [List.getLast?_cons_cons] at hlast
          exact ends last hlast

theorem importGroups_of_run {run behind : List Statement} (isRun : AreGroup run group)
    (continues : group.IsChain fun a b => continuesGroup text a b = true)
    (ends : GroupEnds text group behind) :
    importGroups text (run ++ behind) = group :: importGroups text behind := by
  induction run generalizing group with
  | nil => exact absurd (List.map_eq_nil_iff.1 isRun.2.symm) isRun.1
  | cons s run ih =>
      obtain ⟨d, rest, rfl, own, others⟩ := List.map_eq_cons_iff.1 isRun.2.symm
      have importing := declaration?_eq_some.1 own.symm
      rw [List.cons_append]
      cases rest with
      | nil =>
          obtain rfl : run = [] := List.map_eq_nil_iff.1 others.symm
          cases groupStep text s behind with
          | other none => simp [none] at own
          | alone kind _ groups =>
              cases importing.symm.trans kind
              exact groups
          | @joined _ next _ _ _ _ kind hbehind follows more =>
              cases importing.symm.trans kind
              have ends := ends d rfl next (by simp [hbehind, follows])
              rw [more] at ends
              cases ends
      | cons next rest =>
          obtain ⟨first, continues⟩ := List.isChain_cons_cons.1 continues
          have before := ih ⟨by simp, others.symm⟩ continues fun last hlast =>
            ends last (by rwa [Option.mem_def, List.getLast?_cons_cons])
          obtain ⟨t, more, rfl, follows, -⟩ := List.map_eq_cons_iff.1 others.symm
          have follows := declaration?_eq_some.1 follows
          cases groupStep text s (t :: more ++ behind) with
          | other none => simp [none] at own
          | alone kind apart _ =>
              cases importing.symm.trans kind
              have apart := apart next (by simp [follows])
              rw [first] at apart
              cases apart
          | joined kind _ _ _ before' groups =>
              cases importing.symm.trans kind
              cases before.symm.trans before'
              exact groups

theorem exists_start_of_group (inOrder : Statement.InOrder text statements)
    (hgroup : group ∈ importGroups text statements) :
    ∃ s ∈ statements, declaration? s ≠ none ∧ (groupSpan group).start = s.span.start := by
  have nonempty := importGroups_ne_nil group hgroup
  obtain ⟨start, -⟩ := (declaredInOrder_of_mem inOrder hgroup).groupSpan_eq nonempty
  have mem : group.head nonempty ∈ declarations statements := by
    rw [← flatten_importGroups text]
    exact List.mem_flatten.2 ⟨group, hgroup, List.head_mem nonempty⟩
  obtain ⟨s, hs, found⟩ := List.mem_filterMap.1 mem
  have span := ((inOrder.placed s hs).importing _ (declaration?_eq_some.1 found)).1
  exact ⟨s, hs, by simp [found], by rw [start, span]⟩

theorem AreGroup.declaration?_ne_none {run : List Statement} (h : AreGroup run group) :
    ∀ s ∈ run, declaration? s ≠ none := by
  intro s hs none
  have found : declaration? s ∈ group.map some := h.2 ▸ List.mem_map_of_mem hs
  rw [none] at found
  simp at found

/-! Rows of declarations. -/

theorem AreGroup.declarations_eq {run : List Statement} (h : AreGroup run group) :
    declarations run = group := by
  have each := congrArg (List.filterMap id) h.2
  rwa [List.filterMap_map, List.filterMap_map, Function.id_comp, Function.id_comp,
    List.filterMap_some] at each

theorem declarations_rowItems_cons (n : Nat) (w : Wording) (ws : List Wording) :
    declarations ((rowItems n (w :: ws)).map TopStatement.statement) = w.declaration n ::
      declarations ((rowItems (n + (fullText w.lexemes).width) ws).map TopStatement.statement) := rfl

theorem getLast?_row {ws : List Wording}
    (h : AreGroup ((rowItems n ws).map TopStatement.statement) group) :
    ∃ init w, ws = init ++ [w] ∧
      group.getLast? = some (w.declaration (n + (fullText (rowLexemes init)).width)) := by
  have whole := h.declarations_eq
  obtain rfl | ⟨init, w, rfl⟩ := List.eq_nil_or_concat' ws
  · exact absurd whole.symm h.1
  · refine ⟨init, w, rfl, ?_⟩
    rw [← whole, rowItems_append, List.map_append, declarations, List.filterMap_append]
    exact List.getLast?_concat

theorem groupSpan_row {ws : List Wording}
    (h : AreGroup ((rowItems n ws).map TopStatement.statement) group) :
    (groupSpan group).start = n ∧
      (groupSpan group).stop = n + (spelled (rowLexemes ws)).width := by
  obtain ⟨v, first⟩ : ∃ w : Wording, group.head? = some (w.declaration n) := by
    cases ws with
    | nil => exact absurd h.declarations_eq.symm h.1
    | cons w ws => exact ⟨w, by rw [← h.declarations_eq, declarations_rowItems_cons]; rfl⟩
  obtain ⟨init, w, rfl, last⟩ := getLast?_row h
  have text : spelled (rowLexemes (init ++ [w])) = fullText (rowLexemes init) ++ spelled w.lexemes := by
    rw [rowLexemes, List.flatMap_append, List.flatMap_singleton, spelled_append _ w.lexemes_ne_nil]
    rfl
  have start : (v.declaration n).span.start = n := rfl
  have stop : (w.declaration (n + (fullText (rowLexemes init)).width)).span.stop =
      n + (spelled (rowLexemes (init ++ [w]))).width := by
    rw [Wording.declaration, Edit.Span.stop_ofBounds, Nat.max_eq_right (Nat.le_add_right _ _), text,
      Text.width_append, Nat.add_assoc]
  have span : groupSpan group =
      Edit.Span.ofBounds n (n + (spelled (rowLexemes (init ++ [w]))).width) := by
    simp only [groupSpan, first, last, start, stop]
  rw [span, Edit.Span.stop_ofBounds, Nat.max_eq_right (Nat.le_add_right _ _)]
  exact ⟨rfl, rfl⟩

/-- The wordings of the first group at a cursor, and the statements behind it. -/
structure Opened (text : Text) (c : Cursor) (items : List TopStatement)
    (group : List ImportDeclaration) (ws : List Wording) (behind : List TopStatement) (e : Cursor) :
    Prop where
  split : items = rowItems c.start ws ++ behind
  chain : c.Chain (rowLexemes ws) e
  isGroup : AreGroup ((rowItems c.start ws).map TopStatement.statement) group
  ends : GroupEnds text group (behind.map TopStatement.statement)
  groups : importGroups text (items.map TopStatement.statement) =
    group :: importGroups text (behind.map TopStatement.statement)

theorem exists_opened {d₀ : ImportDeclaration}
    (reads : Reads topStep (.module_ dialect limit) c items d) (fits : c.Fits text)
    (first : (items.map TopStatement.statement).head?.map Statement.kind = some (.importing d₀)) :
    ∃ group ws behind e, Opened text c items group ws behind e ∧
      Reads topStep (.module_ dialect limit) e behind d := by
  obtain ⟨run, rest, group, split, isRun, ends, hgroups⟩ := importGroups_leading first text
  obtain ⟨own, behind, rfl, rfl, rfl⟩ := List.map_eq_append_iff.1 split
  have importing : ∀ item ∈ own, ∃ x, item.statement.kind = .importing x := by
    intro item hitem
    have found := isRun.declaration?_ne_none item.statement (List.mem_map_of_mem hitem)
    obtain ⟨x, hx⟩ := Option.ne_none_iff_exists'.1 found
    exact ⟨x, declaration?_eq_some.1 hx⟩
  obtain ⟨ws, e, -, rfl, chain, more⟩ := exists_wordings_of_reads reads fits importing
  exact ⟨group, ws, behind, e, ⟨rfl, chain, isRun, ends, hgroups⟩, more⟩

theorem glue_append_text (sep first : Text) (more : List Text) (t : Text) :
    ∃ u, Text.glue sep (first :: more) ++ t = first ++ u := by
  cases more with
  | nil => exact ⟨t, rfl⟩
  | cons next more =>
      rw [Text.glue, List.append_assoc, List.append_assoc]
      exact ⟨_, rfl⟩

namespace Opened

variable {ws : List Wording} {behind : List TopStatement}

theorem inhabited (h : Opened text c items group ws behind e) : ws ≠ [] := by
  rintro rfl
  exact h.isGroup.1 (List.map_eq_nil_iff.1 h.isGroup.2.symm)

theorem source (h : Opened text c items group ws behind e) :
    c.source = spelled (rowLexemes ws) ++ (gapText (lastGap (rowLexemes ws)) ++ e.source) := by
  rw [h.chain.source, fullText_eq, List.append_assoc]

theorem stop (h : Opened text c items group ws behind e) :
    (groupSpan group).stop + (gapText (lastGap (rowLexemes ws))).width = e.start := by
  rw [(groupSpan_row h.isGroup).2, h.chain.start, fullText_eq, Text.width_append, Nat.add_assoc]

theorem after_stop (h : Opened text c items group ws behind e) (fits : c.Fits text) :
    text.after (groupSpan group).stop = gapText (lastGap (rowLexemes ws)) ++ e.source := by
  have place := fits.source
  rw [h.source] at place
  rw [(groupSpan_row h.isGroup).2, place.append.after_eq]

end Opened

end TidyImports.Import
