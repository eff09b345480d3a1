import Mathlib.Data.List.Pairwise
import TidyImports.Import.Organize
import TidyImports.Proofs.Edit.Accepted
import TidyImports.Proofs.Script.Placement

/-! Where the import groups of a script stand. The groups put together are the import declarations of
the script in order, so the pieces of the text that they occupy follow each other. A group may take
the line break behind it along and still ends in front of the next group, which starts with a
word. -/
namespace TidyImports.Import

open Script

def declaration? (statement : Statement) : Option ImportDeclaration :=
  match statement.kind with
  | .importing d => some d
  | _ => none

theorem declaration?_eq_some {statement : Statement} {d : ImportDeclaration} :
    declaration? statement = some d ↔ statement.kind = .importing d := by
  cases hkind : statement.kind <;> simp [declaration?, hkind]

def declarations (statements : List Statement) : List ImportDeclaration :=
  statements.filterMap declaration?

variable {text : Text} {statements : List Statement}

theorem importGroups_cons (text : Text) (statement : Statement) (rest : List Statement) :
    declaration? statement = none ∧ importGroups text (statement :: rest) = importGroups text rest ∨
    ∃ d, declaration? statement = some d ∧
      (importGroups text (statement :: rest) = [d] :: importGroups text rest ∨
        ∃ group groups next, importGroups text rest = group :: groups ∧
          rest.head?.map Statement.kind = some (.importing next) ∧
          importGroups text (statement :: rest) = (d :: group) :: groups) := by
  cases hkind : statement.kind with
  | sourced source => exact .inl (by simp [importGroups, declaration?, hkind])
  | other => exact .inl (by simp [importGroups, declaration?, hkind])
  | importing d =>
      refine .inr ⟨d, declaration?_eq_some.2 hkind, ?_⟩
      simp only [importGroups, hkind]
      split
      · next group groups next hgroups hnext =>
        split
        · exact .inr ⟨group, groups, next, hgroups, hnext, rfl⟩
        · exact .inl (by rw [hgroups])
      · exact .inl rfl

theorem flatten_importGroups (text : Text) (statements : List Statement) :
    (importGroups text statements).flatten = declarations statements := by
  induction statements with
  | nil => rfl
  | cons statement rest ih =>
      rcases importGroups_cons text statement rest with ⟨hnone, hgroups⟩ |
        ⟨d, hd, hgroups | ⟨group, groups, _, hrest, _, hgroups⟩⟩
      · rw [hgroups, declarations, List.filterMap_cons_none hnone, ih]
        rfl
      · rw [hgroups, declarations, List.filterMap_cons_some hd, List.flatten_cons, ih]
        rfl
      · rw [hgroups, declarations, List.filterMap_cons_some hd, ← declarations, ← ih, hrest]
        simp

def AreGroup (statements : List Statement) (group : List ImportDeclaration) : Prop :=
  group ≠ [] ∧ statements.map declaration? = group.map some

theorem AreGroup.cons {statement : Statement} {d : ImportDeclaration}
    {group : List ImportDeclaration} (h : AreGroup statements group)
    (hd : declaration? statement = some d) : AreGroup (statement :: statements) (d :: group) :=
  ⟨by simp, by rw [List.map_cons, List.map_cons, hd, h.2]⟩

theorem areGroup_singleton {statement : Statement} {d : ImportDeclaration}
    (hd : declaration? statement = some d) : AreGroup [statement] [d] := ⟨by simp, by simp [hd]⟩

/-- A group is a run of successive import statements; where an import starts the script, the first
group does. -/
theorem importGroups_run (text : Text) (statements : List Statement) :
    (∀ group ∈ importGroups text statements, ∃ before run behind,
      statements = before ++ run ++ behind ∧ AreGroup run group) ∧
    ∀ group groups next, importGroups text statements = group :: groups →
      statements.head?.map Statement.kind = some (.importing next) →
        ∃ run behind, statements = run ++ behind ∧ AreGroup run group := by
  induction statements with
  | nil => simp [importGroups]
  | cons statement rest ih =>
      obtain ⟨runs, leading⟩ := ih
      have later : ∀ group ∈ importGroups text rest, ∃ before run behind,
          statement :: rest = before ++ run ++ behind ∧ AreGroup run group := by
        intro group hgroup
        obtain ⟨before, run, behind, hrest, isRun⟩ := runs group hgroup
        exact ⟨statement :: before, run, behind, by rw [hrest]; rfl, isRun⟩
      rcases importGroups_cons text statement rest with ⟨hnone, hgroups⟩ |
        ⟨d, hd, hgroups | ⟨first, groups, next, hrest, hnext, hgroups⟩⟩
      · rw [hgroups]
        refine ⟨later, fun group groups next _ hkind => ?_⟩
        have himport := declaration?_eq_some.2 (Option.some.inj hkind)
        rw [hnone] at himport
        simp at himport
      · have own : AreGroup [statement] [d] := areGroup_singleton hd
        rw [hgroups]
        refine ⟨List.forall_mem_cons.2 ⟨⟨[], [statement], rest, rfl, own⟩, later⟩, ?_⟩
        rintro _ _ _ ⟨⟩ _
        exact ⟨[statement], rest, rfl, own⟩
      · obtain ⟨run, behind, hrun, isRun⟩ := leading first groups next hrest hnext
        have own : AreGroup (statement :: run) (d :: first) := isRun.cons hd
        have whole : statement :: rest = (statement :: run) ++ behind := by rw [hrun]; rfl
        rw [hrest] at later
        rw [hgroups]
        refine ⟨List.forall_mem_cons.2
          ⟨⟨[], statement :: run, behind, whole, own⟩, (List.forall_mem_cons.1 later).2⟩, ?_⟩
        rintro _ _ _ ⟨⟩ _
        exact ⟨statement :: run, behind, whole, own⟩

theorem importGroups_ne_nil : ∀ group ∈ importGroups text statements, group ≠ [] := by
  intro group hgroup
  obtain ⟨_, _, _, _, isRun⟩ := (importGroups_run text statements).1 group hgroup
  exact isRun.1

/-- An import declaration stands between two characters, starts with a word and is not empty. -/
structure Declared (text : Text) (d : ImportDeclaration) : Prop where
  start : ∃ c rest, text.RestAt d.span.start (c :: rest) ∧ startsWord c = true
  stop : ∃ rest, text.RestAt d.span.stop rest
  start_lt : d.span.start < d.span.stop

theorem declared_of_placed {s : Statement} {d : ImportDeclaration} (h : s.Placed text)
    (hkind : s.kind = .importing d) : Declared text d := by
  obtain ⟨hspan, _, c, rest, place, word⟩ := h.importing d hkind
  obtain ⟨⟨_, body, _, _, _, hlength⟩, hfirst, hlast⟩ :=
    h.sourced d.source (by simp [hkind, StatementKind.source?])
  have hstop : d.source.span.stop = d.source.span.start + d.source.span.length := rfl
  refine ⟨⟨c, rest, hspan ▸ place, word⟩, ?_, ?_⟩
  · rw [hspan]
    exact Text.restAt_of_isBoundary h.stop
  · rw [hspan]
    omega

/-- Import declarations stand in a text, one behind the other. -/
structure DeclaredInOrder (text : Text) (ds : List ImportDeclaration) : Prop where
  declared : ∀ d ∈ ds, Declared text d
  ordered : ds.Pairwise fun a b => a.span.stop ≤ b.span.start

theorem declaredInOrder_of_inOrder (h : Statement.InOrder text statements) :
    DeclaredInOrder text (declarations statements) := by
  constructor
  · intro d hd
    obtain ⟨s, hs, hsd⟩ := List.mem_filterMap.1 hd
    exact declared_of_placed (h.placed s hs) (declaration?_eq_some.1 hsd)
  · refine List.pairwise_filterMap.2 (h.ordered.imp_of_mem fun {a b} ha hb hle x hx y hy => ?_)
    have hspan := ((h.placed a ha).importing x (declaration?_eq_some.1 hx)).1
    have hspan' := ((h.placed b hb).importing y (declaration?_eq_some.1 hy)).1
    rw [hspan, hspan']
    exact hle

theorem lineBreakLength_eq (t : Text) : ∃ lineBreak rest,
    lineBreak ∈ [[], ['\n'], ['\r', '\n']] ∧ t = lineBreak ++ rest ∧
      lineBreakLength t = Text.width lineBreak := by
  unfold lineBreakLength
  split
  · next rest => exact ⟨['\r', '\n'], rest, by simp, rfl, rfl⟩
  · next rest => exact ⟨['\n'], rest, by simp, rfl, rfl⟩
  · exact ⟨[], t, by simp, rfl, rfl⟩

theorem lineBreakLength_le {n m : Nat} {s r : Text} {c : Char} (h : text.RestAt n s)
    (k : text.RestAt m (c :: r)) (word : startsWord c = true) (hle : n ≤ m) :
    n + lineBreakLength s ≤ m := by
  obtain ⟨mid, rfl, rfl⟩ := h.split k hle
  obtain ⟨lineBreak, rest, hmem, heq, hlength⟩ := lineBreakLength_eq (mid ++ c :: r)
  have feed : startsWord '\n' = false := by decide
  have carriageReturn : startsWord '\r' = false := by decide
  have breaks : ∀ lineBreak ∈ [[], ['\n'], ['\r', '\n']], ∀ x ∈ lineBreak,
      startsWord x = false := by simp [feed, carriageReturn]
  rw [hlength]
  rcases List.append_eq_append_iff.1 heq with ⟨tail, rfl, htail⟩ | ⟨tail, rfl, _⟩
  · cases tail with
    | nil => simp
    | cons x tail =>
        obtain ⟨rfl, _⟩ := List.cons.inj htail
        have hbreak := breaks _ hmem c (by simp)
        exact absurd (word.symm.trans hbreak) (by simp)
  · rw [Text.width_append]
    omega

namespace DeclaredInOrder

variable {group : List ImportDeclaration}

theorem head_le (h : DeclaredInOrder text group) (hne : group ≠ []) :
    ∀ d ∈ group, (group.head hne).span.start ≤ d.span.start := by
  intro d hd
  have split := List.cons_head_tail hne
  have ordered := h.ordered
  rw [← split] at hd ordered
  rcases List.mem_cons.1 hd with rfl | hd
  · exact Nat.le_refl _
  · have hle := (List.pairwise_cons.1 ordered).1 d hd
    have := (h.declared _ (List.head_mem hne)).start_lt
    omega

theorem le_getLast (h : DeclaredInOrder text group) (hne : group ≠ []) :
    ∀ d ∈ group, d.span.stop ≤ (group.getLast hne).span.stop := by
  intro d hd
  have split := List.dropLast_concat_getLast hne
  have ordered := h.ordered
  rw [← split] at hd ordered
  rcases List.mem_append.1 hd with hd | hd
  · have hle := (List.pairwise_append.1 ordered).2.2 d hd _ (List.mem_singleton_self _)
    have := (h.declared _ (List.getLast_mem hne)).start_lt
    omega
  · exact Nat.le_of_eq (by rw [List.mem_singleton.1 hd])

theorem groupSpan_eq (h : DeclaredInOrder text group) (hne : group ≠ []) :
    (groupSpan group).start = (group.head hne).span.start ∧
      (groupSpan group).stop = (group.getLast hne).span.stop := by
  have hspan : groupSpan group =
      Edit.Span.ofBounds (group.head hne).span.start (group.getLast hne).span.stop := by
    simp only [groupSpan, List.head?_eq_some_head hne, List.getLast?_eq_some_getLast hne]
  have hlt := (h.declared _ (List.head_mem hne)).start_lt
  have hle := h.le_getLast hne _ (List.head_mem hne)
  rw [hspan, Edit.Span.stop_ofBounds]
  exact ⟨rfl, by omega⟩

end DeclaredInOrder

/-- A group stands between two characters, starts with a word and holds its declarations. -/
structure GroupPlaced (text : Text) (group : List ImportDeclaration) : Prop where
  start : ∃ c rest, text.RestAt (groupSpan group).start (c :: rest) ∧ startsWord c = true
  stop : ∃ rest, text.RestAt (groupSpan group).stop rest
  start_lt : (groupSpan group).start < (groupSpan group).stop
  holds : ∀ d ∈ group, (groupSpan group).start ≤ d.span.start ∧ d.span.stop ≤ (groupSpan group).stop

theorem groupPlaced_of_inOrder {group : List ImportDeclaration} (hne : group ≠ [])
    (h : DeclaredInOrder text group) : GroupPlaced text group := by
  have first := h.declared _ (List.head_mem hne)
  have last := h.declared _ (List.getLast_mem hne)
  obtain ⟨hstart, hstop⟩ := h.groupSpan_eq hne
  have holds : ∀ d ∈ group,
      (groupSpan group).start ≤ d.span.start ∧ d.span.stop ≤ (groupSpan group).stop := by
    intro d hd
    rw [hstart, hstop]
    exact ⟨h.head_le hne d hd, h.le_getLast hne d hd⟩
  refine ⟨hstart ▸ first.start, hstop ▸ last.stop, ?_, holds⟩
  have hlt := first.start_lt
  have hle := (holds _ (List.head_mem hne)).2
  omega

def groupPiece (text : Text) (group : List ImportDeclaration) : Edit.Span :=
  Edit.Span.ofBounds (groupSpan group).start
    ((groupSpan group).stop + lineBreakLength (text.after (groupSpan group).stop))

theorem GroupPlaced.piece_stop {group : List ImportDeclaration} (h : GroupPlaced text group) :
    (groupPiece text group).stop =
      (groupSpan group).stop + lineBreakLength (text.after (groupSpan group).stop) := by
  have := h.start_lt
  rw [groupPiece, Edit.Span.stop_ofBounds]
  omega

/-- All groups of a script are placed, and their pieces of the text follow each other. -/
structure GroupsInOrder (text : Text) (groups : List (List ImportDeclaration)) : Prop where
  placed : ∀ group ∈ groups, GroupPlaced text group
  ordered : groups.Pairwise fun a b => (groupPiece text a).stop ≤ (groupPiece text b).start

theorem declaredInOrder_of_mem (h : Statement.InOrder text statements)
    {group : List ImportDeclaration} (hgroup : group ∈ importGroups text statements) :
    DeclaredInOrder text group := by
  have whole := declaredInOrder_of_inOrder h
  rw [← flatten_importGroups text] at whole
  exact ⟨fun d hd => whole.declared d (List.mem_flatten.2 ⟨group, hgroup, hd⟩),
    (List.pairwise_flatten.1 whole.ordered).1 group hgroup⟩

theorem groupsInOrder_of_inOrder (h : Statement.InOrder text statements) :
    GroupsInOrder text (importGroups text statements) := by
  have whole := declaredInOrder_of_inOrder h
  rw [← flatten_importGroups text] at whole
  have across := (List.pairwise_flatten.1 whole.ordered).2
  have placed : ∀ group ∈ importGroups text statements, GroupPlaced text group :=
    fun group hgroup =>
      groupPlaced_of_inOrder (importGroups_ne_nil group hgroup) (declaredInOrder_of_mem h hgroup)
  refine ⟨placed, across.imp_of_mem fun {a b} ha hb hab => ?_⟩
  have hane := importGroups_ne_nil a ha
  have hbne := importGroups_ne_nil b hb
  have hle : (groupSpan a).stop ≤ (groupSpan b).start := by
    rw [((declaredInOrder_of_mem h ha).groupSpan_eq hane).2,
      ((declaredInOrder_of_mem h hb).groupSpan_eq hbne).1]
    exact hab _ (List.getLast_mem hane) _ (List.head_mem hbne)
  obtain ⟨c, rest, hstart, word⟩ := (placed b hb).start
  obtain ⟨behind, hstop⟩ := (placed a ha).stop
  rw [(placed a ha).piece_stop, hstop.after_eq]
  exact lineBreakLength_le hstop hstart word hle

/-- A change puts a new text in place of a group, and takes the line break behind it along if the
new text is empty. -/
structure CoversGroup (text : Text) (group : List ImportDeclaration) (c : Edit.Change) : Prop where
  start : c.start = (groupSpan group).start
  stop : ∃ lineBreak ∈ [[], ['\n'], ['\r', '\n']],
    c.stop = (groupSpan group).stop + Text.width lineBreak ∧
      text.slice (groupSpan group).stop c.stop = lineBreak ∧ (lineBreak ≠ [] → c.text = [])

theorem groupChange?_covers {group : List ImportDeclaration} {new : Text} {c : Edit.Change}
    (placed : GroupPlaced text group) (h : groupChange? text new (groupSpan group) = some c) :
    CoversGroup text group c := by
  have hlt := placed.start_lt
  obtain ⟨behind, hstop⟩ := placed.stop
  unfold groupChange? at h
  split at h
  · simp at h
  · split at h <;> simp only [Option.some.injEq] at h
    · next empty =>
      obtain ⟨lineBreak, rest, hmem, rfl, hlength⟩ := lineBreakLength_eq behind
      rw [hstop.after_eq, hlength] at h
      have hstop' : c.stop = (groupSpan group).stop + Text.width lineBreak := by
        rw [← h, Edit.Change.replace, Edit.Change.stop, Edit.Span.stop_ofBounds]
        omega
      refine ⟨h ▸ rfl, lineBreak, hmem, hstop', ?_, fun _ => ?_⟩
      · rw [hstop']
        exact hstop.slice_eq
      · rw [← h]
        exact List.isEmpty_iff.1 empty
    · have hstop' : c.stop = (groupSpan group).stop + Text.width [] := by
        rw [← h, Edit.Change.replace, Edit.Change.stop, Edit.Span.stop_ofBounds, Text.width_nil]
        omega
      refine ⟨h ▸ rfl, [], by simp, hstop', ?_, fun hne => absurd rfl hne⟩
      rw [hstop']
      exact Text.RestAt.slice_eq (s := []) hstop

theorem width_le_lineBreakLength {lineBreak : Text} (rest : Text)
    (h : lineBreak ∈ [[], ['\n'], ['\r', '\n']]) :
    Text.width lineBreak ≤ lineBreakLength (lineBreak ++ rest) := by
  simp only [List.mem_cons, List.not_mem_nil, or_false] at h
  rcases h with rfl | rfl | rfl
  · exact Nat.zero_le _
  · exact Nat.le_refl _
  · exact Nat.le_refl _

theorem CoversGroup.in_piece {group : List ImportDeclaration} {c : Edit.Change}
    (h : CoversGroup text group c) (placed : GroupPlaced text group) :
    c.In (groupPiece text group).start (groupPiece text group).stop ∧
      text.isBoundary c.start = true ∧ text.isBoundary c.stop = true := by
  obtain ⟨first, rest, hstart, _⟩ := placed.start
  obtain ⟨behind, hstop⟩ := placed.stop
  obtain ⟨lineBreak, hmem, hcstop, hslice, _⟩ := h.stop
  have hcstart := h.start
  have hlt := placed.start_lt
  have hpiece : (groupPiece text group).start = (groupSpan group).start := rfl
  have split : behind = lineBreak ++ Text.after behind (Text.width lineBreak) := by
    have hupto : Text.upto behind (Text.width lineBreak) = lineBreak := by
      rw [hcstop, Text.slice, hstop.after_eq, Nat.add_sub_cancel_left] at hslice
      exact hslice
    have whole := Text.upto_append_after behind (Text.width lineBreak)
    rw [hupto] at whole
    exact whole.symm
  rw [split] at hstop
  have hle := width_le_lineBreakLength (Text.after behind (Text.width lineBreak)) hmem
  rw [← hstop.after_eq] at hle
  have hend := placed.piece_stop
  refine ⟨⟨?_, ?_, ?_, ?_⟩, ?_, ?_⟩
  · omega
  · omega
  · omega
  · omega
  · rw [hcstart]
    exact hstart.isBoundary
  · rw [hcstop]
    exact hstop.append.isBoundary

def PiecesApart (text : Text) (a b : List ImportDeclaration) : Prop :=
  (groupPiece text a).stop ≤ (groupPiece text b).start ∨
    (groupPiece text b).stop ≤ (groupPiece text a).start

instance : Std.Symm (PiecesApart text) := ⟨fun _ _ => Or.symm⟩

theorem GroupsInOrder.covers_one {groups : List (List ImportDeclaration)}
    {group : List ImportDeclaration} {c : Edit.Change} (h : GroupsInOrder text groups)
    (hgroup : group ∈ groups) (covers : CoversGroup text group c) :
    ∀ other ∈ groups, other ≠ group →
      c.stop ≤ (groupSpan other).start ∨ (groupSpan other).stop ≤ c.start := by
  intro other hother hne
  have apart : groups.Pairwise (PiecesApart text) := h.ordered.imp fun hle => .inl hle
  have hpieces : PiecesApart text group other := apart.forall hgroup hother hne.symm
  have hin := (covers.in_piece (h.placed group hgroup)).1
  have hlow := hin.low_le
  have hstop := hin.stop_le
  have hend := (h.placed other hother).piece_stop
  have hbegin : (groupPiece text other).start = (groupSpan other).start := rfl
  unfold PiecesApart at hpieces
  omega

variable {program : Program} {keepUnused hasElements : Bool} {order : TypeOrder}

theorem organizeProgram_covers (h : Statement.InOrder text program.statements) :
    ∀ c ∈ organizeProgram text program keepUnused hasElements order,
      ∃ group ∈ importGroups text program.statements, CoversGroup text group c := by
  intro c hc
  obtain ⟨group, hgroup, hchange⟩ := List.mem_filterMap.1 hc
  exact ⟨group, hgroup,
    groupChange?_covers ((groupsInOrder_of_inOrder h).placed group hgroup) hchange⟩

theorem organizeProgram_isPatchIn (h : Statement.InOrder text program.statements) :
    Edit.IsPatchIn text 0 (Text.width text)
      (organizeProgram text program keepUnused hasElements order) := by
  have groups := groupsInOrder_of_inOrder h
  have patch : Edit.IsPatch text (organizeProgram text program keepUnused hasElements order) :=
    Edit.isPatch_filterMap (groupPiece text) groups.ordered fun group hgroup c hc =>
      (groupChange?_covers (groups.placed group hgroup) hc).in_piece (groups.placed group hgroup)
  refine ⟨patch, fun c hc => ?_⟩
  obtain ⟨group, hgroup, covers⟩ := organizeProgram_covers h c hc
  obtain ⟨hle, hinside⟩ := patch.inside c hc
  have hstart := covers.start
  obtain ⟨rest, hstop⟩ := (groups.placed group hgroup).stop
  have hlt := (groups.placed group hgroup).start_lt
  have := hstop.le_width
  exact ⟨Nat.zero_le _, by omega, hle, hinside⟩

theorem statement_apart (h : Statement.InOrder text statements) {s : Statement}
    (hs : s ∈ statements) (hnone : declaration? s = none) {group : List ImportDeclaration}
    (hgroup : group ∈ importGroups text statements) :
    s.span.stop ≤ (groupSpan group).start ∨ (groupSpan group).stop ≤ s.span.start := by
  obtain ⟨before, run, behind, rfl, hne, isRun⟩ := (importGroups_run text statements).1 group hgroup
  obtain ⟨hstart, hstop⟩ := (declaredInOrder_of_mem h hgroup).groupSpan_eq hne
  have statementOf : ∀ d ∈ group, ∃ r ∈ run, d.span = r.span := by
    intro d hd
    have hmem : some d ∈ run.map declaration? := isRun ▸ List.mem_map_of_mem hd
    obtain ⟨r, hr, hdecl⟩ := List.mem_map.1 hmem
    have placed := h.placed r (by simp [hr])
    exact ⟨r, hr, (placed.importing d (declaration?_eq_some.1 hdecl)).1⟩
  obtain ⟨left, _, behindRun⟩ := List.pairwise_append.1 h.ordered
  obtain ⟨_, _, beforeRun⟩ := List.pairwise_append.1 left
  rcases List.mem_append.1 hs with hs | hs
  · rcases List.mem_append.1 hs with hs | hs
    · obtain ⟨r, hr, hspan⟩ := statementOf _ (List.head_mem hne)
      rw [hstart, hspan]
      exact .inl (beforeRun s hs r hr)
    · have hmem : none ∈ group.map some := by
        rw [← isRun, ← hnone]
        exact List.mem_map_of_mem hs
      simp at hmem
  · obtain ⟨r, hr, hspan⟩ := statementOf _ (List.getLast_mem hne)
    rw [hstop, hspan]
    exact .inr (behindRun r (List.mem_append_right _ hr) s hs)

end TidyImports.Import
