import TidyImports.Proofs.Import.Leading

/-! Texts with other pieces in the place of groups. A group with a new text that is empty takes the line
break behind it along; everything between the groups stays. From any place on that lies in no group, the
new text is made of what stands there and of the groups behind it. -/
namespace TidyImports.Import

open Script Script.Parser

variable {text t : Text} {n m : Nat} {c e : Cursor} {statements rest behind : List Statement}
  {items others : List TopStatement} {group : List ImportDeclaration} {groups : List (List ImportDeclaration)}
  {new : List ImportDeclaration → Text} {ws : List Wording} {pieces : List GapPiece}

theorem slice_ne_nil {start stop : Nat} {c : Char} {rest : Text} (h : text.RestAt start (c :: rest))
    (inhabited : start < stop) : text.slice start stop ≠ [] := by
  obtain ⟨k, hk⟩ : ∃ k, stop - start = k + 1 := ⟨stop - start - 1, by omega⟩
  rw [Text.slice, h.after_eq, hk, Text.upto]
  simp

/-- What a new text for a group replaces: the group, and the line break behind it if nothing is put in its
place. -/
def replacedSpan (text : Text) (new : List ImportDeclaration → Text) (group : List ImportDeclaration) :
    Edit.Span :=
  if new group = [] then groupPiece text group else groupSpan group

theorem start_replacedSpan (text : Text) (new : List ImportDeclaration → Text)
    (group : List ImportDeclaration) : (replacedSpan text new group).start = (groupSpan group).start := by
  unfold replacedSpan
  split <;> rfl

theorem GroupPlaced.stop_replacedSpan (h : GroupPlaced text group) :
    (replacedSpan text new group).stop = (groupSpan group).stop +
      if new group = [] then lineBreakLength (text.after (groupSpan group).stop) else 0 := by
  unfold replacedSpan
  split
  · exact h.piece_stop
  · rfl

theorem spansInOrder_groups (h : Statement.InOrder text statements) :
    Edit.SpansInOrder text ((importGroups text statements).map groupSpan) := by
  have groups := groupsInOrder_of_inOrder h
  refine ⟨List.forall_mem_map.2 fun group hgroup => ?_, List.pairwise_map.2 ?_⟩
  · obtain ⟨_, _, hstart, _⟩ := (groups.placed group hgroup).start
    obtain ⟨_, hstop⟩ := (groups.placed group hgroup).stop
    exact ⟨hstart.isBoundary, hstop.isBoundary⟩
  · refine groups.ordered.imp_of_mem fun {a b} ha _ hle => ?_
    have hstop := (groups.placed a ha).piece_stop
    have hstart : (groupPiece text b).start = (groupSpan b).start := rfl
    omega

theorem spansInOrder_replaced (h : Statement.InOrder text statements) (new : List ImportDeclaration → Text) :
    Edit.SpansInOrder text ((importGroups text statements).map (replacedSpan text new)) := by
  have groups := groupsInOrder_of_inOrder h
  refine ⟨List.forall_mem_map.2 fun group hgroup => ?_, List.pairwise_map.2 ?_⟩
  · have placed := groups.placed group hgroup
    obtain ⟨_, _, hstart, _⟩ := placed.start
    obtain ⟨behind, hstop⟩ := placed.stop
    obtain ⟨lineBreak, rest, -, rfl, length⟩ := lineBreakLength_eq behind
    rw [start_replacedSpan, placed.stop_replacedSpan, hstop.after_eq, length]
    refine ⟨hstart.isBoundary, ?_⟩
    split
    · exact hstop.append.isBoundary
    · exact hstop.isBoundary
  · refine groups.ordered.imp_of_mem fun {a b} ha _ hle => ?_
    have hstop := (groups.placed a ha).piece_stop
    have hstart : (groupPiece text b).start = (groupSpan b).start := rfl
    rw [start_replacedSpan, (groups.placed a ha).stop_replacedSpan]
    split <;> omega

theorem GroupPlaced.puts_groupChange? (h : GroupPlaced text group) (new : List ImportDeclaration → Text) :
    Edit.Puts text (new group) (replacedSpan text new group)
      (groupChange? text (new group) (groupSpan group)) := by
  obtain ⟨_, _, start, -⟩ := h.start
  have order := h.start_lt
  have whole : (replacedSpan text new group).stop = _ := h.stop_replacedSpan
  have puts {m : Nat} (hle : (groupSpan group).start ≤ m) (stop : (replacedSpan text new group).stop = m) :
      Edit.Puts text (new group) (replacedSpan text new group)
        (some (.replace (groupSpan group).start m (new group))) := by
    refine ⟨(start_replacedSpan text new group).symm, ?_, rfl⟩
    rw [stop, Edit.Change.replace, Edit.Change.stop, Edit.Span.stop_ofBounds, Nat.max_eq_right hle]
  unfold groupChange?
  split
  · next same =>
    rw [replacedSpan, if_neg (same ▸ slice_ne_nil start order)]
    exact same
  · split
    · next empty =>
      rw [if_pos (List.isEmpty_iff.1 empty)] at whole
      exact puts (by omega) whole
    · next left =>
      rw [if_neg (fun none => left (List.isEmpty_iff.2 none))] at whole
      exact puts order.le whole

def rewoven (text : Text) (new : List ImportDeclaration → Text) (n : Nat) (t : Text)
    (groups : List (List ImportDeclaration)) : Text :=
  Edit.weave (Edit.gaps n t (groups.map (replacedSpan text new))) (groups.map new)

theorem rewoven_cons {piece behind : Text} (start : (groupSpan group).start = n)
    (stop : (replacedSpan text new group).stop = n + piece.width) (groups : List (List ImportDeclaration)) :
    rewoven text new n (piece ++ behind) (group :: groups) =
      new group ++ rewoven text new (n + piece.width) behind groups := by
  have first : (replacedSpan text new group).start = n + Text.width [] := by
    rw [start_replacedSpan, start, Text.width_nil, Nat.add_zero]
  have last : (replacedSpan text new group).stop =
      (replacedSpan text new group).start + piece.width := by
    rw [stop, start_replacedSpan, start]
  rw [rewoven, List.map_cons, List.map_cons, ← List.nil_append (piece ++ behind),
    Edit.gaps_cons first last, stop]
  rfl

theorem rewoven_skip (before t : Text)
    (hgroups : ∀ group ∈ groups, n + before.width ≤ (groupSpan group).start) :
    rewoven text new n (before ++ t) groups = before ++ rewoven text new (n + before.width) t groups :=
  Edit.weave_gaps_skip before (List.forall_mem_map.2 fun group hgroup => by
    rw [start_replacedSpan]
    exact hgroups group hgroup) _

/-! What stands behind an offset. -/

def groupsFrom (groups : List (List ImportDeclaration)) (n : Nat) : List (List ImportDeclaration) :=
  groups.filter fun group => n ≤ (groupSpan group).start

/-- The text from an offset on, with new texts in the place of the groups that stand there. -/
def rewovenFrom (text : Text) (new : List ImportDeclaration → Text) (groups : List (List ImportDeclaration))
    (n : Nat) : Text :=
  rewoven text new n (text.after n) (groupsFrom groups n)

/-- A group at an offset or behind it gets a text that it does not have. -/
def ChangesFrom (text : Text) (new : List ImportDeclaration → Text) (groups : List (List ImportDeclaration))
    (n : Nat) : Prop :=
  ∃ group ∈ groupsFrom groups n, new group ≠ text.slice (groupSpan group).start (groupSpan group).stop

instance (text : Text) (new : List ImportDeclaration → Text) (groups : List (List ImportDeclaration))
    (n : Nat) : Decidable (ChangesFrom text new groups n) :=
  inferInstanceAs (Decidable (∃ group ∈ groupsFrom groups n, _))

theorem groupsFrom_groupsFrom (hle : n ≤ m) : groupsFrom (groupsFrom groups n) m = groupsFrom groups m := by
  rw [groupsFrom, groupsFrom, List.filter_filter]
  refine List.filter_congr fun group _ => ?_
  rw [← Bool.decide_and, decide_eq_decide]
  omega

theorem groupsFrom_eq_self (h : ∀ group ∈ groups, n ≤ (groupSpan group).start) :
    groupsFrom groups n = groups :=
  List.filter_eq_self.2 fun group hgroup => decide_eq_true (h group hgroup)

theorem ChangesFrom.mono (h : ChangesFrom text new groups m) (hle : n ≤ m) :
    ChangesFrom text new groups n := by
  obtain ⟨group, hgroup, changed⟩ := h
  rw [← groupsFrom_groupsFrom hle] at hgroup
  exact ⟨group, List.mem_of_mem_filter hgroup, changed⟩

theorem rewovenFrom_eq_self (inOrder : Statement.InOrder text statements) (place : text.RestAt n t)
    (same : ¬ ChangesFrom text new (importGroups text statements) n) :
    rewovenFrom text new (importGroups text statements) n = t := by
  have groups := groupsInOrder_of_inOrder inOrder
  have left : ∀ group ∈ groupsFrom (importGroups text statements) n,
      new group = text.slice (groupSpan group).start (groupSpan group).stop ∧
        replacedSpan text new group = groupSpan group := by
    intro group hgroup
    have own : new group = text.slice (groupSpan group).start (groupSpan group).stop :=
      Decidable.byContradiction fun changed => same ⟨group, hgroup, changed⟩
    have placed := groups.placed group (List.mem_of_mem_filter hgroup)
    obtain ⟨_, _, start, -⟩ := placed.start
    refine ⟨own, if_neg ?_⟩
    rw [own]
    exact slice_ne_nil start placed.start_lt
  have spans : (groupsFrom (importGroups text statements) n).map (replacedSpan text new) =
      (groupsFrom (importGroups text statements) n).map groupSpan :=
    List.map_congr_left fun group hgroup => (left group hgroup).2
  have texts : (groupsFrom (importGroups text statements) n).map new =
      ((groupsFrom (importGroups text statements) n).map groupSpan).map
        fun s => text.slice s.start s.stop := by
    rw [List.map_map]
    exact List.map_congr_left fun group hgroup => (left group hgroup).1
  have ordered := spansInOrder_groups inOrder
  have sub : ((groupsFrom (importGroups text statements) n).map groupSpan).Sublist
      ((importGroups text statements).map groupSpan) := List.filter_sublist.map groupSpan
  rw [rewovenFrom, rewoven, spans, texts, place.after_eq]
  refine Edit.weave_old ⟨fun s hs => ordered.between s (sub.subset hs), ordered.ordered.sublist sub⟩ place ?_
  exact List.forall_mem_map.2 fun group hgroup => of_decide_eq_true (List.mem_filter.1 hgroup).2

/-- What is left of statements from an offset on. -/
structure LeftFrom (text : Text) (statements : List Statement) (n : Nat) (rest : List Statement) : Prop where
  inside : ∀ s ∈ rest, s ∈ statements
  groups : groupsFrom (importGroups text statements) n = importGroups text rest

namespace LeftFrom

theorem whole (inOrder : Statement.InOrder text statements) (start : ∀ s ∈ statements, n ≤ s.span.start) :
    LeftFrom text statements n statements := by
  refine ⟨fun _ hs => hs, groupsFrom_eq_self fun group hgroup => ?_⟩
  obtain ⟨s, hs, -, same⟩ := exists_start_of_group inOrder hgroup
  rw [same]
  exact start s hs

theorem skip (h : LeftFrom text statements n rest) (hle : n ≤ m) (inside : ∀ s ∈ behind, s ∈ rest)
    (groups : groupsFrom (importGroups text rest) m = importGroups text behind) :
    LeftFrom text statements m behind := by
  refine ⟨fun s hs => h.inside s (inside s hs), ?_⟩
  rw [← groupsFrom_groupsFrom hle, h.groups, groups]

theorem rewovenFrom_eq (h : LeftFrom text statements n rest) (place : text.RestAt n t) :
    rewovenFrom text new (importGroups text statements) n =
      rewoven text new n t (importGroups text rest) := by
  rw [rewovenFrom, h.groups, place.after_eq]

theorem rewovenFrom_skip {before : Text} (h : LeftFrom text statements n rest)
    (place : text.RestAt n (before ++ t))
    (later : ∀ group ∈ importGroups text rest, n + before.width ≤ (groupSpan group).start) :
    rewovenFrom text new (importGroups text statements) n =
      before ++ rewovenFrom text new (importGroups text statements) (n + before.width) := by
  have behind := h.skip (Nat.le_add_right n before.width) (fun _ hs => hs) (groupsFrom_eq_self later)
  rw [h.rewovenFrom_eq place, behind.rewovenFrom_eq place.append, rewoven_skip before t later]

end LeftFrom

/-! The first group. -/

/-- A group that is removed takes whole pieces of the gap behind it along. -/
theorem exists_gap_behind_lineBreak (isGap : IsGap t pieces) (stop : NoGap t) :
    ∃ taken left, pieces = taken ++ left ∧ IsGap t left ∧
      lineBreakLength (gapText pieces ++ t) = (gapText taken).width := by
  obtain ⟨lineBreak, more, one, whole, length⟩ := lineBreakLength_eq (gapText pieces ++ t)
  -- A line break in front is one or two blanks of the gap, for what follows the gap begins with none.
  have first {d : Char} {u : Text} {pieces : List GapPiece} (isGap : IsGap t pieces)
      (blank : (isLineBreak d || Script.isGap d) = true) (slash : d ≠ '/')
      (whole : gapText pieces ++ t = d :: u) :
      ∃ others, pieces = .blank d :: others ∧ IsGap t others ∧ gapText others ++ t = u := by
    cases isGap with
    | nil =>
        rw [gapText_nil, List.nil_append] at whole
        have stays := (whole ▸ stop).not_blank slash
        rw [blank] at stays
        cases stays
    | blank _ others =>
        obtain ⟨rfl, rfl⟩ := List.cons.inj whole
        exact ⟨_, rfl, others, rfl⟩
    | _ => exact absurd (List.cons.inj whole).1.symm slash
  rw [length]
  simp only [List.mem_cons, List.not_mem_nil, or_false] at one
  rcases one with rfl | rfl | rfl
  · exact ⟨[], pieces, rfl, isGap, rfl⟩
  · obtain ⟨left, rfl, others, -⟩ := first isGap (by decide) (by decide) whole
    exact ⟨[.blank '\n'], left, rfl, others, rfl⟩
  · obtain ⟨others, rfl, behind, rest⟩ := first isGap (by decide) (by decide) whole
    obtain ⟨left, rfl, others, -⟩ := first behind (by decide) (by decide) rest
    exact ⟨[.blank '\r', .blank '\n'], left, rfl, others, rfl⟩

namespace Opened

variable (h : Opened text c items group ws others e) (fits : c.Fits text)
  (left : LeftFrom text statements c.start (items.map TopStatement.statement))
  (later : ∀ other ∈ importGroups text (others.map TopStatement.statement), e.start ≤ (groupSpan other).start)
include h left later

theorem leftFrom (hle : m ≤ e.start) (inside : (groupSpan group).start < m) :
    LeftFrom text statements m (others.map TopStatement.statement) := by
  obtain ⟨start, -⟩ := groupSpan_row h.isGroup
  refine left.skip (start ▸ Nat.le_of_lt inside) (fun s hs => ?_) ?_
  · rw [h.split, List.map_append]
    exact List.mem_append_right _ hs
  · rw [h.groups, groupsFrom, List.filter_cons_of_neg (by simpa using inside)]
    exact groupsFrom_eq_self fun other hother => Nat.le_trans hle (later other hother)

include fits

theorem rewovenFrom_stop (placed : GroupPlaced text group) :
    rewovenFrom text new (importGroups text statements) (groupSpan group).stop =
      gapText (lastGap (rowLexemes ws)) ++ rewovenFrom text new (importGroups text statements) e.start := by
  have stop := h.stop
  have place := fits.source
  rw [h.source] at place
  have behind := h.leftFrom left later (m := (groupSpan group).stop) (by omega) placed.start_lt
  rw [(groupSpan_row h.isGroup).2] at behind stop ⊢
  rw [behind.rewovenFrom_skip place.append fun other hother => ?_, stop]
  rw [stop]
  exact later other hother

theorem rewovenFrom_printed (placed : GroupPlaced text group) (inhabited : new group ≠ []) :
    rewovenFrom text new (importGroups text statements) c.start =
      new group ++ rewovenFrom text new (importGroups text statements) (groupSpan group).stop := by
  obtain ⟨start, stop⟩ := groupSpan_row h.isGroup
  have whole := h.stop
  have place := fits.source
  rw [h.source] at place
  have behind := h.leftFrom left later (m := (groupSpan group).stop) (by omega) placed.start_lt
  rw [stop] at behind
  have replaced : (replacedSpan text new group).stop = c.start + (spelled (rowLexemes ws)).width := by
    rw [replacedSpan, if_neg inhabited, stop]
  rw [left.rewovenFrom_eq place, h.groups, rewoven_cons start replaced, stop,
    behind.rewovenFrom_eq place.append]

theorem exists_rewovenFrom_removed (scanned : e.Scanned) (placed : GroupPlaced text group)
    (none : new group = []) :
    ∃ gap, IsGap e.source gap ∧ rewovenFrom text new (importGroups text statements) c.start =
      gapText gap ++ rewovenFrom text new (importGroups text statements) e.start := by
  obtain ⟨start, stop⟩ := groupSpan_row h.isGroup
  obtain ⟨taken, gap, split, isGap, length⟩ :=
    exists_gap_behind_lineBreak (isGap_lastGap h.chain.leads) scanned.noGap
  have whole := h.stop
  have inside := placed.start_lt
  have place := fits.source
  have replaced : (replacedSpan text new group).stop = (groupSpan group).stop +
      lineBreakLength (text.after (groupSpan group).stop) := by
    rw [placed.stop_replacedSpan, if_pos none]
  rw [h.after_stop fits, length, stop, Nat.add_assoc, ← Text.width_append] at replaced
  rw [h.source, split, gapText_append, List.append_assoc, ← List.append_assoc] at place
  rw [split, gapText_append, Text.width_append, stop, ← Nat.add_assoc, Nat.add_assoc c.start,
    ← Text.width_append] at whole
  have behind := h.leftFrom left later (m := c.start + (spelled (rowLexemes ws) ++ gapText taken).width)
    (by omega) (by rw [Text.width_append]; omega)
  refine ⟨gap, isGap, ?_⟩
  rw [left.rewovenFrom_eq place, h.groups, rewoven_cons start replaced, none, List.nil_append,
    ← behind.rewovenFrom_eq place.append, behind.rewovenFrom_skip place.append fun other hother => ?_, whole]
  rw [whole]
  exact later other hother

end Opened

end TidyImports.Import
