import Mathlib.Data.List.Forall2
import TidyImports.Proofs.Import.Settled

/-! How far merging goes. Only neighbours are merged, so imports of one module stay apart where one that is
not merged stands between them. Nothing else keeps them apart: without such an import a segment ends up
with no two that can be merged, wherever they stand. -/
namespace TidyImports.Import

variable {order : TypeOrder} {a b i x : Item} {l block : List Item}

/-- An import that others of its key are not merged across: it is merged with none, or it is a default
name among types. -/
def Item.parts (i : Item) : Bool :=
  i.frozen || i.namespaceName.isSome || i.attributes.isSome || i.isType && i.defaultName.isSome

/-- Two imports that are not merged. If they have one key and both are plain, both have a default name, or
they are types, and together they have a default name and named bindings. -/
structure KeptApart (a b : Item) : Prop where
  refused : a.canMerge b = false ∧ b.canMerge a = false
  reason : SameKey a b → a.Plain → b.Plain →
    a.defaultName.isSome = true ∧ b.defaultName.isSome = true ∨
      a.isType = true ∧ mixesForms a b = true

/-- No two imports of a list can be merged, wherever they stand. -/
def FullyMerged (l : List Item) : Prop := l.Pairwise KeptApart

/-- No import parts two others of its key that can be merged. -/
def Unparted (l : List Item) : Prop :=
  ∀ a x b, [a, x, b].Sublist l → SameKey a x → a.canMerge b = true → x.parts = false

theorem Item.Plain.parts (h : i.Plain) : i.parts = (i.isType && i.defaultName.isSome) := by
  rw [Item.parts, h.thawed, h.noNamespace, h.noAttributes]
  rfl

theorem plain_of_parts (h : i.parts = false) : i.Plain := by
  simp only [Item.parts, Bool.or_eq_false_iff, Option.isSome_eq_false_iff,
    Option.isNone_iff_eq_none] at h
  exact ⟨h.1.1.1, h.1.1.2, h.1.2⟩

theorem parts_merge (h : a.canMerge b = true) : (a.merge b).parts = (a.parts || b.parts) := by
  obtain ⟨key, plain, plain', -⟩ := canMerge_iff.1 h
  rw [plain.merge.parts, plain.parts, plain'.parts, ← key.2, ← Bool.and_or_distrib_left]
  exact congrArg _ Option.isSome_or

theorem parts_of_refused (h : a.canMerge b = true) (bare : a.defaultName = none)
    (key : SameKey a x) (refused : a.canMerge x = false) : x.parts = true := by
  by_contra whole
  rw [Bool.not_eq_true] at whole
  have plain := plain_of_parts whole
  rw [plain.parts] at whole
  refine absurd (canMerge_iff.2 ⟨key, (canMerge_iff.1 h).2.1, plain, .inl bare, fun types => ?_⟩)
    (by simp [refused])
  rw [← key.2, types, Bool.true_and] at whole
  rw [mixesForms, bare, whole]
  rfl

theorem sameKey_between (first : (compareImports a x).isLE = true)
    (second : (compareImports x b).isLE = true) (key : SameKey a b) : SameKey a x := by
  rw [compareImports_congr (.refl x) key.symm] at second
  exact compareImports_eq_iff.1 (Std.OrientedCmp.isLE_antisymm first second)

theorem exists_parting_between {between : List Item}
    (sorted : (a :: (between ++ [b])).Pairwise fun a b => (compareImports a b).isLE = true)
    (apart : (a :: (between ++ [b])).IsChain fun a b => a.canMerge b = false)
    (can : a.canMerge b = true) : ∃ x ∈ between, SameKey a x ∧ x.parts = true := by
  obtain ⟨keyed, -, -, bare, -⟩ := canMerge_iff.1 can
  obtain ⟨first, others⟩ := List.pairwise_cons.1 sorted
  have last := (List.pairwise_append.1 others).2.2
  have key : ∀ x ∈ between, SameKey a x := fun x hx =>
    sameKey_between (first x (by simp [hx])) (last x hx b (by simp)) keyed
  have inhabited : between ≠ [] := by
    rintro rfl
    simp [can] at apart
  rcases bare with bare | bare
  · obtain ⟨x, more, rfl⟩ := List.exists_cons_of_ne_nil inhabited
    have refused := (List.isChain_cons_cons.1 apart).1
    exact ⟨x, by simp, key x (by simp), parts_of_refused can bare (key x (by simp)) refused⟩
  · obtain ⟨more, x, rfl⟩ := (List.eq_nil_or_concat' between).resolve_left inhabited
    have refused : x.canMerge b = false := by
      have ends : [x, b] <:+ a :: (more ++ [x] ++ [b]) := ⟨a :: more, by simp⟩
      exact (List.isChain_cons_cons.1 (apart.suffix ends)).1
    rw [canMerge_comm] at can refused
    have keyed' := keyed.symm.trans (key x (by simp))
    exact ⟨x, by simp, key x (by simp), parts_of_refused can bare keyed' refused⟩

theorem exists_parting (sorted : l.Pairwise fun a b => (compareImports a b).isLE = true)
    (apart : l.IsChain fun a b => a.canMerge b = false) (h : [a, b].Sublist l)
    (can : a.canMerge b = true) : ∃ x, [a, x, b].Sublist l ∧ SameKey a x ∧ x.parts = true := by
  obtain ⟨_, _, rfl, ha, hb⟩ := List.cons_sublist_iff.1 h
  obtain ⟨before, near, rfl⟩ := List.append_of_mem ha
  obtain ⟨far, behind, rfl⟩ := List.append_of_mem (List.singleton_sublist.1 hb)
  have part : a :: ((near ++ far) ++ [b]) <:+: before ++ a :: near ++ (far ++ b :: behind) :=
    ⟨before, behind, by simp⟩
  have chain := apart.infix part
  obtain ⟨x, hx, key, parts⟩ := exists_parting_between (sorted.sublist part.sublist) chain can
  have between : [x, b].Sublist ((near ++ far) ++ [b]) :=
    (List.singleton_sublist.2 hx).append (.refl [b])
  exact ⟨x, (between.cons_cons a).trans part.sublist, key, parts⟩

/-- An import that arises by taking in the imports of a block from left to right. -/
inductive Absorbed : Item → List Item → Prop
  | alone (i : Item) : Absorbed i [i]
  | next {i next : Item} {block : List Item} (h : Absorbed i block)
    (can : i.canMerge next = true) : Absorbed (i.merge next) (block ++ [next])

namespace Absorbed

theorem canMerge_iff (h : Absorbed i block) :
    a.canMerge i = true ↔ ∀ j ∈ block, a.canMerge j = true := by
  induction h with
  | alone i => rw [List.forall_mem_singleton]
  | next h can ih =>
      rw [canMerge_merge can, Bool.and_eq_true, ih, List.forall_mem_append, List.forall_mem_singleton]

theorem sameKey (h : Absorbed i block) : ∀ j ∈ block, SameKey i j := by
  induction h with
  | alone i => exact List.forall_mem_singleton.2 (.refl i)
  | next h can ih =>
      exact List.forall_mem_append.2 ⟨ih, List.forall_mem_singleton.2 (Import.canMerge_iff.1 can).1⟩

theorem parts (h : Absorbed i block) (hparts : i.parts = true) : ∃ j ∈ block, j.parts = true := by
  induction h with
  | alone i => exact ⟨i, by simp, hparts⟩
  | @next i next block h can ih =>
      rw [parts_merge can, Bool.or_eq_true] at hparts
      rcases hparts with hparts | hparts
      · obtain ⟨j, hj, parts⟩ := ih hparts
        exact ⟨j, List.mem_append_left _ hj, parts⟩
      · exact ⟨next, by simp, hparts⟩

theorem canMerge_of_mem {as bs : List Item} (ha : Absorbed a as) (hb : Absorbed b bs)
    (can : a.canMerge b = true) {a' b' : Item} (ha' : a' ∈ as) (hb' : b' ∈ bs) :
    a'.canMerge b' = true := by
  have first := hb.canMerge_iff.1 can b' hb'
  rw [canMerge_comm] at first ⊢
  exact ha.canMerge_iff.1 first a' ha'

theorem exists_mem (h : Absorbed i block) : ∃ j, j ∈ block := by
  cases h with
  | alone i => exact ⟨i, by simp⟩
  | @next i next block h can => exact ⟨next, by simp⟩

end Absorbed

theorem absorbed_mergeFrom {current : Item} (h : Absorbed current block) (rest : List Item) :
    ∃ blocks, List.Forall₂ Absorbed (mergeFrom current rest) blocks ∧
      blocks.flatten = block ++ rest := by
  induction rest generalizing current block with
  | nil => exact ⟨[block], .cons h .nil, by simp⟩
  | cons next rest ih =>
      rw [mergeFrom]
      split
      · next can =>
        obtain ⟨blocks, each, whole⟩ := ih (h.next can)
        exact ⟨blocks, each, by simp [whole]⟩
      · obtain ⟨blocks, each, whole⟩ := ih (.alone next)
        exact ⟨block :: blocks, .cons h each, by simp [whole]⟩

theorem absorbed_mergeNeighbours (l : List Item) :
    ∃ blocks, List.Forall₂ Absorbed (mergeNeighbours l) blocks ∧ blocks.flatten = l := by
  cases l with
  | nil => exact ⟨[], .nil, rfl⟩
  | cons first rest => exact absorbed_mergeFrom (.alone first) rest

theorem exists_blocks {part merged : List Item} {blocks : List (List Item)}
    (h : List.Forall₂ Absorbed merged blocks) (hpart : part.Sublist merged) :
    ∃ chosen, List.Forall₂ Absorbed part chosen ∧ chosen.flatten.Sublist blocks.flatten := by
  induction hpart generalizing blocks with
  | slnil => exact ⟨[], .nil, List.nil_sublist _⟩
  | cons i _ ih =>
      obtain _ | ⟨_, each⟩ := h
      obtain ⟨chosen, own, inside⟩ := ih each
      exact ⟨chosen, own, inside.trans (List.sublist_append_right _ _)⟩
  | cons_cons i _ ih =>
      obtain _ | ⟨absorbed, each⟩ := h
      obtain ⟨chosen, own, inside⟩ := ih each
      exact ⟨_ :: chosen, .cons absorbed own, inside.append_left _⟩

theorem unparted_mergeNeighbours (h : Unparted l) : Unparted (mergeNeighbours l) := by
  intro a x b hpart key can
  obtain ⟨blocks, each, whole⟩ := absorbed_mergeNeighbours l
  obtain ⟨_, own, inside⟩ := exists_blocks each hpart
  obtain _ | ⟨ha, own⟩ := own
  obtain _ | ⟨hx, own⟩ := own
  obtain _ | ⟨hb, own⟩ := own
  cases own
  by_contra parting
  rw [Bool.not_eq_false] at parting
  obtain ⟨a', ha'⟩ := ha.exists_mem
  obtain ⟨x', hx', parts⟩ := hx.parts parting
  obtain ⟨b', hb'⟩ := hb.exists_mem
  have inner : [a', x', b'].Sublist l := by
    rw [← whole]
    have chosen := (List.singleton_sublist.2 ha').append
      ((List.singleton_sublist.2 hx').append ((List.singleton_sublist.2 hb').append (.refl [])))
    exact chosen.trans inside
  have key' : SameKey a' x' := (ha.sameKey a' ha').symm.trans (key.trans (hx.sameKey x' hx'))
  rw [h a' x' b' inner key' (ha.canMerge_of_mem hb can ha' hb')] at parts
  cases parts

theorem filter_sortImports (a : Item) (l : List Item) :
    (sortImports l).filter (SameKey a ·) = l.filter (SameKey a ·) := by
  refine filter_mergeSort (fun _ _ _ => Std.TransCmp.isLE_trans) isLE_total fun i j hi hj => ?_
  have equal := (of_decide_eq_true hi).symm.trans (of_decide_eq_true hj)
  rw [compareImports_eq_iff.2 equal]
  rfl

theorem unparted_sortImports (h : Unparted l) : Unparted (sortImports l) := by
  intro a x b hpart key can
  refine h a x b ?_ key can
  have keyed := (canMerge_iff.1 can).1
  have inner := hpart.filter (SameKey a ·)
  have whole : [a, x, b].filter (SameKey a ·) = [a, x, b] := by
    simp [SameKey.refl, key, keyed]
  rw [whole, filter_sortImports] at inner
  exact inner.trans List.filter_sublist

theorem keptApart_of_refused (h : a.canMerge b = false) : KeptApart a b := by
  refine ⟨⟨h, canMerge_comm b a ▸ h⟩, fun key plain plain' => ?_⟩
  by_contra free
  simp only [not_or, not_and, Bool.not_eq_true, Option.isSome_eq_false_iff,
    Option.isNone_iff_eq_none] at free
  have once : a.defaultName = none ∨ b.defaultName = none :=
    or_iff_not_imp_left.2 fun some => free.1 (Option.isSome_iff_ne_none.2 some)
  rw [canMerge_iff.2 ⟨key, plain, plain', once, free.2⟩] at h
  cases h

theorem fullyMerged_of_unparted
    (sorted : l.Pairwise fun a b => (compareImports a b).isLE = true)
    (apart : l.IsChain fun a b => a.canMerge b = false) (h : Unparted l) : FullyMerged l := by
  refine List.pairwise_iff_forall_sublist.2 fun {a b} hpart => keptApart_of_refused ?_
  by_contra can
  rw [Bool.not_eq_false] at can
  obtain ⟨x, between, key, parting⟩ := exists_parting sorted apart hpart can
  rw [h a x b between key can] at parting
  cases parting

theorem fullyMerged_sortNamed (h : FullyMerged l) :
    FullyMerged (l.map (Item.sortNamed order)) := by
  refine List.pairwise_map.2 (h.imp fun {a b} kept => keptApart_of_refused ?_)
  rw [canMerge_sortNamed]
  exact kept.refused.1

/-- Organizing a segment leaves two imports that can be merged only where another one of their key parts
them, and merges all that can be where none does. -/
theorem organizeSegment_fullyMerged (order : TypeOrder) (l : List Item) :
    (∀ a b, [a, b].Sublist (organizeSegment order l) → a.canMerge b = true →
      ∃ x, [a, x, b].Sublist (organizeSegment order l) ∧ SameKey a x ∧ x.parts = true) ∧
    (Unparted l → FullyMerged (organizeSegment order l)) := by
  constructor
  · intro a b hpart can
    exact exists_parting (sorted_organizeSegment order l) (apart_organizeSegment order l) hpart can
  · intro h
    have merged := fullyMerged_of_unparted (sorted_mergeNeighbours (pairwise_sorted l))
      (apart_mergeNeighbours _) (unparted_mergeNeighbours (unparted_sortImports h))
    exact fullyMerged_sortNamed merged

def sampleDefault : Item :=
  ⟨"import a from 'm';".toList, "m".toList, "'m'".toList, none, false, some "a".toList, none, [],
    false, true, false⟩

def sampleWhole : Item :=
  ⟨"import * as n from 'm';".toList, "m".toList, "'m'".toList, none, false, none,
    some "* as n".toList, [], false, true, false⟩

def sampleNamed : Item :=
  ⟨"import \x7b b \x7d from 'm';".toList, "m".toList, "'m'".toList, none, false, none, none,
    [⟨"b".toList, "b".toList, "b".toList, false, [], []⟩], false, true, false⟩

theorem organizeSegment_fullyMerged_sample :
    Unparted [sampleNamed, sampleDefault, sampleWhole] ∧
      FullyMerged (organizeSegment .last [sampleNamed, sampleDefault, sampleWhole]) := by
  have unparted : Unparted [sampleNamed, sampleDefault, sampleWhole] := by
    intro a x b h _ _
    obtain ⟨rfl, rfl, rfl⟩ := by simpa using h.eq_of_length rfl
    rfl
  exact ⟨unparted, (organizeSegment_fullyMerged .last _).2 unparted⟩

/-- Between the default name and the named binding of a module, the name of the whole module keeps them
apart. -/
theorem organizeSegment_parted :
    (∀ i ∈ [sampleDefault, sampleWhole, sampleNamed], i.frozen = false) ∧
      ¬ FullyMerged (organizeSegment .last [sampleDefault, sampleWhole, sampleNamed]) := by
  refine ⟨by decide, fun h => ?_⟩
  have settled : SegmentSettled .last [sampleDefault, sampleWhole, sampleNamed] :=
    ⟨by decide, by decide, by decide, by decide⟩
  rw [organizeSegment_eq_self settled] at h
  have refused := ((List.pairwise_cons.1 h).1 sampleNamed (by simp)).refused.1
  exact absurd refused (by decide)

end TidyImports.Import
