import Mathlib.Data.List.Chain
import TidyImports.Proofs.Import.Combining

/-! The form of organized imports. A segment is settled when it is sorted, when no two neighbours can be
merged and when the named bindings of each import are sorted; the segments of a group are divided by
frozen imports. Organizing yields this form and leaves what has it as it is. -/
namespace TidyImports.Import

variable {newline : Text} {order : TypeOrder} {i : Item} {l : List Item}

def Item.divides (i : Item) : Bool := i.frozen && i.isEmpty

structure SegmentSettled (order : TypeOrder) (l : List Item) : Prop where
  sorted : l.Pairwise fun a b => (compareImports a b).isLE = true
  apart : l.IsChain fun a b => a.canMerge b = false
  named : ∀ i ∈ l, i.named.Pairwise fun a b => (compareBindings order a b).isLE = true
  whole : ∀ i ∈ l, i.divides = false

inductive GroupSettled (order : TypeOrder) : List Item → Prop
  | segment {l : List Item} (h : SegmentSettled order l) : GroupSettled order l
  | barrier {l more : List Item} {i : Item} (h : SegmentSettled order l)
    (divides : i.divides = true) (hmore : GroupSettled order more) :
    GroupSettled order (l ++ i :: more)

theorem sortNamed_eq_self
    (h : i.named.Pairwise fun a b => (compareBindings order a b).isLE = true) :
    i.sortNamed order = i := by
  have sorted : sortBindings order i.named = i.named := List.mergeSort_of_pairwise h
  simp [Item.sortNamed, sorted]

theorem mergeFrom_eq_self {current : Item} {rest : List Item}
    (h : (current :: rest).IsChain fun a b => a.canMerge b = false) :
    mergeFrom current rest = current :: rest := by
  induction rest generalizing current with
  | nil => rfl
  | cons next rest ih =>
      obtain ⟨first, others⟩ := List.isChain_cons_cons.1 h
      rw [mergeFrom, first, ih others]
      rfl

theorem organizeSegment_of_sorted (sorted : l.Pairwise fun a b => (compareImports a b).isLE = true)
    (named : ∀ i ∈ mergeNeighbours l,
      i.named.Pairwise fun a b => (compareBindings order a b).isLE = true) :
    organizeSegment order l = mergeNeighbours l := by
  have inOrder : sortImports l = l := List.mergeSort_of_pairwise sorted
  have kept : (mergeNeighbours l).map (Item.sortNamed order) = (mergeNeighbours l).map id :=
    List.map_congr_left fun i hi => sortNamed_eq_self (named i hi)
  rw [organizeSegment, inOrder, kept, List.map_id]

theorem organizeSegment_eq_self (h : SegmentSettled order l) : organizeSegment order l = l := by
  have merged : mergeNeighbours l = l := by
    cases l with
    | nil => rfl
    | cons first rest => exact mergeFrom_eq_self h.apart
  rw [organizeSegment_of_sorted h.sorted (merged.symm ▸ h.named), merged]

theorem organizeFrom_append (order : TypeOrder) (segment rest : List Item)
    (h : ∀ i ∈ l, i.divides = false) :
    organizeFrom order segment (l ++ rest) = organizeFrom order (segment ++ l) rest := by
  induction l generalizing segment with
  | nil => rw [List.nil_append, List.append_nil]
  | cons i l ih =>
      obtain ⟨whole, h⟩ := List.forall_mem_cons.1 h
      rw [List.cons_append, organizeFrom]
      rw [Item.divides] at whole
      rw [whole]
      simp only [Bool.false_eq_true, if_false]
      rw [ih _ h, List.append_assoc, List.singleton_append]

theorem organizeGroup_eq_organizeSegment (order : TypeOrder) (h : ∀ i ∈ l, i.divides = false) :
    organizeGroup order l = organizeSegment order l := by
  have step := organizeFrom_append order [] [] h
  rwa [List.append_nil, List.nil_append, organizeFrom] at step

theorem organizeGroup_eq_self (h : GroupSettled order l) : organizeGroup order l = l := by
  induction h with
  | segment h => rw [organizeGroup_eq_organizeSegment order h.whole, organizeSegment_eq_self h]
  | barrier h divides _ ih =>
      rw [organizeGroup] at ih ⊢
      rw [organizeFrom_append order [] _ h.whole, List.nil_append, organizeFrom]
      rw [Item.divides] at divides
      rw [divides, if_pos rfl, organizeSegment_eq_self h, ih]

theorem sameKey_of_mem_mergeFrom (current : Item) (rest : List Item) :
    ∀ i ∈ mergeFrom current rest, ∃ j ∈ current :: rest, SameKey i j := by
  induction rest generalizing current with
  | nil => exact fun i hi => ⟨i, hi, .refl i⟩
  | cons next rest ih =>
      intro i hi
      rw [mergeFrom] at hi
      split at hi
      · obtain ⟨j, hj, same⟩ := ih _ i hi
        rcases List.mem_cons.1 hj with rfl | hj
        · exact ⟨current, by simp, same⟩
        · exact ⟨j, by simp [hj], same⟩
      · rcases List.mem_cons.1 hi with rfl | hi
        · exact ⟨i, by simp, .refl i⟩
        · obtain ⟨j, hj, same⟩ := ih next i hi
          exact ⟨j, List.mem_cons_of_mem _ hj, same⟩

theorem sorted_mergeFrom {current : Item} {rest : List Item}
    (h : (current :: rest).Pairwise fun a b => (compareImports a b).isLE = true) :
    (mergeFrom current rest).Pairwise fun a b => (compareImports a b).isLE = true := by
  induction rest generalizing current with
  | nil => exact List.pairwise_singleton _ _
  | cons next rest ih =>
      obtain ⟨first, others⟩ := List.pairwise_cons.1 h
      rw [mergeFrom]
      split
      · refine ih (List.pairwise_cons.2 ⟨fun j hj => ?_, (List.pairwise_cons.1 others).2⟩)
        have key : SameKey (current.merge next) current := ⟨rfl, rfl⟩
        rw [compareImports_congr key (.refl j)]
        exact first j (List.mem_cons_of_mem _ hj)
      · refine List.pairwise_cons.2 ⟨fun i hi => ?_, ih others⟩
        obtain ⟨j, hj, key⟩ := sameKey_of_mem_mergeFrom next rest i hi
        rw [compareImports_congr (.refl current) key]
        exact first j hj

theorem mergeFrom_eq_cons (current : Item) (rest : List Item) :
    ∃ first others, mergeFrom current rest = first :: others ∧
      ∀ i : Item, i.canMerge current = false → i.canMerge first = false := by
  induction rest generalizing current with
  | nil => exact ⟨current, [], rfl, fun _ h => h⟩
  | cons next rest ih =>
      rw [mergeFrom]
      split
      · next can =>
        obtain ⟨first, others, heq, keep⟩ := ih (current.merge next)
        refine ⟨first, others, heq, fun i h => keep i ?_⟩
        rw [canMerge_merge can, h, Bool.false_and]
      · exact ⟨current, _, rfl, fun _ h => h⟩

theorem apart_mergeFrom (current : Item) (rest : List Item) :
    (mergeFrom current rest).IsChain fun a b => a.canMerge b = false := by
  induction rest generalizing current with
  | nil => exact .singleton current
  | cons next rest ih =>
      rw [mergeFrom]
      split
      · exact ih _
      · next h =>
        obtain ⟨first, others, heq, keep⟩ := mergeFrom_eq_cons next rest
        have chain := ih next
        rw [heq] at chain ⊢
        exact List.isChain_cons_cons.2 ⟨keep current (by simpa using h), chain⟩

theorem whole_mergeFrom {current : Item} {rest : List Item}
    (h : ∀ i ∈ current :: rest, i.divides = false) :
    ∀ i ∈ mergeFrom current rest, i.divides = false := by
  induction rest generalizing current with
  | nil => exact h
  | cons next rest ih =>
      obtain ⟨first, others⟩ := List.forall_mem_cons.1 h
      rw [mergeFrom]
      split
      · next hmerge =>
        refine ih (List.forall_mem_cons.2 ⟨?_, (List.forall_mem_cons.1 others).2⟩)
        have thawed : (current.merge next).frozen = false := (canMerge_iff.1 hmerge).2.1.thawed
        rw [Item.divides, thawed, Bool.false_and]
      · exact List.forall_mem_cons.2 ⟨first, ih others⟩

theorem sortNamed_isEmpty (order : TypeOrder) (i : Item) :
    (i.sortNamed order).named.isEmpty = i.named.isEmpty := by
  have sorted : (i.sortNamed order).named.Perm i.named := List.mergeSort_perm _ _
  cases hi : i.named with
  | nil => rw [hi] at sorted; rw [List.perm_nil.1 sorted]
  | cons b named =>
      rw [hi] at sorted
      cases hs : (i.sortNamed order).named with
      | nil => rw [hs] at sorted; exact absurd (List.nil_perm.1 sorted) (by simp)
      | cons c more => rfl

theorem canMerge_sortNamed (order : TypeOrder) (a b : Item) :
    (a.sortNamed order).canMerge (b.sortNamed order) = a.canMerge b := by
  simp only [Item.canMerge, mixesForms, sortNamed_isEmpty]
  rfl

theorem divides_sortNamed (order : TypeOrder) (i : Item) :
    (i.sortNamed order).divides = i.divides := by
  simp only [Item.divides, Item.isEmpty, sortNamed_isEmpty]
  rfl

theorem sorted_mergeNeighbours (h : l.Pairwise fun a b => (compareImports a b).isLE = true) :
    (mergeNeighbours l).Pairwise fun a b => (compareImports a b).isLE = true := by
  cases l with
  | nil => exact .nil
  | cons first rest => exact sorted_mergeFrom h

theorem apart_mergeNeighbours (l : List Item) :
    (mergeNeighbours l).IsChain fun a b => a.canMerge b = false := by
  cases l with
  | nil => exact .nil
  | cons first rest => exact apart_mergeFrom first rest

theorem whole_mergeNeighbours (h : ∀ i ∈ l, i.divides = false) :
    ∀ i ∈ mergeNeighbours l, i.divides = false := by
  cases l with
  | nil => exact h
  | cons first rest => exact whole_mergeFrom h

theorem sorted_organizeSegment (order : TypeOrder) (l : List Item) :
    (organizeSegment order l).Pairwise fun a b => (compareImports a b).isLE = true :=
  List.pairwise_map.2 (sorted_mergeNeighbours (pairwise_sorted l))

theorem apart_organizeSegment (order : TypeOrder) (l : List Item) :
    (organizeSegment order l).IsChain fun a b => a.canMerge b = false := by
  refine (List.isChain_map _).2 ((apart_mergeNeighbours (sortImports l)).imp fun a b hab => ?_)
  rw [canMerge_sortNamed, hab]

theorem segmentSettled_organizeSegment (h : ∀ i ∈ l, i.divides = false) :
    SegmentSettled order (organizeSegment order l) := by
  refine ⟨sorted_organizeSegment order l, apart_organizeSegment order l, ?_, ?_⟩
  · exact List.forall_mem_map.2 fun i _ => pairwise_sorted i.named
  · have perm : (sortImports l).Perm l := List.mergeSort_perm _ _
    refine List.forall_mem_map.2 fun i hi => ?_
    rw [divides_sortNamed]
    exact whole_mergeNeighbours (fun j hj => h j (perm.mem_iff.1 hj)) i hi

theorem groupSettled_organizeFrom (order : TypeOrder) {segment : List Item}
    (h : ∀ i ∈ segment, i.divides = false) (imports : List Item) :
    GroupSettled order (organizeFrom order segment imports) := by
  -- By induction on the imports that are left: an import that divides ends the segment.
  induction imports generalizing segment with
  | nil => exact .segment (segmentSettled_organizeSegment h)
  | cons next rest ih =>
      rw [organizeFrom]
      split
      · next divides =>
        exact .barrier (segmentSettled_organizeSegment h) divides (ih (by simp))
      · next whole =>
        have undivided : next.divides = false := by
          rw [Item.divides]
          exact eq_false_of_ne_true whole
        exact ih (List.forall_mem_append.2 ⟨h, by simpa using undivided⟩)

theorem groupSettled_organizeGroup (order : TypeOrder) (imports : List Item) :
    GroupSettled order (organizeGroup order imports) :=
  groupSettled_organizeFrom order (by simp) imports

theorem organizeGroup_eq_self_iff : organizeGroup order l = l ↔ GroupSettled order l := by
  constructor
  · intro h
    rw [← h]
    exact groupSettled_organizeGroup order l
  · exact organizeGroup_eq_self

/-- Organizing a group settles it, so doing so again changes nothing. -/
theorem organizeGroup_organizeGroup (order : TypeOrder) (imports : List Item) :
    organizeGroup order (organizeGroup order imports) = organizeGroup order imports :=
  organizeGroup_eq_self_iff.2 (groupSettled_organizeGroup order imports)

def Item.printed (newline : Text) (i : Item) : Item :=
  { i with written := i.render newline, modified := false }

theorem segmentSettled_printed (h : SegmentSettled order l) :
    SegmentSettled order (l.map (Item.printed newline)) :=
  ⟨List.pairwise_map.2 h.sorted, (List.isChain_map _).2 h.apart,
    List.forall_mem_map.2 h.named, List.forall_mem_map.2 h.whole⟩

theorem groupSettled_printed (h : GroupSettled order l) :
    GroupSettled order (l.map (Item.printed newline)) := by
  induction h with
  | segment h => exact .segment (segmentSettled_printed h)
  | barrier h divides _ ih =>
      rw [List.map_append, List.map_cons]
      exact .barrier (segmentSettled_printed h) divides ih

end TidyImports.Import
