import TidyImports.Proofs.Import.Combining
import TidyImports.Proofs.Import.Gathering

/-! Sorting and merging keep what imports bind. A binding that stands alone, that is a default name or
the name of a whole module, is kept as often as it occurs; named bindings are moved and joined; the
literal of an import is that of one of the same module. Each step of the organizer keeps these, and so
does the whole. -/
namespace TidyImports.Import

def Item.header (i : Item) : Header := ⟨i.module, i.isType, i.attributes⟩

def Item.alone (i : Item) : List Binding :=
  (i.defaultName.toList.map fun name => ⟨i.header, .default name⟩) ++
    i.namespaceName.toList.map fun name => ⟨i.header, .whole name⟩

def Item.occurrences (i : Item) : List Occurrence := i.named.map fun b => ⟨i.header, b⟩

def Item.bindings (i : Item) : List Binding := i.alone ++ i.occurrences.map Occurrence.bound

/-- The imports of a list bind the same in another one. -/
structure Keeps (ins outs : List Item) : Prop where
  alone : (outs.flatMap Item.alone).Perm (ins.flatMap Item.alone)
  joined : Joins (ins.flatMap Item.occurrences) (outs.flatMap Item.occurrences)
  origin : ∀ o ∈ outs, ∃ i ∈ ins,
    i.module = o.module ∧ i.source = o.source ∧ i.written = o.written ∧ i.frozen = o.frozen

namespace Keeps

variable {xs ys zs us : List Item} {i : Item}

theorem refl (xs : List Item) : Keeps xs xs :=
  ⟨.refl _, .refl, fun o ho => ⟨o, ho, rfl, rfl, rfl, rfl⟩⟩

theorem trans (h : Keeps xs ys) (k : Keeps ys zs) : Keeps xs zs := by
  refine ⟨k.alone.trans h.alone, h.joined.trans k.joined, fun o ho => ?_⟩
  obtain ⟨j, hj, module, source, written, frozen⟩ := k.origin o ho
  obtain ⟨i, hi, module', source', written', frozen'⟩ := h.origin j hj
  exact ⟨i, hi, module'.trans module, source'.trans source, written'.trans written,
    frozen'.trans frozen⟩

theorem of_perm (h : xs.Perm ys) : Keeps xs ys :=
  ⟨(h.flatMap_right _).symm, .perm .refl (h.flatMap_right _),
    fun o ho => ⟨o, h.mem_iff.2 ho, rfl, rfl, rfl, rfl⟩⟩

theorem append (h : Keeps xs ys) (k : Keeps zs us) : Keeps (xs ++ zs) (ys ++ us) := by
  refine ⟨?_, ?_, fun o ho => ?_⟩
  · simp only [List.flatMap_append]
    exact h.alone.append k.alone
  · simp only [List.flatMap_append]
    exact h.joined.append k.joined
  · rcases List.mem_append.1 ho with ho | ho
    · obtain ⟨i, hi, same⟩ := h.origin o ho
      exact ⟨i, List.mem_append_left _ hi, same⟩
    · obtain ⟨i, hi, same⟩ := k.origin o ho
      exact ⟨i, List.mem_append_right _ hi, same⟩

theorem cons (i : Item) (h : Keeps xs ys) : Keeps (i :: xs) (i :: ys) :=
  (refl [i]).append h

end Keeps

theorem joins_addBinding (header : Header) (binding : NamedBinding) (named : List NamedBinding) :
    Joins ((named ++ [binding]).map (Occurrence.mk header))
      ((addBinding binding named).map (Occurrence.mk header)) := by
  -- By induction on the bindings that are there: the new one is joined to the first that says the
  -- same, or stands behind all of them.
  induction named with
  | nil => exact .refl
  | cons other rest ih =>
      simp only [addBinding]
      split
      · next same =>
        have moved : ((other :: rest ++ [binding]).map (Occurrence.mk header)).Perm
            ((other :: binding :: rest).map (Occurrence.mk header)) :=
          (List.Perm.cons other List.perm_append_comm).map _
        have bound : (Occurrence.mk header other).bound = (Occurrence.mk header binding).bound := by
          simp only [NamedBinding.same, Bool.and_eq_true, beq_iff_eq] at same
          simp only [Occurrence.bound, same]
        exact (Joins.refl.perm moved).join bound
      · exact ih.append_left [⟨header, other⟩]

theorem joins_addBindings (header : Header) (named more : List NamedBinding) :
    Joins ((named ++ more).map (Occurrence.mk header))
      ((more.foldl (fun named binding => addBinding binding named) named).map
        (Occurrence.mk header)) := by
  induction more generalizing named with
  | nil => simpa using Joins.refl
  | cons binding more ih =>
      have step := (joins_addBinding header binding named).append_right
        (more.map (Occurrence.mk header))
      rw [← List.map_append, ← List.map_append, List.append_assoc] at step
      exact step.trans (ih (addBinding binding named))

structure Mergeable (a b : Item) : Prop where
  header : b.header = a.header
  noNamespace : a.namespaceName = none ∧ b.namespaceName = none
  oneDefault : a.defaultName = none ∨ b.defaultName = none
  thawed : a.frozen = false ∧ b.frozen = false

theorem mergeable_of_canMerge {a b : Item} (h : a.canMerge b = true) : Mergeable a b := by
  obtain ⟨key, plain, plain', once, -⟩ := canMerge_iff.1 h
  refine ⟨?_, ⟨plain.noNamespace, plain'.noNamespace⟩, once, ⟨plain.thawed, plain'.thawed⟩⟩
  rw [Item.header, Item.header, key.1, key.2, plain.noAttributes, plain'.noAttributes]

theorem Mergeable.alone_merge {a b : Item} (h : Mergeable a b) :
    (a.merge b).alone = a.alone ++ b.alone := by
  have header : (a.merge b).header = a.header := rfl
  have default : (a.merge b).defaultName = a.defaultName.or b.defaultName := rfl
  have whole : (a.merge b).namespaceName = none := h.noNamespace.1
  simp only [Item.alone, header, h.header, default, whole, h.noNamespace.1, h.noNamespace.2,
    Option.toList_none, List.map_nil, List.append_nil]
  rcases h.oneDefault with hnone | hnone
  · rw [hnone, Option.none_or, Option.toList_none, List.map_nil, List.nil_append]
  · rw [hnone, Option.or_none, Option.toList_none, List.map_nil, List.append_nil]

theorem Mergeable.keeps {a b : Item} (h : Mergeable a b) : Keeps [a, b] [a.merge b] := by
  refine ⟨?_, ?_, fun o ho => ⟨a, by simp, ?_⟩⟩
  · simp only [List.flatMap_cons, List.flatMap_nil, List.append_nil]
    rw [h.alone_merge]
  · have joined := joins_addBindings a.header a.named b.named
    simp only [List.flatMap_cons, List.flatMap_nil, List.append_nil, Item.occurrences, h.header]
    rw [← List.map_append]
    exact joined
  · rw [List.mem_singleton.1 ho]
    exact ⟨rfl, rfl, rfl, rfl⟩

theorem keeps_mergeFrom (current : Item) (rest : List Item) :
    Keeps (current :: rest) (mergeFrom current rest) := by
  -- By induction on the imports that follow the current one: it takes in the next one, or is
  -- done.
  induction rest generalizing current with
  | nil => exact .refl _
  | cons next rest ih =>
      simp only [mergeFrom]
      split
      · next h =>
        have merged := (mergeable_of_canMerge h).keeps.append (.refl rest)
        exact merged.trans (ih (current.merge next))
      · exact (ih next).cons current

theorem keeps_mergeNeighbours (imports : List Item) :
    Keeps imports (mergeNeighbours imports) := by
  cases imports with
  | nil => exact .refl _
  | cons first rest => exact keeps_mergeFrom first rest

theorem keeps_sortNamed (order : TypeOrder) (i : Item) : Keeps [i] [i.sortNamed order] := by
  have sorted : (i.sortNamed order).named.Perm i.named := List.mergeSort_perm _ _
  refine ⟨.refl _, ?_, fun o ho => ⟨i, by simp, ?_⟩⟩
  · simp only [List.flatMap_cons, List.flatMap_nil, List.append_nil]
    exact .perm .refl (sorted.symm.map _)
  · rw [List.mem_singleton.1 ho]
    exact ⟨rfl, rfl, rfl, rfl⟩

theorem keeps_map_sortNamed (order : TypeOrder) (imports : List Item) :
    Keeps imports (imports.map (Item.sortNamed order)) := by
  induction imports with
  | nil => exact .refl _
  | cons i imports ih => exact (keeps_sortNamed order i).append ih

theorem keeps_organizeSegment (order : TypeOrder) (imports : List Item) :
    Keeps imports (organizeSegment order imports) := by
  have sorted : Keeps imports (sortImports imports) := .of_perm (List.mergeSort_perm _ _).symm
  have merged := keeps_mergeNeighbours (sortImports imports)
  exact (sorted.trans merged).trans (keeps_map_sortNamed order _)

end TidyImports.Import
