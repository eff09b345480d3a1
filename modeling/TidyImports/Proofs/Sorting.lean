import Mathlib.Data.List.Pairwise

/-! Sorting by a comparison. What is sorted is in order, and items that compare equal keep their places,
so whatever part of a list is made of such items is the same part of the sorted list. -/
namespace TidyImports

open Std

variable {α β : Type}

theorem transCmp_on (cmp : β → β → Ordering) [TransCmp cmp] (f : α → β) :
    TransCmp fun a b => cmp (f a) (f b) where
  eq_swap := OrientedCmp.eq_swap
  isLE_trans := TransCmp.isLE_trans

section Comparison

variable {cmp : α → α → Ordering} [TransCmp cmp]

theorem isLE_total (a b : α) : ((cmp a b).isLE || (cmp b a).isLE) = true := by
  have swap : cmp b a = (cmp a b).swap := OrientedCmp.eq_swap
  rw [swap]
  cases cmp a b <;> rfl

theorem pairwise_sorted (l : List α) :
    (l.mergeSort fun a b => (cmp a b).isLE).Pairwise fun a b => (cmp a b).isLE = true :=
  List.pairwise_mergeSort (fun _ _ _ => TransCmp.isLE_trans) isLE_total l

end Comparison

variable {le : α → α → Bool} {p : α → Bool} {l : List α}

/-- The items of a list that stand in any order behind each other form a sorted part of it, and sorting
keeps such a part in place. -/
theorem filter_mergeSort (trans : ∀ a b c, le a b = true → le b c = true → le a c = true)
    (total : ∀ a b, (le a b || le b a) = true)
    (equal : ∀ a b, p a = true → p b = true → le a b = true) :
    (l.mergeSort le).filter p = l.filter p := by
  have sorted : (l.filter p).Pairwise fun a b => le a b = true :=
    List.pairwise_of_forall_mem_list fun a ha b hb =>
      equal a b (List.mem_filter.1 ha).2 (List.mem_filter.1 hb).2
  have kept : (l.filter p).Sublist (l.mergeSort le) :=
    List.sublist_mergeSort trans total sorted List.filter_sublist
  have still := kept.filter p
  simp only [List.filter_filter, Bool.and_self] at still
  exact (still.eq_of_length ((List.mergeSort_perm l le).filter p).length_eq.symm).symm

end TidyImports
