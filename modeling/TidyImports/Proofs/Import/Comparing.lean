import TidyImports.Import.Organize
import TidyImports.Proofs.Sorting

/-! The comparisons of imports and bindings are orders, put together from orders of texts and flags. Texts
and flags that compare equal are equal, so imports that do have one module and one kind. -/
namespace TidyImports.Import

open Std

theorem compareText_eq (s t : Text) :
    compareText s t = List.compareLex (compareOn Char.toNat) s t := by
  induction s generalizing t with
  | nil => cases t <;> rfl
  | cons a s ih =>
      cases t with
      | nil => rfl
      | cons b t => rw [compareText, ih, List.compareLex_cons_cons, compareOn]

instance : TransCmp compareText := by
  have same : compareText = List.compareLex (compareOn Char.toNat) := by
    funext s t
    exact compareText_eq s t
  rw [same]
  infer_instance

instance : LawfulEqCmp compareText where
  eq_of_compare {s t} h := by
    have : LawfulEqCmp (compareOn Char.toNat) :=
      ⟨fun h => Char.toNat_inj.1 (LawfulEqCmp.eq_of_compare h)⟩
    rw [compareText_eq] at h
    exact LawfulEqCmp.eq_of_compare h

instance : TransCmp compareFolded :=
  have := transCmp_on compareText Text.lower
  inferInstanceAs (TransCmp (compareLex (fun a b : Text => compareText a.lower b.lower) compareText))

instance : LawfulEqCmp compareFolded where
  eq_of_compare h := LawfulEqCmp.eq_of_compare (Ordering.then_eq_eq.1 h).2

instance : TransCmp compareFlag := inferInstanceAs (TransCmp (compareOn Bool.toNat))

instance : LawfulEqCmp compareFlag where
  eq_of_compare {a b} := by cases a <;> cases b <;> decide

instance : TransCmp compareImports :=
  have := transCmp_on compareFolded Item.module
  have := transCmp_on compareFlag Item.isType
  inferInstanceAs (TransCmp (compareLex (fun a b : Item => compareFolded a.module b.module)
    fun a b => compareFlag a.isType b.isType))

instance (order : TypeOrder) : TransCmp (compareTypes order) :=
  match order with
  | .last => inferInstanceAs (TransCmp compareFlag)
  | .first => inferInstanceAs (TransCmp fun a b => compareFlag b a)
  | .inline => { eq_swap := rfl, isLE_trans := fun _ _ => rfl }

instance (order : TypeOrder) : TransCmp (compareBindings order) :=
  have := transCmp_on (compareTypes order) NamedBinding.isType
  have := transCmp_on compareFolded NamedBinding.imported
  have := transCmp_on compareFolded NamedBinding.name
  inferInstanceAs (TransCmp (compareLex (compareLex
    (fun a b : NamedBinding => compareTypes order a.isType b.isType)
    fun a b => compareFolded a.imported b.imported) fun a b => compareFolded a.name b.name))

end TidyImports.Import
