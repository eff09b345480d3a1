import TidyImports.Proofs.Import.Comparing

/-! Which imports one declaration can say. Two imports go together whichever comes first, and an import
that took in another one goes together with exactly what both of them go together with. -/
namespace TidyImports.Import

variable {a b c : Item}

def SameKey (a b : Item) : Prop := a.module = b.module ∧ a.isType = b.isType

instance : DecidableRel SameKey := fun a b => inferInstanceAs (Decidable (a.module = b.module ∧ _))

namespace SameKey

theorem refl (a : Item) : SameKey a a := ⟨rfl, rfl⟩

theorem symm (h : SameKey a b) : SameKey b a := ⟨h.1.symm, h.2.symm⟩

theorem trans (h : SameKey a b) (k : SameKey b c) : SameKey a c := ⟨h.1.trans k.1, h.2.trans k.2⟩

end SameKey

theorem compareImports_congr {a b c d : Item} (h : SameKey a c) (k : SameKey b d) :
    compareImports a b = compareImports c d := by
  rw [compareImports, compareImports, h.1, h.2, k.1, k.2]

theorem compareImports_eq_iff : compareImports a b = .eq ↔ SameKey a b := by
  rw [compareImports, compareModules, Ordering.then_eq_eq, Std.LawfulEqCmp.compare_eq_iff_eq,
    Std.LawfulEqCmp.compare_eq_iff_eq, SameKey]

structure Item.Plain (i : Item) : Prop where
  thawed : i.frozen = false
  noNamespace : i.namespaceName = none
  noAttributes : i.attributes = none

theorem Item.Plain.merge (h : a.Plain) : (a.merge b).Plain :=
  ⟨h.thawed, h.noNamespace, h.noAttributes⟩

theorem canMerge_iff : a.canMerge b = true ↔ SameKey a b ∧ a.Plain ∧ b.Plain ∧
    (a.defaultName = none ∨ b.defaultName = none) ∧
    (a.isType = true → mixesForms a b = false) := by
  have plain (i : Item) : i.Plain ↔
      i.frozen = false ∧ i.namespaceName = none ∧ i.attributes = none :=
    ⟨fun h => ⟨h.1, h.2, h.3⟩, fun h => ⟨h.1, h.2.1, h.2.2⟩⟩
  have once : (a.defaultName.isSome && b.defaultName.isSome) = false ↔
      a.defaultName = none ∨ b.defaultName = none := by
    rw [Bool.and_eq_false_iff, Option.isSome_eq_false_iff, Option.isSome_eq_false_iff,
      Option.isNone_iff_eq_none, Option.isNone_iff_eq_none]
  simp only [plain, SameKey, Item.canMerge, Bool.and_eq_true, Bool.not_eq_true', beq_iff_eq,
    Option.isNone_iff_eq_none, once, Bool.and_eq_false_imp]
  grind

theorem mixesForms_comm (a b : Item) : mixesForms a b = mixesForms b a := Bool.or_comm _ _

theorem canMerge_comm (a b : Item) : a.canMerge b = b.canMerge a := by
  have one {a b : Item} (h : a.canMerge b = true) : b.canMerge a = true := by
    obtain ⟨key, plain, plain', once, forms⟩ := canMerge_iff.1 h
    refine canMerge_iff.2 ⟨key.symm, plain', plain, once.symm, fun types => ?_⟩
    rw [mixesForms_comm]
    exact forms (key.2.trans types)
  exact Bool.eq_iff_iff.2 ⟨one, one⟩

theorem addBinding_ne_nil (binding : NamedBinding) (named : List NamedBinding) :
    addBinding binding named ≠ [] := by
  cases named with
  | nil => simp [addBinding]
  | cons other rest =>
      rw [addBinding]
      split <;> simp

theorem addBindings_isEmpty (more named : List NamedBinding) :
    (more.foldl (fun named binding => addBinding binding named) named).isEmpty =
      (named.isEmpty && more.isEmpty) := by
  induction more generalizing named with
  | nil => exact (Bool.and_true _).symm
  | cons binding more ih =>
      have added := List.isEmpty_eq_false_iff.2 (addBinding_ne_nil binding named)
      rw [List.foldl_cons, ih, added, List.isEmpty_cons, Bool.false_and, Bool.and_false]

theorem merge_named_isEmpty (a b : Item) :
    (a.merge b).named.isEmpty = (a.named.isEmpty && b.named.isEmpty) :=
  addBindings_isEmpty b.named a.named

theorem mixesForms_merge (a b c : Item) :
    mixesForms a (b.merge c) = (mixesForms a b || mixesForms a c) := by
  have default : (b.merge c).defaultName.isSome = (b.defaultName.isSome || c.defaultName.isSome) :=
    Option.isSome_or
  rw [mixesForms, mixesForms, mixesForms, merge_named_isEmpty, default, Bool.not_and,
    Bool.and_or_distrib_left, Bool.and_or_distrib_right]
  ac_rfl

theorem canMerge_merge (h : b.canMerge c = true) :
    a.canMerge (b.merge c) = (a.canMerge b && a.canMerge c) := by
  obtain ⟨key, plain, plain', -, -⟩ := canMerge_iff.1 h
  have header : SameKey (b.merge c) b := ⟨rfl, rfl⟩
  have default : (b.merge c).defaultName = none ↔ b.defaultName = none ∧ c.defaultName = none :=
    Option.or_eq_none_iff
  rw [Bool.eq_iff_iff, Bool.and_eq_true, canMerge_iff, canMerge_iff, canMerge_iff, default,
    mixesForms_merge, Bool.or_eq_false_iff]
  constructor
  · rintro ⟨same, first, _, free, forms⟩
    exact ⟨⟨same.trans header, first, plain, free.imp_right And.left, fun types => (forms types).1⟩,
      (same.trans header).trans key, first, plain', free.imp_right And.right,
      fun types => (forms types).2⟩
  · rintro ⟨⟨same, first, _, free, forms⟩, -, -, -, free', forms'⟩
    refine ⟨same, first, plain.merge, ?_, fun types => ⟨forms types, forms' types⟩⟩
    rw [or_and_left]
    exact ⟨free, free'⟩

end TidyImports.Import
