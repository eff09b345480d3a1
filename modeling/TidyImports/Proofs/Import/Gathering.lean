import Mathlib.Data.List.Perm.Basic
import TidyImports.Import.Organize

/-! What imports bind, and how bindings are joined. A binding is known by the header of its
declaration and by its form. Named bindings that say the same may be joined into one, which takes over
the comments of all; a list that arises by joining and moving gathers every item of the list that it
arises from exactly once. -/
namespace TidyImports.Import

structure Header where
  module : Text
  isType : Bool
  attributes : Option Text
  deriving DecidableEq, Repr

inductive Form
  | default (name : Text)
  | whole (name : Text)
  | named (imported name : Text) (isType : Bool)
  deriving DecidableEq, Repr

structure Binding where
  header : Header
  form : Form
  deriving DecidableEq, Repr

/-- A named binding under the header of its declaration, with the comments that belong to it. -/
structure Occurrence where
  header : Header
  binding : NamedBinding
  deriving DecidableEq, Repr

namespace Occurrence

def bound (o : Occurrence) : Binding :=
  ⟨o.header, .named o.binding.imported o.binding.name o.binding.isType⟩

/-- The first of two occurrences takes over the comments of the second one. -/
def join (a b : Occurrence) : Occurrence :=
  { a with binding :=
    { a.binding with
      leading := a.binding.leading ++ b.binding.leading
      trailing := a.binding.trailing ++ b.binding.trailing } }

end Occurrence

/-- A list arises from another one by moving items and by joining two that bind the same. -/
inductive Joins (start : List Occurrence) : List Occurrence → Prop
  | refl : Joins start start
  | perm {xs ys : List Occurrence} (h : Joins start xs) (moved : xs.Perm ys) : Joins start ys
  | join {a b : Occurrence} {xs : List Occurrence} (h : Joins start (a :: b :: xs))
    (same : a.bound = b.bound) : Joins start (a.join b :: xs)

namespace Joins

variable {xs ys zs us : List Occurrence}

theorem trans (h : Joins xs ys) (k : Joins ys zs) : Joins xs zs := by
  induction k with
  | refl => exact h
  | perm _ moved ih => exact ih.perm moved
  | join _ same ih => exact ih.join same

theorem append_right (h : Joins xs ys) (zs : List Occurrence) : Joins (xs ++ zs) (ys ++ zs) := by
  induction h with
  | refl => exact .refl
  | perm _ moved ih => exact ih.perm (moved.append_right zs)
  | join _ same ih => exact ih.join same

theorem append_left (h : Joins xs ys) (zs : List Occurrence) : Joins (zs ++ xs) (zs ++ ys) := by
  have swap : Joins (zs ++ xs) (xs ++ zs) := refl.perm List.perm_append_comm
  have back : Joins (ys ++ zs) (zs ++ ys) := refl.perm List.perm_append_comm
  exact (swap.trans (h.append_right zs)).trans back

theorem append (h : Joins xs ys) (k : Joins zs us) : Joins (xs ++ zs) (ys ++ us) :=
  (h.append_right zs).trans (k.append_left ys)

end Joins

/-- An occurrence stands for all occurrences of a list: it is written like the first of them, binds
what each of them binds, and has all their comments in order. -/
structure Gathered (o : Occurrence) (part : List Occurrence) : Prop where
  written : part.head?.map (·.binding.text) = some o.binding.text
  same : ∀ p ∈ part, p.bound = o.bound
  leading : o.binding.leading = part.flatMap (·.binding.leading)
  trailing : o.binding.trailing = part.flatMap (·.binding.trailing)

/-- Each occurrence of the first list stands for a part of the second one, and the parts make up the
second list. -/
def Gathers (outs ins : List Occurrence) : Prop :=
  ∃ parts, List.Forall₂ Gathered outs parts ∧ ins.Perm parts.flatten

theorem gathered_singleton (o : Occurrence) : Gathered o [o] :=
  ⟨rfl, by simp, by simp, by simp⟩

theorem Gathered.join {a b : Occurrence} {part more : List Occurrence} (ha : Gathered a part)
    (hb : Gathered b more) (same : a.bound = b.bound) : Gathered (a.join b) (part ++ more) := by
  have bound : (a.join b).bound = a.bound := rfl
  refine ⟨?_, ?_, ?_, ?_⟩
  · cases part with
    | nil => exact absurd ha.written (by simp)
    | cons p part => exact ha.written
  · rw [bound]
    refine List.forall_mem_append.2 ⟨ha.same, fun p hp => ?_⟩
    rw [hb.same p hp, same]
  · rw [List.flatMap_append, ← ha.leading, ← hb.leading]
    rfl
  · rw [List.flatMap_append, ← ha.trailing, ← hb.trailing]
    rfl

theorem gathers_of_joins {ins outs : List Occurrence} (h : Joins ins outs) : Gathers outs ins := by
  -- By induction on how the list arises: the parts are moved with their occurrences, and put
  -- together where two occurrences are joined.
  induction h with
  | refl =>
      refine ⟨ins.map fun o => [o], ?_, ?_⟩
      · exact List.forall₂_map_right_iff.2 (List.forall₂_same.2 fun o _ => gathered_singleton o)
      · rw [← List.flatMap_def, List.flatMap_singleton']
  | perm _ moved ih =>
      obtain ⟨parts, each, whole⟩ := ih
      obtain ⟨parts', each', moved'⟩ := List.perm_comp_forall₂ moved.symm each
      exact ⟨parts', each', whole.trans moved'.symm.flatten⟩
  | join _ same ih =>
      obtain ⟨parts, each, whole⟩ := ih
      cases each with
      | cons ha each =>
          cases each with
          | cons hb each =>
              exact ⟨_, .cons (ha.join hb same) each, by simpa using whole⟩

end TidyImports.Import
