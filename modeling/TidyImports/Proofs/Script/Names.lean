import TidyImports.Proofs.Import.Groups
import TidyImports.Proofs.Script.Shifting

/-! Which names of a script are used. A name is used if some use can denote one of its declarations.
Imports declare names and use none, so whether a name is used depends on what the imports declare and on
the other statements alone. -/
namespace TidyImports.Script

open Grammar Script.Parser Import

variable {name : Text} {whole rest names names' : Leftover} {outlines : List Outline}
  {items : List TopStatement} {statements statements' : List Statement} {use : Use}
  {d : ImportDeclaration}

def Leftover.outer (whole : Leftover) : List Binding := whole.block ++ whole.function

theorem serves_union (a b : Meaning) (sense : Sense) :
    (a.union b).serves sense = (a.serves sense || b.serves sense) := by
  obtain ⟨_ | _, _ | _, _ | _⟩ := a <;> obtain ⟨_ | _, _ | _, _ | _⟩ := b <;> cases sense <;> rfl

theorem denotes_iff (bindings : List Binding) (use : Use) :
    denotes bindings use = true ↔ ∃ m, (use.1, m) ∈ bindings ∧ m.serves use.2 = true := by
  induction bindings with
  | nil => simp [denotes, meaningOf]
  | cons binding bindings ih =>
      obtain ⟨bound, meaning⟩ := binding
      rw [denotes] at ih ⊢
      rw [meaningOf]
      by_cases same : bound = use.1
      · subst same
        cases others : meaningOf use.1 bindings with
        | none =>
            simp only [others, Bool.false_eq_true, false_iff] at ih
            simp only [if_true, List.mem_cons, Prod.mk.injEq, true_and]
            grind
        | some other =>
            simp only [others] at ih
            simp only [if_true, serves_union, Bool.or_eq_true, ih, List.mem_cons, Prod.mk.injEq, true_and]
            grind
      · have different : ¬ use.1 = bound := Ne.symm same
        simp only [if_neg same, List.mem_cons, Prod.mk.injEq, different, false_and, false_or]
        exact ih

theorem isUsed_iff : whole.isUsed name = true ↔
    ∃ use ∈ whole.uses, use.1 = name ∧ ∃ m, (name, m) ∈ whole.outer ∧ m.serves use.2 = true := by
  have denoted (sense : Sense) := denotes_iff whole.outer (name, sense)
  simp only [denotes, Leftover.outer] at denoted
  rw [Leftover.isUsed, Leftover.outer]
  cases hmeaning : meaningOf name (whole.block ++ whole.function) with
  | none =>
      simp only [hmeaning, Bool.false_eq_true, false_iff] at denoted
      simp only [Bool.false_eq_true, false_iff]
      rintro ⟨use, -, rfl, m, hm, serves⟩
      exact denoted use.2 ⟨m, hm, serves⟩
  | some meaning =>
      simp only [hmeaning] at denoted
      simp only [List.any_eq_true, Bool.and_eq_true, beq_iff_eq, denoted]

/-! Outlines put together. -/

theorem names_append (a b : Outline) : (a ++ b).names =
    ⟨a.names.block ++ b.names.block, a.names.function ++ b.names.function,
      a.names.conditional ++ b.names.conditional, a.names.uses ++ b.names.uses⟩ := by
  cases b with
  | empty =>
      have none : Outline.empty.names = ⟨[], [], [], []⟩ := rfl
      have same : a ++ Outline.empty = a := by cases a <;> rfl
      simp only [same, none, List.append_nil]
  | _ => cases a <;> rfl

theorem mem_uses_collect : use ∈ (collect outlines).names.uses ↔ ∃ o ∈ outlines, use ∈ o.names.uses := by
  induction outlines with
  | nil => simp [collect, Outline.names, Outline.leftover]
  | cons o outlines ih =>
      have split : collect (o :: outlines) = o ++ collect outlines := rfl
      simp [split, names_append, ih]

theorem mem_outer_collect {binding : Binding} : binding ∈ (collect outlines).names.outer ↔
    ∃ o ∈ outlines, binding ∈ o.names.outer := by
  induction outlines with
  | nil => simp [collect, Outline.names, Outline.leftover, Leftover.outer]
  | cons o outlines ih =>
      have split : collect (o :: outlines) = o ++ collect outlines := rfl
      simp only [Leftover.outer, List.mem_append] at ih
      simp only [split, names_append, Leftover.outer, List.mem_append, List.exists_mem_cons_iff, ← ih]
      tauto

def ImportSpecifier.meaning (isType : Bool) : ImportSpecifier → Meaning
  | .named _ _ typed _ => if isType || typed then .typeImport else .both
  | _ => if isType then .typeImport else .both

theorem names_specifierOutline (isType : Bool) (s : ImportSpecifier) :
    (specifierOutline isType s).names = ⟨[(s.name, s.meaning isType)], [], [], []⟩ := by
  cases s <;> rfl

theorem names_import (d : ImportDeclaration) : d.outline.names.uses = [] ∧
    ∀ b, b ∈ d.outline.names.outer ↔ ∃ s ∈ d.specifiers, b = (s.name, s.meaning d.isType) := by
  refine ⟨List.eq_nil_iff_forall_not_mem.2 fun use huse => ?_, fun b => ?_⟩
  · obtain ⟨o, ho, own⟩ := mem_uses_collect.1 huse
    obtain ⟨s, -, rfl⟩ := List.mem_map.1 ho
    simp [names_specifierOutline] at own
  · rw [ImportDeclaration.outline, mem_outer_collect]
    simp [names_specifierOutline, Leftover.outer]

/-! Names of scripts. -/

def otherOutlines (items : List TopStatement) : List Outline :=
  (items.filter fun item => (declaration? item.statement).isNone).map TopStatement.outline

/-- The names of a script are those that its imports declare, and the names of its other statements. -/
structure NamesFrom (rest : Leftover) (statements : List Statement) (names : Leftover) : Prop where
  uses : ∀ use, use ∈ names.uses ↔ use ∈ rest.uses
  outer : ∀ b, b ∈ names.outer ↔ b ∈ rest.outer ∨
    ∃ d ∈ declarations statements, ∃ s ∈ d.specifiers, b = (s.name, s.meaning d.isType)

theorem namesFrom_items
    (imports : ∀ item ∈ items, ∀ d, item.statement.kind = .importing d → item.outline = d.outline) :
    NamesFrom (collect (otherOutlines items)).names (items.map TopStatement.statement)
      (collect (items.map TopStatement.outline)).names := by
  have split {P : Outline → Prop} : (∃ o ∈ items.map TopStatement.outline, P o) ↔
      (∃ o ∈ otherOutlines items, P o) ∨
        ∃ d ∈ declarations (items.map TopStatement.statement), P d.outline := by
    induction items with
    | nil => simp [otherOutlines, declarations]
    | cons item items ih =>
        obtain ⟨own, others⟩ := List.forall_mem_cons.1 imports
        have more := ih others
        cases found : declaration? item.statement with
        | none =>
            have outlines : otherOutlines (item :: items) = item.outline :: otherOutlines items := by
              simp [otherOutlines, found]
            have row : declarations ((item :: items).map TopStatement.statement) =
                declarations (items.map TopStatement.statement) := List.filterMap_cons_none found
            rw [outlines, row, List.map_cons, List.exists_mem_cons_iff, List.exists_mem_cons_iff, more,
              or_assoc]
        | some d =>
            have outlines : otherOutlines (item :: items) = otherOutlines items := by
              simp [otherOutlines, found]
            have row : declarations ((item :: items).map TopStatement.statement) =
                d :: declarations (items.map TopStatement.statement) := List.filterMap_cons_some found
            rw [outlines, row, List.map_cons, List.exists_mem_cons_iff, List.exists_mem_cons_iff, more,
              own d (declaration?_eq_some.1 found), or_left_comm]
  refine ⟨fun use => ?_, fun b => ?_⟩
  · rw [mem_uses_collect, mem_uses_collect, split]
    simp [names_import]
  · rw [mem_outer_collect, mem_outer_collect, split]
    simp only [(names_import _).2]

/-- Scripts with the same statements besides their imports use the same names, if their imports declare
the same as far as it is used. -/
theorem NamesFrom.isUsed_eq (h : NamesFrom rest statements names) (k : NamesFrom rest statements' names')
    (bound : ∀ d' ∈ declarations statements', ∀ s' ∈ d'.specifiers, ∃ d ∈ declarations statements,
      ∃ s ∈ d.specifiers, s.name = s'.name ∧ s.meaning d.isType = s'.meaning d'.isType)
    (kept : ∀ d ∈ declarations statements, ∀ s ∈ d.specifiers, names.isUsed s.name = true →
      ∃ d' ∈ declarations statements', ∃ s' ∈ d'.specifiers,
        s'.name = s.name ∧ s'.meaning d'.isType = s.meaning d.isType) (name : Text) :
    names'.isUsed name = names.isUsed name := by
  rw [Bool.eq_iff_iff]
  constructor
  · intro used
    obtain ⟨use, huse, rfl, m, hm, serves⟩ := isUsed_iff.1 used
    refine isUsed_iff.2 ⟨use, (h.uses use).2 ((k.uses use).1 huse), rfl, m, (h.outer _).2 ?_, serves⟩
    refine ((k.outer _).1 hm).imp_right fun ⟨d', hd', s', hs', same⟩ => ?_
    obtain ⟨d, hd, s, hs, name, meaning⟩ := bound d' hd' s' hs'
    exact ⟨d, hd, s, hs, by rw [same, name, meaning]⟩
  · intro used
    obtain ⟨use, huse, rfl, m, hm, serves⟩ := isUsed_iff.1 used
    refine isUsed_iff.2 ⟨use, (k.uses use).2 ((h.uses use).1 huse), rfl, m, (k.outer _).2 ?_, serves⟩
    refine ((h.outer _).1 hm).imp_right fun ⟨d, hd, s, hs, same⟩ => ?_
    obtain ⟨name, meaning⟩ := Prod.mk.inj same
    obtain ⟨d', hd', s', hs', name', meaning'⟩ := kept d hd s hs (name ▸ used)
    exact ⟨d', hd', s', hs', by rw [name', meaning', ← same]⟩

end TidyImports.Script
