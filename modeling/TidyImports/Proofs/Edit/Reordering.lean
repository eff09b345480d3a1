import Mathlib.Data.List.Nodup
import TidyImports.Proofs.Edit.Conflicts

/-! Patches do not depend on the order in which their changes are listed, insertions at one offset
apart. Sorting two arrangements of a list gives the same spans, so the same neighbours conflict; and
in a list that is accepted no two changes have one span, so the changes come out the same as well. -/
namespace TidyImports.Edit

/-- No two insertions stand at one offset. -/
def InsertionsApart (changes : List Change) : Prop :=
  changes.Pairwise fun a b => a.span.isEmpty = true → b.span.isEmpty = true → a.start ≠ b.start

instance (changes : List Change) : Decidable (InsertionsApart changes) :=
  inferInstanceAs (Decidable (changes.Pairwise fun a b =>
    a.span.isEmpty = true → b.span.isEmpty = true → a.start ≠ b.start))

variable {text : Text} {first second changes : List Change} {a b : Change}

theorem span_eq_of_precedes (hab : precedes a b = true) (hba : precedes b a = true) :
    a.span = b.span := by
  rw [precedes_iff] at hab hba
  obtain ⟨⟨start, length⟩, _⟩ := a
  obtain ⟨⟨start', length'⟩, _⟩ := b
  simp only [Change.start, Change.stop, Span.stop, Span.mk.injEq] at *
  omega

theorem inOrder_perm_of_perm (moved : first.Perm second) : (inOrder first).Perm (inOrder second) :=
  ((inOrder_perm first).trans moved).trans (inOrder_perm second).symm

theorem spans_inOrder (moved : first.Perm second) :
    (inOrder first).map Change.span = (inOrder second).map Change.span := by
  have sorted (changes : List Change) : ((inOrder changes).map Change.span).Pairwise
      fun s t => precedes ⟨s, []⟩ ⟨t, []⟩ = true :=
    List.pairwise_map.2 (pairwise_inOrder changes)
  have perm := (inOrder_perm_of_perm moved).map Change.span
  refine List.Perm.eq_of_pairwise ?_ (sorted first) (sorted second) perm
  intro s t _ _ hst hts
  exact span_eq_of_precedes hst hts

theorem disjoint_spans (changes : List Change) :
    disjoint ((changes.map Change.span).map fun s => ⟨s, []⟩) = disjoint changes := by
  induction changes with
  | nil => rfl
  | cons a changes ih =>
      cases changes with
      | nil => rfl
      | cons b changes =>
          rw [disjoint, ← ih]
          rfl

theorem disjoint_inOrder_of_perm (moved : first.Perm second) :
    disjoint (inOrder first) = disjoint (inOrder second) := by
  rw [← disjoint_spans, spans_inOrder moved, disjoint_spans]

theorem disjoint_eq_error {e : PatchError} (h : disjoint changes = .error e) :
    ∃ s t, e = .overlapping s t := by
  fun_induction disjoint changes with
  | case1 => cases h
  | case2 => cases h
  | case3 a b changes overlap => exact ⟨a.span, b.span, (Except.error.inj h).symm⟩
  | case4 a b changes free ih => exact ih h

theorem fitsIn_of_perm (moved : first.Perm second) :
    (∀ c ∈ first, c.FitsIn text) ↔ ∀ c ∈ second, c.FitsIn text := by
  simp only [moved.mem_iff]

theorem apply_of_fitsIn (fit : ∀ c ∈ changes, c.FitsIn text) :
    apply text changes = (disjoint (inOrder changes)).map fun _ => splice 0 text (inOrder changes) := by
  rw [apply, validate, allFit_eq_ok_iff.2 fit]
  cases disjoint (inOrder changes) <;> rfl

theorem apply_of_not_fitsIn (unfit : ¬ ∀ c ∈ changes, c.FitsIn text) :
    ∃ e, apply text changes = .error e := by
  rw [← allFit_eq_ok_iff] at unfit
  rw [apply, validate]
  cases h : allFit text changes with
  | error e => exact ⟨e, rfl⟩
  | ok _ => exact absurd h unfit

theorem spans_nodup (apart : InsertionsApart changes) (free : disjoint (inOrder changes) = .ok ()) :
    (changes.map Change.span).Nodup := by
  refine List.pairwise_map.2 ((apart.and (disjoint_inOrder_iff.1 free)).imp ?_)
  rintro a b ⟨insertions, noConflict⟩ same
  rw [Span.conflicts_iff_overlaps, Span.overlaps_iff, ← same] at noConflict
  have empty : a.span.isEmpty = true := by
    rw [Span.isEmpty_iff]
    have := a.span.start_le_stop
    omega
  exact insertions empty (same ▸ empty) (congrArg Span.start same)

theorem inOrder_eq_of_perm (moved : first.Perm second) (distinct : (first.map Change.span).Nodup) :
    inOrder first = inOrder second := by
  refine List.Perm.eq_of_pairwise ?_ (pairwise_inOrder first) (pairwise_inOrder second)
    (inOrder_perm_of_perm moved)
  intro a b ha hb hab hba
  have ha := (inOrder_perm first).mem_iff.1 ha
  have hb := moved.mem_iff.2 ((inOrder_perm second).mem_iff.1 hb)
  exact List.inj_on_of_nodup_map distinct ha hb (span_eq_of_precedes hab hba)

/-- Two arrangements of a list without two insertions at one offset both make the same text, or both
fail. When each change fits the text, they fail with the same conflict. -/
theorem apply_of_perm (text : Text) (moved : first.Perm second) (apart : InsertionsApart first) :
    ((∃ result, apply text first = .ok result ∧ apply text second = .ok result) ∨
      ∃ e e', apply text first = .error e ∧ apply text second = .error e') ∧
    ((∀ c ∈ first, c.FitsIn text) → ∀ e, apply text first = .error e →
      (∃ s t, e = .overlapping s t) ∧ apply text second = .error e) := by
  by_cases fit : ∀ c ∈ first, c.FitsIn text
  · rw [apply_of_fitsIn fit, apply_of_fitsIn ((fitsIn_of_perm moved).1 fit),
      ← disjoint_inOrder_of_perm moved]
    cases free : disjoint (inOrder first) with
    | error e =>
        refine ⟨.inr ⟨e, e, rfl, rfl⟩, ?_⟩
        rintro _ _ ⟨⟩
        exact ⟨disjoint_eq_error free, rfl⟩
    | ok _ =>
        have same := inOrder_eq_of_perm moved (spans_nodup apart free)
        refine ⟨.inl ⟨splice 0 text (inOrder first), rfl, by rw [same]; rfl⟩, ?_⟩
        rintro _ _ ⟨⟩
  · obtain ⟨e, he⟩ := apply_of_not_fitsIn fit
    obtain ⟨e', he'⟩ := apply_of_not_fitsIn (mt (fitsIn_of_perm moved).2 fit)
    exact ⟨.inr ⟨e, e', he, he'⟩, fun fits => absurd fits fit⟩

-- Insertions at one offset are made in list order.
example : apply "ab".toList [.replace 1 1 "x".toList, .replace 1 1 "y".toList] =
      .ok "axyb".toList ∧
    apply "ab".toList [.replace 1 1 "y".toList, .replace 1 1 "x".toList] = .ok "ayxb".toList :=
  ⟨by cbv, by cbv⟩

def tiedChanges : List Change :=
  [.replace 3 5 "!".toList, .replace 1 3 "e".toList, .replace 3 5 "?".toList, .replace 3 3 "x".toList]

theorem tiedChanges_refused :
    tiedChanges.Perm tiedChanges.reverse ∧ InsertionsApart tiedChanges ∧
      (∀ c ∈ tiedChanges, c.FitsIn "aébcd".toList) ∧
      apply "aébcd".toList tiedChanges = .error (.overlapping ⟨3, 2⟩ ⟨3, 2⟩) ∧
      apply "aébcd".toList tiedChanges.reverse = .error (.overlapping ⟨3, 2⟩ ⟨3, 2⟩) := by
  have moved : tiedChanges.Perm tiedChanges.reverse := (List.reverse_perm _).symm
  have apart : InsertionsApart tiedChanges := by decide
  have fit : ∀ c ∈ tiedChanges, c.FitsIn "aébcd".toList := allFit_eq_ok_iff.1 rfl
  have sorted : inOrder tiedChanges = [.replace 1 3 "e".toList, .replace 3 3 "x".toList,
      .replace 3 5 "!".toList, .replace 3 5 "?".toList] := by
    simp [inOrder, tiedChanges, List.mergeSort, precedes, Change.replace, Change.start,
      Change.stop, Span.stop, Span.ofBounds]
  have refused : apply "aébcd".toList tiedChanges = .error (.overlapping ⟨3, 2⟩ ⟨3, 2⟩) := by
    rw [apply_of_fitsIn fit, sorted]
    rfl
  exact ⟨moved, apart, fit, refused, ((apply_of_perm _ moved apart).2 fit _ refused).2⟩

end TidyImports.Edit
