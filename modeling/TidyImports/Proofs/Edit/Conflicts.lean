import TidyImports.Edit.Patch
import TidyImports.Proofs.Sorting

/-! Which changes form a patch. Only neighbours of the ordered changes are compared; as an insertion
comes before a replacement that starts with it, no conflict between changes further apart is
missed. -/
namespace TidyImports.Edit

namespace Span

def Holds (s : Span) (byte : Nat) : Prop := s.start ≤ byte ∧ byte < s.stop

/-- An offset lies in a range and at neither of its ends. -/
def Encloses (s : Span) (offset : Nat) : Prop := s.start < offset ∧ offset < s.stop

/-- Two ranges share a byte, or one of them is empty and lies strictly inside the other. -/
def Conflicts (a b : Span) : Prop :=
  (∃ byte, a.Holds byte ∧ b.Holds byte) ∨
    (a.isEmpty = true ∧ b.Encloses a.start) ∨ (b.isEmpty = true ∧ a.Encloses b.start)

theorem overlaps_iff (a b : Span) : a.overlaps b = true ↔ a.start < b.stop ∧ b.start < a.stop := by
  simp [overlaps]

theorem isEmpty_iff (s : Span) : s.isEmpty = true ↔ s.stop = s.start := by
  simp [isEmpty, stop]

theorem start_le_stop (s : Span) : s.start ≤ s.stop := Nat.le_add_right _ _

theorem conflicts_iff_overlaps (a b : Span) : a.Conflicts b ↔ a.overlaps b = true := by
  have ha := a.start_le_stop
  have hb := b.start_le_stop
  rw [overlaps_iff, Conflicts, isEmpty_iff, isEmpty_iff]
  constructor
  · rintro (⟨byte, first, second⟩ | ⟨empty, inside⟩ | ⟨empty, inside⟩)
    · simp only [Holds] at first second
      omega
    · simp only [Encloses] at inside
      omega
    · simp only [Encloses] at inside
      omega
  · intro overlap
    by_cases hempty : a.stop = a.start
    · refine .inr (.inl ⟨hempty, ?_⟩)
      simp only [Encloses]
      omega
    by_cases hempty' : b.stop = b.start
    · refine .inr (.inr ⟨hempty', ?_⟩)
      simp only [Encloses]
      omega
    · refine .inl ⟨max a.start b.start, ?_⟩
      simp only [Holds]
      omega

theorem Conflicts.symm {a b : Span} (h : a.Conflicts b) : b.Conflicts a := by
  rw [conflicts_iff_overlaps, overlaps_comm]
  exact (conflicts_iff_overlaps a b).1 h

end Span

/-- A change ends inside a text and cuts none of its characters. -/
structure Change.FitsIn (text : Text) (c : Change) : Prop where
  inside : c.stop ≤ text.width
  start : text.isBoundary c.start = true
  stop : text.isBoundary c.stop = true

variable {text : Text} {changes ordered : List Change} {a b c : Change}

theorem fits_eq_ok_iff : fits text c = .ok () ↔ c.FitsIn text := by
  unfold fits
  constructor
  · intro h
    split at h
    · cases h
    · split at h
      · next outside boundaries =>
        obtain ⟨start, stop⟩ := Bool.and_eq_true_iff.1 boundaries
        exact ⟨Nat.not_lt.1 outside, start, stop⟩
      · cases h
  · rintro ⟨inside, start, stop⟩
    rw [if_neg (Nat.not_lt.2 inside), start, stop]
    rfl

theorem allFit_eq_ok_iff : allFit text changes = .ok () ↔ ∀ c ∈ changes, c.FitsIn text := by
  induction changes with
  | nil => simp [allFit]
  | cons c changes ih =>
      rw [List.forall_mem_cons, ← ih, ← fits_eq_ok_iff, allFit]
      cases fits text c with
      | error e => simp
      | ok _ => simp

theorem precedes_iff :
    precedes a b = true ↔ a.start < b.start ∨ a.start = b.start ∧ a.stop ≤ b.stop := by
  simp [precedes]

theorem precedes_trans (a b c : Change) (hab : precedes a b = true) (hbc : precedes b c = true) :
    precedes a c = true := by
  rw [precedes_iff] at *
  omega

theorem precedes_total (a b : Change) : (precedes a b || precedes b a) = true := by
  rw [Bool.or_eq_true, precedes_iff, precedes_iff]
  omega

theorem inOrder_perm (changes : List Change) : (inOrder changes).Perm changes :=
  List.mergeSort_perm changes precedes

theorem pairwise_inOrder (changes : List Change) :
    (inOrder changes).Pairwise fun a b => precedes a b = true :=
  List.pairwise_mergeSort precedes_trans precedes_total changes

theorem filter_inOrder (changes : List Change) (s : Span) :
    (inOrder changes).filter (·.span = s) = changes.filter (·.span = s) := by
  refine filter_mergeSort precedes_trans precedes_total fun a b ha hb => ?_
  have hspan : a.span = b.span := (of_decide_eq_true ha).trans (of_decide_eq_true hb).symm
  rw [precedes_iff, Change.start, Change.stop, hspan]
  exact .inr ⟨rfl, Nat.le_refl _⟩

theorem stop_le_of_precedes (h : precedes a b = true) (free : a.span.overlaps b.span = false) :
    a.stop ≤ b.start := by
  have ha := a.span.start_le_stop
  have hb := b.span.start_le_stop
  rw [← Bool.not_eq_true, Span.overlaps_iff] at free
  simp only [precedes_iff, Change.start, Change.stop] at h ⊢
  omega

theorem not_conflicts_of_stop_le (h : a.stop ≤ b.start) : ¬ a.span.Conflicts b.span := by
  rw [Span.conflicts_iff_overlaps, Span.overlaps_iff]
  intro overlap
  exact Nat.not_lt.2 h overlap.2

theorem disjoint_eq_ok (h : changes.Pairwise fun a b => a.stop ≤ b.start) :
    disjoint changes = .ok () := by
  induction changes with
  | nil => rfl
  | cons a changes ih =>
      obtain ⟨first, rest⟩ := List.pairwise_cons.1 h
      cases changes with
      | nil => rfl
      | cons b changes =>
          have hle : a.span.stop ≤ b.span.start := first b List.mem_cons_self
          have hfree : a.span.overlaps b.span = false := by
            simp [Span.overlaps, Nat.not_lt.2 hle]
          simp only [disjoint, hfree]
          exact ih rest

theorem apart_of_disjoint (sorted : changes.Pairwise fun a b => precedes a b = true)
    (h : disjoint changes = .ok ()) : changes.Pairwise fun a b => a.stop ≤ b.start := by
  induction changes with
  | nil => exact .nil
  | cons a changes ih =>
      obtain ⟨first, sorted⟩ := List.pairwise_cons.1 sorted
      cases changes with
      | nil => exact List.pairwise_singleton _ _
      | cons b changes =>
          simp only [disjoint] at h
          split at h
          · cases h
          · next free =>
            have rest := ih sorted h
            have next : a.stop ≤ b.start :=
              stop_le_of_precedes (first b List.mem_cons_self) (by simpa using free)
            refine List.pairwise_cons.2 ⟨List.forall_mem_cons.2 ⟨next, fun c hc => ?_⟩, rest⟩
            have behind := (List.pairwise_cons.1 rest).1 c hc
            have hb : b.start ≤ b.stop := b.span.start_le_stop
            omega

theorem disjoint_inOrder_iff : disjoint (inOrder changes) = .ok () ↔
    changes.Pairwise fun a b => ¬ a.span.Conflicts b.span := by
  have swap : ∀ {a b : Change}, ¬ a.span.Conflicts b.span → ¬ b.span.Conflicts a.span :=
    fun free conflict => free conflict.symm
  rw [← (inOrder_perm changes).pairwise_iff swap]
  constructor
  · intro h
    exact (apart_of_disjoint (pairwise_inOrder changes) h).imp not_conflicts_of_stop_le
  · intro h
    refine disjoint_eq_ok (((pairwise_inOrder changes).and h).imp fun hab => ?_)
    rw [Span.conflicts_iff_overlaps, Bool.not_eq_true] at hab
    exact stop_le_of_precedes hab.1 hab.2

theorem validate_eq_ok_iff : validate text changes = .ok ordered ↔
    (∀ c ∈ changes, c.FitsIn text) ∧
      (changes.Pairwise fun a b => ¬ a.span.Conflicts b.span) ∧ inOrder changes = ordered := by
  rw [← allFit_eq_ok_iff, ← disjoint_inOrder_iff, validate]
  cases allFit text changes with
  | error e => simp
  | ok _ =>
      cases disjoint (inOrder changes) with
      | error e => simp
      | ok _ => simp

/-- A list holds the changes of another one by start and end, those with equal spans as before. -/
structure StablySorted (changes ordered : List Change) : Prop where
  perm : ordered.Perm changes
  sorted : ordered.Pairwise fun a b => a.start < b.start ∨ a.start = b.start ∧ a.stop ≤ b.stop
  stable : ∀ s : Span, ordered.filter (·.span = s) = changes.filter (·.span = s)

theorem stablySorted_inOrder (changes : List Change) : StablySorted changes (inOrder changes) :=
  ⟨inOrder_perm changes, (pairwise_inOrder changes).imp precedes_iff.1, filter_inOrder changes⟩

/-- A list of changes is accepted exactly if each of them fits the text and no two of them conflict,
wherever they stand in the list. What is returned are the same changes, stably sorted by their
spans. -/
theorem validate_accepts (text : Text) (changes : List Change) :
    ((∃ ordered, validate text changes = .ok ordered) ↔
      (∀ c ∈ changes, c.FitsIn text) ∧
        changes.Pairwise fun a b => ¬ a.span.Conflicts b.span) ∧
    ∀ ordered, validate text changes = .ok ordered → StablySorted changes ordered := by
  refine ⟨⟨?_, ?_⟩, fun ordered h => ?_⟩
  · rintro ⟨ordered, h⟩
    obtain ⟨fit, free, _⟩ := validate_eq_ok_iff.1 h
    exact ⟨fit, free⟩
  · rintro ⟨fit, free⟩
    exact ⟨inOrder changes, validate_eq_ok_iff.2 ⟨fit, free, rfl⟩⟩
  · obtain ⟨_, _, rfl⟩ := validate_eq_ok_iff.1 h
    exact stablySorted_inOrder changes

/-- Two insertions at one offset, behind a replacement that starts there and one that ends there. -/
def crossedChanges : List Change :=
  [.replace 3 5 "!".toList, .replace 3 3 "x".toList, .replace 1 3 "e".toList, .replace 3 3 "y".toList]

theorem crossedChanges_sorted :
    validate "aébcd".toList crossedChanges = .ok [.replace 1 3 "e".toList, .replace 3 3 "x".toList,
        .replace 3 3 "y".toList, .replace 3 5 "!".toList] ∧
      StablySorted crossedChanges [.replace 1 3 "e".toList, .replace 3 3 "x".toList,
        .replace 3 3 "y".toList, .replace 3 5 "!".toList] := by
  have fit : allFit "aébcd".toList crossedChanges = .ok () := rfl
  have sorted : inOrder crossedChanges = [.replace 1 3 "e".toList, .replace 3 3 "x".toList,
      .replace 3 3 "y".toList, .replace 3 5 "!".toList] := by
    simp [inOrder, crossedChanges, List.mergeSort, precedes, Change.replace, Change.start,
      Change.stop, Span.stop, Span.ofBounds]
  have accepted : validate "aébcd".toList crossedChanges = .ok [.replace 1 3 "e".toList,
      .replace 3 3 "x".toList, .replace 3 3 "y".toList, .replace 3 5 "!".toList] := by
    rw [validate, fit, sorted]
    rfl
  exact ⟨accepted, (validate_accepts "aébcd".toList crossedChanges).2 _ accepted⟩

end TidyImports.Edit
