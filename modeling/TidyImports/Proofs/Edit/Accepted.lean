import Mathlib.Data.List.Forall2
import TidyImports.Proofs.Edit.Conflicts
import TidyImports.Text.Offset

/-! Patches that are accepted as they are: the changes stand in ascending order, apart from each
other, inside the text and between characters. Changes that are found piece by piece form such a
patch when each piece of the text is behind the one before it. -/
namespace TidyImports.Edit

/-- The changes of a list are a patch of a text, in the order of the list. -/
structure IsPatch (text : Text) (changes : List Change) : Prop where
  ascending : changes.Pairwise fun a b => a.start < b.start
  apart : changes.Pairwise fun a b => a.stop ≤ b.start
  inside : ∀ c ∈ changes, c.start ≤ c.stop ∧ c.stop ≤ text.width
  between : ∀ c ∈ changes, text.isBoundary c.start = true ∧ text.isBoundary c.stop = true

namespace IsPatch

variable {text : Text} {changes : List Change}

theorem allFit_eq_ok (h : IsPatch text changes) : allFit text changes = .ok () := by
  refine allFit_eq_ok_iff.2 fun c hc => ?_
  obtain ⟨hstart, hstop⟩ := h.between c hc
  exact ⟨(h.inside c hc).2, hstart, hstop⟩

theorem inOrder_eq_self (h : IsPatch text changes) : inOrder changes = changes := by
  refine List.mergeSort_of_pairwise (h.ascending.imp fun hlt => ?_)
  simp [precedes, hlt]

end IsPatch

theorem IsPatch.validate_eq_ok {text : Text} {changes : List Change} (h : IsPatch text changes) :
    validate text changes = .ok changes := by
  simp only [validate, h.allFit_eq_ok, h.inOrder_eq_self, disjoint_eq_ok h.apart]

theorem IsPatch.apply_eq_ok {text : Text} {changes : List Change} (h : IsPatch text changes) :
    apply text changes = .ok (splice 0 text changes) := by
  simp only [apply, h.validate_eq_ok]

/-- A change belongs to the piece of a text between two offsets: it starts in front of the end of the
piece and does not go beyond it. -/
structure Change.In (low high : Nat) (c : Change) : Prop where
  low_le : low ≤ c.start
  start_lt : c.start < high
  start_le : c.start ≤ c.stop
  stop_le : c.stop ≤ high

/-- The changes of a piece of a text are a patch of the text. -/
structure IsPatchIn (text : Text) (low high : Nat) (changes : List Change) : Prop where
  patch : IsPatch text changes
  within : ∀ c ∈ changes, c.In low high

theorem IsPatchIn.append {text : Text} {low high : Nat} {changes more : List Change}
    (h : IsPatchIn text low high changes) (k : IsPatch text more)
    (hbehind : ∀ c ∈ more, high ≤ c.start) : IsPatch text (changes ++ more) := by
  have later : ∀ a ∈ changes, ∀ b ∈ more, a.start < b.start ∧ a.stop ≤ b.start := by
    intro a ha b hb
    have hb' := hbehind b hb
    have hstart := (h.within a ha).start_lt
    have hstop := (h.within a ha).stop_le
    omega
  refine ⟨?_, ?_, ?_, ?_⟩
  · exact List.pairwise_append.2 ⟨h.patch.ascending, k.ascending,
      fun a ha b hb => (later a ha b hb).1⟩
  · exact List.pairwise_append.2 ⟨h.patch.apart, k.apart,
      fun a ha b hb => (later a ha b hb).2⟩
  · exact List.forall_mem_append.2 ⟨h.patch.inside, k.inside⟩
  · exact List.forall_mem_append.2 ⟨h.patch.between, k.between⟩

theorem exists_of_forall₂ {α β : Type} {R : α → β → Prop} {as : List α} {bs : List β}
    (h : List.Forall₂ R as bs) : ∀ b ∈ bs, ∃ a ∈ as, R a b := by
  induction h with
  | nil => simp
  | cons hab _ ih =>
      refine List.forall_mem_cons.2 ⟨⟨_, List.mem_cons_self, hab⟩, fun b hb => ?_⟩
      obtain ⟨a, ha, hR⟩ := ih b hb
      exact ⟨a, List.mem_cons_of_mem _ ha, hR⟩

theorem isPatch_flatten {α : Type} {text : Text} {items : List α} {lists : List (List Change)}
    {R : α → List Change → Prop} (piece : α → Span) (h : List.Forall₂ R items lists)
    (ordered : items.Pairwise fun a b => (piece a).stop ≤ (piece b).start)
    (each : ∀ a ∈ items, ∀ list, R a list →
      IsPatchIn text (piece a).start (piece a).stop list) :
    IsPatch text lists.flatten ∧ ∀ c ∈ lists.flatten, ∃ a ∈ items, (piece a).start ≤ c.start := by
  induction h with
  | nil => exact ⟨⟨.nil, .nil, by simp, by simp⟩, by simp⟩
  | @cons a list items lists hlist _ ih =>
      obtain ⟨first, ordered⟩ := List.pairwise_cons.1 ordered
      obtain ⟨here, each⟩ := List.forall_mem_cons.1 each
      obtain ⟨patch, behind⟩ := ih ordered each
      have within := (here list hlist).within
      rw [List.flatten_cons]
      refine ⟨(here list hlist).append patch fun c hc => ?_,
        List.forall_mem_append.2 ⟨fun c hc => ?_, fun c hc => ?_⟩⟩
      · obtain ⟨later, hlater, hle⟩ := behind c hc
        exact Nat.le_trans (first later hlater) hle
      · exact ⟨a, List.mem_cons_self, (within c hc).low_le⟩
      · obtain ⟨later, hlater, hle⟩ := behind c hc
        exact ⟨later, List.mem_cons_of_mem _ hlater, hle⟩

theorem isPatch_filterMap {α : Type} {text : Text} {items : List α} {change? : α → Option Change}
    (piece : α → Span) (ordered : items.Pairwise fun a b => (piece a).stop ≤ (piece b).start)
    (h : ∀ a ∈ items, ∀ c, change? a = some c → c.In (piece a).start (piece a).stop ∧
      text.isBoundary c.start = true ∧ text.isBoundary c.stop = true) :
    IsPatch text (items.filterMap change?) := by
  have mem : ∀ c ∈ items.filterMap change?, ∃ a ∈ items, change? a = some c :=
    fun c hc => List.mem_filterMap.1 hc
  have later : items.Pairwise fun a b => ∀ x, change? a = some x → ∀ y, change? b = some y →
      x.start < y.start ∧ x.stop ≤ y.start := by
    refine ordered.imp_of_mem fun {a b} ha hb hle x hx y hy => ?_
    have hxin := (h a ha x hx).1
    have hyin := (h b hb y hy).1
    have hlow := hyin.low_le
    have hstart := hxin.start_lt
    have hstop := hxin.stop_le
    omega
  refine ⟨?_, ?_, fun c hc => ?_, fun c hc => ?_⟩
  · exact List.pairwise_filterMap.2 (later.imp fun hab x hx y hy => (hab x hx y hy).1)
  · exact List.pairwise_filterMap.2 (later.imp fun hab x hx y hy => (hab x hx y hy).2)
  · obtain ⟨a, ha, hca⟩ := mem c hc
    obtain ⟨hin, _, hstop⟩ := h a ha c hca
    obtain ⟨rest, place⟩ := Text.restAt_of_isBoundary hstop
    exact ⟨hin.start_le, place.le_width⟩
  · obtain ⟨a, ha, hca⟩ := mem c hc
    exact (h a ha c hca).2

theorem IsPatchIn.shift {text part rest : Text} {offset low high : Nat} {changes : List Change}
    (h : IsPatchIn part low high changes) (place : text.RestAt offset (part ++ rest)) :
    IsPatchIn text (offset + low) (offset + high) (changes.map (Change.shift offset)) := by
  have bounds : ∀ c : Change, (c.shift offset).start = c.start + offset ∧
      (c.shift offset).stop = c.stop + offset :=
    fun c => ⟨Change.start_shift offset c, Change.stop_shift offset c⟩
  have total := place.add_width
  rw [Text.width_append] at total
  refine ⟨⟨?_, ?_, ?_, ?_⟩, ?_⟩
  · refine List.pairwise_map.2 (h.patch.ascending.imp fun {a b} hab => ?_)
    rw [(bounds a).1, (bounds b).1]
    omega
  · refine List.pairwise_map.2 (h.patch.apart.imp fun {a b} hab => ?_)
    rw [(bounds a).2, (bounds b).1]
    omega
  · refine List.forall_mem_map.2 fun c hc => ?_
    obtain ⟨hle, hinside⟩ := h.patch.inside c hc
    rw [(bounds c).1, (bounds c).2]
    omega
  · refine List.forall_mem_map.2 fun c hc => ?_
    obtain ⟨hstart, hstop⟩ := h.patch.between c hc
    rw [(bounds c).1, (bounds c).2, Nat.add_comm c.start, Nat.add_comm c.stop]
    exact ⟨place.isBoundary_inner hstart, place.isBoundary_inner hstop⟩
  · refine List.forall_mem_map.2 fun c hc => ?_
    obtain ⟨hlow, hlt, hle, hstop⟩ := h.within c hc
    constructor <;> simp only [(bounds c).1, (bounds c).2] <;> omega

end TidyImports.Edit
