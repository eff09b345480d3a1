import TidyImports.Proofs.Edit.Accepted

/-! What a patch leaves of a text. Spans that follow each other divide a text into the gaps between them
and the pieces inside; the patch that puts new pieces in their place leaves the gaps as they are. -/
namespace TidyImports.Text

theorem upto_append_add (s r : Text) (n : Nat) :
    upto (s ++ r) (width s + n) = s ++ upto r n := by
  induction s with
  | nil => simp
  | cons c s ih =>
      have hc := c.utf8Size_pos
      obtain ⟨k, hk⟩ : ∃ k, width (c :: s) + n = k + 1 := ⟨width (c :: s) + n - 1, by simp; omega⟩
      have hrest : k + 1 - c.utf8Size = width s + n := by
        rw [← hk, width_cons]
        omega
      rw [hk, List.cons_append, upto, hrest, ih]
      rfl

theorem after_append_add (s r : Text) (n : Nat) :
    after (s ++ r) (width s + n) = after r n := by
  have whole := upto_append_after (s ++ r) (width s + n)
  rw [upto_append_add, List.append_assoc] at whole
  have behind := List.append_cancel_left whole
  exact List.append_cancel_left (behind.trans (upto_append_after r n).symm)

end TidyImports.Text

namespace TidyImports.Edit

def gaps (offset : Nat) (text : Text) : List Span → List Text
  | [] => [text]
  | s :: spans =>
    text.upto (s.start - offset) :: gaps s.stop (text.after (s.stop - offset)) spans

def weave : List Text → List Text → Text
  | [], _ => []
  | gap :: _, [] => gap
  | gap :: gaps, piece :: pieces => gap ++ piece ++ weave gaps pieces

/-- Spans stand in a text between two characters each, one behind the other. -/
structure SpansInOrder (text : Text) (spans : List Span) : Prop where
  between : ∀ s ∈ spans, text.isBoundary s.start = true ∧ text.isBoundary s.stop = true
  ordered : spans.Pairwise fun a b => a.stop ≤ b.start

variable {text t : Text} {n : Nat}

theorem cut_at_span {s : Span} (h : text.RestAt n t) (hn : n ≤ s.start)
    (hstart : text.isBoundary s.start = true) (hstop : text.isBoundary s.stop = true) :
    ∃ gap piece behind, t = gap ++ (piece ++ behind) ∧ s.start = n + gap.width ∧
      s.stop = s.start + piece.width := by
  obtain ⟨inside, first⟩ := Text.restAt_of_isBoundary hstart
  obtain ⟨behind, last⟩ := Text.restAt_of_isBoundary hstop
  obtain ⟨gap, rfl, hgap⟩ := h.split first hn
  obtain ⟨piece, rfl, hpiece⟩ := first.split last (Nat.le_add_right _ _)
  exact ⟨gap, piece, behind, rfl, hgap, hpiece⟩

theorem gaps_cons {s : Span} {gap piece behind : Text} (hgap : s.start = n + gap.width)
    (hpiece : s.stop = s.start + piece.width) (spans : List Span) :
    gaps n (gap ++ (piece ++ behind)) (s :: spans) = gap :: gaps s.stop behind spans := by
  have before : s.start - n = gap.width := by omega
  have whole : s.stop - n = Text.width (gap ++ piece) := by
    rw [Text.width_append]
    omega
  rw [gaps, before, whole, Text.upto_width, ← List.append_assoc gap piece, Text.after_width]

theorem weave_old {spans : List Span} (inOrder : SpansInOrder text spans) (h : text.RestAt n t)
    (hn : ∀ s ∈ spans, n ≤ s.start) :
    weave (gaps n t spans) (spans.map fun s => text.slice s.start s.stop) = t := by
  induction spans generalizing n t with
  | nil => rfl
  | cons s spans ih =>
      obtain ⟨hs, between⟩ := List.forall_mem_cons.1 inOrder.between
      obtain ⟨first, ordered⟩ := List.pairwise_cons.1 inOrder.ordered
      obtain ⟨gap, piece, behind, rfl, hgap, hpiece⟩ :=
        cut_at_span h (hn s List.mem_cons_self) hs.1 hs.2
      have start : text.RestAt s.start (piece ++ behind) := hgap ▸ h.append
      have stop : text.RestAt s.stop behind := hpiece ▸ start.append
      have slice : text.slice s.start s.stop = piece := hpiece ▸ start.slice_eq
      rw [List.map_cons, gaps_cons hgap hpiece, weave, ih ⟨between, ordered⟩ stop first, slice,
        List.append_assoc]

theorem weave_gaps_skip {spans : List Span} (before : Text) (hn : ∀ s ∈ spans, n + before.width ≤ s.start)
    (pieces : List Text) :
    weave (gaps n (before ++ t) spans) pieces = before ++ weave (gaps (n + before.width) t spans) pieces := by
  cases spans with
  | nil => cases pieces <;> simp [gaps, weave]
  | cons s spans =>
      have start := hn s List.mem_cons_self
      have stop := s.start_le_stop
      have first : s.start - n = before.width + (s.start - (n + before.width)) := by omega
      have last : s.stop - n = before.width + (s.stop - (n + before.width)) := by omega
      cases pieces <;> simp only [gaps, weave, first, last, Text.upto_append_add, Text.after_append_add,
        List.append_assoc]

theorem weave_gaps_around {spans : List Span} (before piece closing new : Text) (pieces : List Text)
    (hn : ∀ s ∈ spans, n + before.width + piece.width + closing.width ≤ s.start) :
    weave (gaps n (before ++ (piece ++ (closing ++ t))) (⟨n + before.width, piece.width⟩ :: spans))
        (new :: pieces) =
      before ++ (new ++ (closing ++
        weave (gaps (n + before.width + piece.width + closing.width) t spans) pieces)) := by
  rw [gaps_cons rfl rfl, weave, List.append_assoc, Span.stop, weave_gaps_skip closing hn]

theorem splice_cons {c : Change} {gap piece behind : Text} (hstart : c.start = n + gap.width)
    (hstop : c.stop = c.start + piece.width) (changes : List Change) :
    splice n (gap ++ (piece ++ behind)) (c :: changes) =
      gap ++ c.text ++ splice c.stop behind changes := by
  have first : c.start - n = gap.width := by omega
  have last : c.stop - n = Text.width (gap ++ piece) := by
    rw [Text.width_append]
    omega
  rw [splice, first, last, Text.upto_width, ← List.append_assoc gap piece, Text.after_width]

theorem splice_skip {m : Nat} {changes : List Change} (h : text.RestAt n t)
    (k : text.isBoundary m = true) (hle : n ≤ m)
    (hm : ∀ c ∈ changes, m ≤ c.start ∧ c.start ≤ c.stop) :
    splice n t changes = t.upto (m - n) ++ splice m (t.after (m - n)) changes := by
  obtain ⟨rest, later⟩ := Text.restAt_of_isBoundary k
  obtain ⟨gap, rfl, hgap⟩ := h.split later hle
  have hwidth : m - n = Text.width gap := by omega
  rw [hwidth, Text.upto_width, Text.after_width]
  cases changes with
  | nil => rfl
  | cons c changes =>
      obtain ⟨hstart, hstop⟩ := hm c List.mem_cons_self
      have first : c.start - n = Text.width gap + (c.start - m) := by omega
      have last : c.stop - n = Text.width gap + (c.stop - m) := by omega
      simp only [splice, first, last, Text.upto_append_add, Text.after_append_add,
        List.append_assoc]

/-- What is done about a span in which a piece is to stand: nothing if it stands there already. -/
def Puts (text new : Text) (s : Span) : Option Change → Prop
  | none => new = text.slice s.start s.stop
  | some c => c.start = s.start ∧ c.stop = s.stop ∧ c.text = new

variable {α : Type} {piece : α → Span} {new : α → Text}

theorem splice_filterMap {items : List α} {change? : α → Option Change}
    (inOrder : SpansInOrder text (items.map piece)) (h : text.RestAt n t)
    (hn : ∀ a ∈ items, n ≤ (piece a).start)
    (puts : ∀ a ∈ items, Puts text (new a) (piece a) (change? a)) :
    splice n t (items.filterMap change?) =
      weave (gaps n t (items.map piece)) (items.map new) := by
  induction items generalizing n t with
  | nil => rfl
  | cons a items ih =>
      obtain ⟨hs, between⟩ := List.forall_mem_cons.1 inOrder.between
      obtain ⟨first, ordered⟩ := List.pairwise_cons.1 inOrder.ordered
      obtain ⟨here, puts⟩ := List.forall_mem_cons.1 puts
      have later : ∀ b ∈ items, (piece a).stop ≤ (piece b).start :=
        fun b hb => first _ (List.mem_map_of_mem hb)
      obtain ⟨gap, old, behind, rfl, hgap, hold⟩ :=
        cut_at_span h (hn a List.mem_cons_self) hs.1 hs.2
      have start : text.RestAt (piece a).start (old ++ behind) := hgap ▸ h.append
      have stop : text.RestAt (piece a).stop behind := hold ▸ start.append
      have tail := ih ⟨between, ordered⟩ stop later puts
      rw [List.map_cons, List.map_cons, gaps_cons hgap hold, weave, ← tail]
      cases hchange : change? a with
      | none =>
          rw [hchange] at here
          have same : new a = old := by
            rw [here, hold]
            exact start.slice_eq
          have behind : ∀ c ∈ items.filterMap change?,
              (piece a).stop ≤ c.start ∧ c.start ≤ c.stop := by
            intro c hc
            obtain ⟨b, hb, hchange⟩ := List.mem_filterMap.1 hc
            have hput := puts b hb
            rw [hchange] at hput
            obtain ⟨hstart, hstop, _⟩ := hput
            rw [hstart, hstop]
            exact ⟨later b hb, (piece b).start_le_stop⟩
          have passed : (piece a).stop - n = Text.width (gap ++ old) := by
            rw [Text.width_append]
            omega
          have skip := splice_skip h stop.isBoundary (by omega) behind
          rw [passed, ← List.append_assoc, Text.upto_width, Text.after_width] at skip
          rw [List.filterMap_cons_none hchange, same, ← skip, List.append_assoc]
      | some c =>
          rw [hchange] at here
          obtain ⟨hstart, hstop, htext⟩ := here
          rw [List.filterMap_cons_some hchange, splice_cons (hstart.trans hgap)
            (by rw [hstop, hstart, hold]), htext, hstop]

end TidyImports.Edit
