import TidyImports.Proofs.Edit.Weaving

/-! A patch that is found region by region. Applied to a text it gives what its parts give when each of
them is applied to its region alone, at offsets that count from the region's start, with everything
between the regions as it was. -/
namespace TidyImports.Edit

variable {text t : Text} {n : Nat} {changes more : List Change}

theorem IsPatch.spansInOrder (h : IsPatch text changes) :
    SpansInOrder text (changes.map Change.span) :=
  ⟨List.forall_mem_map.2 h.between, List.pairwise_map.2 h.apart⟩

theorem splice_append {s r : Text} (h : text.RestAt n (s ++ r))
    (inOrder : SpansInOrder text (changes.map Change.span))
    (within : ∀ c ∈ changes, n ≤ c.start ∧ c.stop ≤ n + s.width)
    (behind : ∀ c ∈ more, n + s.width ≤ c.start ∧ c.start ≤ c.stop) :
    splice n (s ++ r) (changes ++ more) = splice n s changes ++ splice (n + s.width) r more := by
  induction changes generalizing n s with
  | nil =>
      have skip := splice_skip h h.append.isBoundary (Nat.le_add_right _ _) behind
      rwa [Nat.add_sub_cancel_left, Text.upto_width, Text.after_width] at skip
  | cons c changes ih =>
      obtain ⟨hc, between⟩ := List.forall_mem_cons.1 inOrder.between
      obtain ⟨first, ordered⟩ := List.pairwise_cons.1 inOrder.ordered
      obtain ⟨⟨hstart, hstop⟩, within⟩ := List.forall_mem_cons.1 within
      obtain ⟨gap, piece, rest, hcut, hgap, hpiece⟩ := cut_at_span h hstart hc.1 hc.2
      have here : text.RestAt c.stop rest := by
        rw [hcut] at h
        rw [Change.stop, hpiece, hgap]
        exact h.append.append
      obtain ⟨left, rfl, hleft⟩ := here.split h.append hstop
      have hs : s = gap ++ (piece ++ left) := by
        apply (List.append_left_inj r).1
        simpa using hcut
      subst hs
      have inner : ∀ d ∈ changes, c.stop ≤ d.start ∧ d.stop ≤ c.stop + left.width := by
        intro d hd
        rw [← hleft]
        exact ⟨first _ (List.mem_map_of_mem hd), (within d hd).2⟩
      have tail := ih here ⟨between, ordered⟩ inner fun d hd => hleft ▸ behind d hd
      rw [hcut, List.cons_append, splice_cons hgap hpiece, splice_cons hgap hpiece, tail, hleft]
      simp only [List.append_assoc]

theorem splice_shift (delta : Nat) (changes : List Change) :
    splice (n + delta) t (changes.map (Change.shift delta)) = splice n t changes := by
  induction changes generalizing n t with
  | nil => rfl
  | cons c changes ih =>
      have first : c.start + delta - (n + delta) = c.start - n := by omega
      have last : c.stop + delta - (n + delta) = c.stop - n := by omega
      have same : (c.shift delta).text = c.text := rfl
      rw [List.map_cons, splice, splice, Change.start_shift, Change.stop_shift, first, last, same, ih]

variable {α β : Type} {items : List α} {piece : α → Span}

theorem spansInOrder_flatten {lists : List (List β)} {R : α → List β → Prop} {span : β → Span}
    (h : List.Forall₂ R items lists) (inOrder : SpansInOrder text (items.map piece))
    (each : ∀ a ∈ items, ∀ list, R a list → SpansInOrder text (list.map span) ∧
      ∀ b ∈ list, (piece a).start ≤ (span b).start ∧ (span b).stop ≤ (piece a).stop) :
    SpansInOrder text (lists.flatten.map span) ∧ ∀ b ∈ lists.flatten, ∃ a ∈ items,
      (piece a).start ≤ (span b).start ∧ (span b).stop ≤ (piece a).stop := by
  induction h with
  | nil => exact ⟨⟨by simp, .nil⟩, by simp⟩
  | @cons a list items lists hlist _ ih =>
      obtain ⟨ha, between⟩ := List.forall_mem_cons.1 inOrder.between
      obtain ⟨first, ordered⟩ := List.pairwise_cons.1 inOrder.ordered
      obtain ⟨here, each⟩ := List.forall_mem_cons.1 each
      obtain ⟨own, within⟩ := here list hlist
      obtain ⟨rest, inside⟩ := ih ⟨between, ordered⟩ each
      rw [List.flatten_cons, List.map_append]
      refine ⟨⟨List.forall_mem_append.2 ⟨own.between, rest.between⟩, ?_⟩,
        List.forall_mem_append.2 ⟨fun b hb => ?_, fun b hb => ?_⟩⟩
      · refine List.pairwise_append.2 ⟨own.ordered, rest.ordered, ?_⟩
        refine List.forall_mem_map.2 fun b hb => List.forall_mem_map.2 fun d hd => ?_
        obtain ⟨region, hregion, hstart, _⟩ := inside d hd
        have hstop := (within b hb).2
        have later := first _ (List.mem_map_of_mem hregion)
        omega
      · exact ⟨a, List.mem_cons_self, within b hb⟩
      · obtain ⟨region, hregion, hinside⟩ := inside b hb
        exact ⟨region, List.mem_cons_of_mem _ hregion, hinside⟩

theorem splice_flatten {lists : List (List Change)} {R : α → List Change → Prop}
    (h : List.Forall₂ R items lists) (inOrder : SpansInOrder text (items.map piece))
    (each : ∀ a ∈ items, ∀ list, R a list → IsPatchIn text (piece a).start (piece a).stop list)
    (place : text.RestAt n t) (hn : ∀ a ∈ items, n ≤ (piece a).start) :
    ∃ news, List.Forall₂ (fun a new => ∃ list, R a list ∧
        new = splice (piece a).start (text.slice (piece a).start (piece a).stop) list) items news ∧
      splice n t lists.flatten = weave (gaps n t (items.map piece)) news := by
  induction h generalizing n t with
  | nil => exact ⟨[], .nil, rfl⟩
  | @cons a list items lists hlist tail ih =>
      obtain ⟨ha, between⟩ := List.forall_mem_cons.1 inOrder.between
      obtain ⟨first, ordered⟩ := List.pairwise_cons.1 inOrder.ordered
      obtain ⟨here, each⟩ := List.forall_mem_cons.1 each
      have later : ∀ b ∈ items, (piece a).stop ≤ (piece b).start :=
        fun b hb => first _ (List.mem_map_of_mem hb)
      obtain ⟨gap, inside, rest, rfl, hgap, hinside⟩ :=
        cut_at_span place (hn a List.mem_cons_self) ha.1 ha.2
      have start : text.RestAt (piece a).start (inside ++ rest) := hgap ▸ place.append
      have stop : text.RestAt (piece a).stop rest := hinside ▸ start.append
      obtain ⟨news, hnews, hsplice⟩ := ih ⟨between, ordered⟩ each stop later
      obtain ⟨patch, within⟩ := here list hlist
      obtain ⟨others, behind⟩ := isPatch_flatten piece tail (List.pairwise_map.1 ordered) each
      have behind : ∀ c ∈ lists.flatten, (piece a).stop ≤ c.start ∧ c.start ≤ c.stop := by
        intro c hc
        obtain ⟨b, hb, hle⟩ := behind c hc
        exact ⟨Nat.le_trans (later b hb) hle, (others.inside c hc).1⟩
      have all : ∀ c ∈ list ++ lists.flatten, (piece a).start ≤ c.start ∧ c.start ≤ c.stop := by
        refine List.forall_mem_append.2 ⟨fun c hc => ?_, fun c hc => ?_⟩
        · exact ⟨(within c hc).low_le, (within c hc).start_le⟩
        · exact ⟨Nat.le_trans (piece a).start_le_stop (behind c hc).1, (behind c hc).2⟩
      have slice : text.slice (piece a).start (piece a).stop = inside := hinside ▸ start.slice_eq
      have before : (piece a).start - n = gap.width := by omega
      refine ⟨splice (piece a).start inside list :: news, .cons ⟨list, hlist, by rw [slice]⟩ hnews, ?_⟩
      calc splice n (gap ++ (inside ++ rest)) (list ++ lists.flatten)
          = gap ++ splice (piece a).start (inside ++ rest) (list ++ lists.flatten) := by
            have skip := splice_skip place start.isBoundary (hgap ▸ Nat.le_add_right _ _) all
            rwa [before, Text.upto_width, Text.after_width] at skip
        _ = gap ++ (splice (piece a).start inside list ++ splice (piece a).stop rest lists.flatten) := by
            rw [hinside] at behind ⊢
            rw [splice_append start patch.spansInOrder
              (fun c hc => ⟨(within c hc).low_le, hinside ▸ (within c hc).stop_le⟩) behind]
        _ = weave (gaps n (gap ++ (inside ++ rest)) ((a :: items).map piece))
              (splice (piece a).start inside list :: news) := by
            rw [List.map_cons, gaps_cons hgap hinside, weave, hsplice]
            simp only [List.append_assoc]

end TidyImports.Edit
