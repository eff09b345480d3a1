import TidyImports.Proofs.Document.Elements
import TidyImports.Proofs.Edit.Weaving

/-! Documents with other scripts in the place of their blocks. A script that holds no closing tag ends at
the tag that closed the old one, for no tag begins in a script and ends in the tag behind it; and whether
an opening tag stands in front of an element does not depend on what the element holds. So the blocks of
the new document are those of the old one with the new scripts in them. -/
namespace TidyImports.Document

variable {document document' t opening attributes inside behind back closing rest body new u : Text}
  {element : ScriptElement} {news : List Text} {n : Nat} {R : ScriptBlock → Text → Prop}

theorem eq_bracket_of_foldLetter {c : Char} (h : Text.foldLetter c = '<') : c = '<' := by
  unfold Text.foldLetter at h
  split at h
  · cases h
  split at h
  · cases h
  · unfold Char.toLower at h
    split at h
    · next upper =>
      have value : c.val + 32 = 60 := congrArg Char.val h
      have letter : 65 ≤ c.val ∧ c.val ≤ 90 := upper
      grind
    · exact h

theorem IsClosing.exists_name (h : IsClosing closing) : ∃ more, closing = '<' :: more ∧ '<' ∉ more := by
  obtain @⟨name, blanks, hname, blank⟩ := h
  have letters : "</script".toList = '<' :: "/script".toList := by decide
  rw [letters] at hname
  obtain ⟨c, letters, rfl, bracket, named⟩ := List.map_eq_cons_iff.1 hname
  obtain rfl := eq_bracket_of_foldLetter bracket
  refine ⟨_, rfl, fun mem => ?_⟩
  rcases List.mem_append.1 mem with mem | mem
  · have folded : Text.foldLetter '<' ∈ "/script".toList := named ▸ List.mem_map_of_mem mem
    exact absurd folded (by decide)
  · rcases List.mem_append.1 mem with mem | mem
    · exact absurd (blank _ mem) (by decide)
    · exact absurd mem (by decide)

theorem IsClosing.closes (h : IsClosing closing) (rest : Text) : closingTag? (closing ++ rest) = some rest :=
  closingTag?_eq_some.2 ⟨closing, h, rfl⟩

/-- No closing tag begins in a text that holds none and ends in the closing tag behind it. -/
theorem closingTag?_append (unclosed : closingTag? back = none) (inhabited : back ≠ [])
    (h : IsClosing closing) : closingTag? (back ++ (closing ++ rest)) = none := by
  rw [Option.eq_none_iff_forall_ne_some]
  intro r found
  obtain ⟨tag, isTag, whole⟩ := closingTag?_eq_some.1 found
  obtain ⟨more, rfl, single⟩ := isTag.exists_name
  obtain ⟨first, back, rfl⟩ := List.exists_cons_of_ne_nil inhabited
  obtain ⟨rfl, split⟩ := List.cons.inj whole
  rcases List.append_eq_append_iff.1 split with ⟨straddling, rfl, tail⟩ | ⟨left, rfl, -⟩
  · obtain ⟨name, rfl, -⟩ := h.exists_name
    cases straddling with
    | nil =>
        have closes := isTag.closes []
        rw [List.append_nil, List.append_nil, unclosed] at closes
        cases closes
    | cons d straddling =>
        obtain ⟨rfl, -⟩ := List.cons.inj tail
        simp at single
  · have closes := isTag.closes left
    rw [List.cons_append, unclosed] at closes
    cases closes

theorem elementBody?_append (unclosed : elementBody? new = none) (h : IsClosing closing) :
    elementBody? (new ++ (closing ++ rest)) = some (new, rest) := by
  induction new with
  | nil =>
      have closes := h.closes rest
      obtain ⟨name, rfl, -⟩ := h.exists_name
      rw [List.nil_append, List.cons_append, elementBody?, ← List.cons_append, closes]
  | cons c new ih =>
      rw [elementBody?] at unclosed
      split at unclosed
      · cases unclosed
      · next none =>
        have here : closingTag? (c :: (new ++ (closing ++ rest))) = Option.none :=
          closingTag?_append none (by simp) h
        rw [List.cons_append, elementBody?, here]
        simp only [ih (Option.map_eq_none_iff.1 unclosed), Option.map_some]

theorem IsOpening.exists_last (h : IsOpening opening attributes) :
    ∃ front, opening = front ++ ['>'] ∧ '>' ∉ front := by
  obtain @⟨name, attributes, named, -, first⟩ := h
  refine ⟨name ++ attributes, by simp, fun mem => ?_⟩
  rcases List.mem_append.1 mem with mem | mem
  · have folded : Text.foldLetter '>' ∈ "<script".toList := named ▸ List.mem_map_of_mem mem
    exact absurd folded (by decide)
  · exact first mem

theorem IsOpening.exists_between {tag others : Text} (h : IsOpening opening attributes)
    (isTag : IsOpening tag others) (whole : back ++ (tag ++ t) = opening ++ inside) :
    ∃ between, inside = between ++ t ∧ back ++ tag = opening ++ between := by
  rw [← List.append_assoc] at whole
  rcases List.append_eq_append_iff.1 whole with ⟨longer, rfl, rfl⟩ | ⟨between, split, rfl⟩
  · obtain ⟨name, rfl, -⟩ := isTag.exists_last
    obtain ⟨front, last, once⟩ := h.exists_last
    rcases List.eq_nil_or_concat longer with rfl | ⟨longer, c, rfl⟩
    · exact ⟨[], rfl, by simp⟩
    · rw [List.concat_eq_append, ← List.append_assoc] at last
      obtain ⟨rfl, -⟩ := List.append_inj' last rfl
      simp at once
  · exact ⟨between, rfl, split⟩

theorem elementHere?_congr {tag others : Text} (isTag : IsOpening tag others) (closed : IsClosing closing)
    (h : elementHere? (back ++ (tag ++ (body ++ (closing ++ rest)))) = none) (t : Text) :
    elementHere? (back ++ (tag ++ t)) = none := by
  rw [Option.eq_none_iff_forall_ne_some]
  intro element found
  obtain ⟨opening, _, isOpening, -, whole, -⟩ := exists_tags_of_elementHere? found
  obtain ⟨between, -, split⟩ := isOpening.exists_between isTag whole
  have opens : OpensElement (back ++ (tag ++ (body ++ (closing ++ rest)))) := by
    refine ⟨opening, element.attributes, between ++ body, closing, rest, isOpening, closed, ?_⟩
    rw [← List.append_assoc, split]
    simp
  have here := elementHere?_isSome opens
  rw [h] at here
  cases here

theorem nextElement?_append {gap : Text} (found : elementHere? t = some element)
    (h : NoneWithin elementHere? gap t) : nextElement? (gap ++ t) = some element := by
  induction gap with
  | nil =>
      cases t with
      | nil => cases found
      | cons c t =>
          rw [List.nil_append, nextElement?, found]
  | cons c gap ih =>
      have here := h [] (c :: gap) rfl (by simp)
      rw [List.cons_append] at here
      rw [List.cons_append, nextElement?, here]
      exact ih fun front back split => h (c :: front) back (by rw [split]; rfl)

theorem exists_nextElement_replaced (h : nextElement? t = some element) :
    ∃ before closing, t = before ++ element.bodyAndRest ∧
      element.bodyAndRest = element.body ++ (closing ++ element.rest) ∧ before ≠ [] ∧
      ∀ new rest, elementBody? new = none → nextElement? (before ++ (new ++ (closing ++ rest))) =
        some ⟨element.attributes, new ++ (closing ++ rest), new, rest⟩ := by
  obtain ⟨gap, here, rfl, found, none⟩ := exists_gap_of_nextElement? h
  obtain ⟨opening, closing, isOpening, isClosing, rfl, split, -⟩ := exists_tags_of_elementHere? found
  refine ⟨gap ++ opening, closing, by simp, split, by simp [isOpening.ne_nil], fun new rest unclosed => ?_⟩
  rw [List.append_assoc]
  refine nextElement?_append ?_ fun front back parted inhabited => ?_
  · rw [elementHere?, openingTag?_eq_some.2 ⟨opening, isOpening, rfl⟩]
    simp only [elementBody?_append unclosed isClosing, Option.map_some]
  · have nothing := none front back parted inhabited
    rw [split] at nothing
    exact elementHere?_congr isOpening isClosing nothing _

/-- A block in the place of another one, with a text that is related to the old block. -/
structure StandsFor (R : ScriptBlock → Text → Prop) (block block' : ScriptBlock) : Prop where
  related : R block block'.text
  kind : block'.kind = block.kind
  embedded : block'.embedded = block.embedded

theorem standsFor_elementBlocks
    (unclosed : ∀ block new, R block new → block.embedded = true → elementBody? new = none)
    (bound bound' : Nat) (h : document.RestAt n t) (hbound : t.length ≤ bound)
    (related : List.Forall₂ R (elementBlocks document bound t) news)
    (whole : Edit.weave (Edit.gaps n t ((elementBlocks document bound t).map ScriptBlock.span)) news = u)
    (hbound' : u.length ≤ bound') :
    List.Forall₂ (StandsFor R) (elementBlocks document bound t) (elementBlocks document' bound' u) := by
  -- By induction on the bound, that is on the elements of the old document.
  induction bound generalizing t u n news bound' with
  | zero =>
      obtain rfl := List.length_eq_zero_iff.1 (Nat.le_zero.1 hbound)
      cases related
      subst whole
      cases bound' <;> exact .nil
  | succ bound ih =>
      cases found : nextElement? t with
      | none =>
          simp only [elementBlocks, found] at related whole ⊢
          cases related
          subst whole
          cases bound' with
          | zero => exact .nil
          | succ bound' =>
              simp only [elementBlocks, List.map_nil, Edit.gaps, Edit.weave, found]
              exact .nil
      | some element =>
          simp only [elementBlocks, found] at related whole ⊢
          cases related with
          | @cons _ new _ news first more =>
          obtain ⟨before, closing, rfl, inside, inhabited, replaced⟩ := exists_nextElement_replaced found
          have place := h.append
          have total := place.add_width
          have start : document.width - element.bodyAndRest.width = n + before.width := by omega
          rw [start] at first whole ⊢
          rw [inside] at place whole hbound
          have behind := place.append.append
          obtain ⟨-, later⟩ := inOrder_elementBlocks bound behind
          have whole := (Edit.weave_gaps_around before element.body closing new news
            (List.forall_mem_map.2 later)).symm.trans whole
          have next := fun rest => replaced new rest (unclosed _ _ first rfl)
          subst whole
          have taken := List.length_pos_iff.2 inhabited
          simp only [List.length_append] at hbound hbound'
          obtain ⟨bound', rfl⟩ : ∃ b, bound' = b + 1 := ⟨bound' - 1, by omega⟩
          simp only [elementBlocks, next]
          exact .cons ⟨first, rfl, rfl⟩ (ih bound' behind (by omega) more rfl (by omega))

/-- The blocks of a document with new scripts in the place of its blocks are these scripts, as long as none
of them closes the element that it stands in. -/
theorem standsFor_scriptBlocks (kind : Kind)
    (unclosed : ∀ block new, R block new → block.embedded = true → elementBody? new = none)
    (related : List.Forall₂ R (scriptBlocks kind t) news) :
    List.Forall₂ (StandsFor R) (scriptBlocks kind t) (scriptBlocks kind
      (Edit.weave (Edit.gaps 0 t ((scriptBlocks kind t).map ScriptBlock.span)) news)) := by
  cases kind with
  | script kind =>
      cases related with
      | cons first more =>
      cases more
      have front : t.upto 0 = [] := Text.upto_width [] t
      have back : t.after (0 + t.width) = [] := by
        simpa using Text.after_width t []
      simp only [scriptBlocks, List.map_cons, List.map_nil, Edit.gaps, Edit.weave, ScriptBlock.span,
        Edit.Span.stop, Nat.sub_zero, front, back, List.nil_append, List.append_nil]
      exact .cons ⟨first, rfl, rfl⟩ .nil
  | vue =>
      exact standsFor_elementBlocks unclosed _ _ (Text.restAt_zero t) (Nat.le_refl _) related rfl
        (Nat.le_refl _)

end TidyImports.Document
