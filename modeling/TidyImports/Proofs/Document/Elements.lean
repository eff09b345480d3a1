import Mathlib.Data.List.TakeWhile
import TidyImports.Proofs.Document.Placement

/-! The script elements of a component. Its blocks are the bodies of elements that stand one behind the
other, and an opening tag outside of all elements has no closing tag behind it. -/
namespace TidyImports.Text

variable {head t r : Text}

theorem stripFolded?_eq_some : stripFolded? head t = some r ↔
    ∃ name, name.map foldLetter = head ∧ t = name ++ r := by
  induction head generalizing t with
  | nil => simp [stripFolded?]
  | cons c head ih =>
      cases t with
      | nil =>
          refine ⟨by simp [stripFolded?], ?_⟩
          rintro ⟨name, hname, heq⟩
          rw [(List.append_eq_nil_iff.1 heq.symm).1] at hname
          simp at hname
      | cons d t =>
          rw [stripFolded?]
          split
          · next hd =>
            rw [ih]
            constructor
            · rintro ⟨name, hname, rfl⟩
              exact ⟨d :: name, by rw [List.map_cons, hname, ← hd], rfl⟩
            · rintro ⟨name, hname, heq⟩
              obtain ⟨e, name, rfl, -, rest⟩ := List.map_eq_cons_iff.1 hname
              exact ⟨name, rest, (List.cons.inj heq).2⟩
          · next hd =>
            refine ⟨by simp, ?_⟩
            rintro ⟨name, hname, heq⟩
            obtain ⟨e, name, rfl, he, -⟩ := List.map_eq_cons_iff.1 hname
            exact absurd (by rw [(List.cons.inj heq).1, he]) hd

end TidyImports.Text

namespace TidyImports.Document

variable {document t opening attributes inside body closing rest : Text} {element : ScriptElement}

/-- An opening script tag with its attributes, which are all that stands between the name and the first
angle bracket behind it. No word goes on behind the name. -/
inductive IsOpening : Text → Text → Prop
  | tag {name attributes : Text} (hname : name.map Text.foldLetter = "<script".toList)
      (ends : ∀ c ∈ attributes.head?, Text.isWordChar c = false) (first : '>' ∉ attributes) :
      IsOpening (name ++ (attributes ++ ['>'])) attributes

inductive IsClosing : Text → Prop
  | tag {name blanks : Text} (hname : name.map Text.foldLetter = "</script".toList)
      (hblanks : ∀ c ∈ blanks, Text.isBlank c = true) : IsClosing (name ++ (blanks ++ ['>']))

theorem openingTag?_eq_some : openingTag? t = some (attributes, inside) ↔
    ∃ opening, IsOpening opening attributes ∧ t = opening ++ inside := by
  constructor
  · intro h
    unfold openingTag? at h
    split at h
    · simp at h
    next behind hbehind =>
    obtain ⟨name, hname, rfl⟩ := Text.stripFolded?_eq_some.1 hbehind
    split at h
    next hends =>
      split at h
      · simp at h
      next c body hbody =>
      rw [Option.some.injEq, Prod.mk.injEq] at h
      obtain ⟨rfl, rfl⟩ := h
      have bracket : c = '>' := by
        have stops := List.head_dropWhile_not (· != '>') (l := behind) (by simp [hbody])
        simpa [hbody] using stops
      have whole := List.takeWhile_append_dropWhile (p := (· != '>')) (l := behind)
      rw [hbody, bracket] at whole
      refine ⟨_, .tag hname (fun d hd => ?_) fun hmem => ?_, ?_⟩
      · obtain ⟨more, hmore⟩ := List.head?_eq_some_iff.1 hd
        rw [← whole, hmore] at hends
        simpa [wordEnds] using hends
      · simpa using List.mem_takeWhile_imp hmem
      · rw [List.append_assoc, List.append_assoc, List.singleton_append, whole]
    · simp at h
  · rintro ⟨opening, @⟨name, attributes, hname, ends, first⟩, rfl⟩
    have named : Text.stripFolded? "<script".toList (name ++ (attributes ++ ['>']) ++ inside) =
        some (attributes ++ '>' :: inside) :=
      Text.stripFolded?_eq_some.2 ⟨name, hname, by simp⟩
    have ended : wordEnds (attributes ++ '>' :: inside) = true := by
      cases attributes with
      | nil => rfl
      | cons c more => simpa [wordEnds] using ends c rfl
    have before : ∀ c ∈ attributes, (c != '>') = true := by
      intro c hc
      rw [bne_iff_ne]
      exact fun heq => first (heq ▸ hc)
    have taken : ('>' :: inside).takeWhile (· != '>') = [] := rfl
    have left : ('>' :: inside).dropWhile (· != '>') = '>' :: inside := rfl
    rw [openingTag?, named]
    simp only [ended, if_true, List.takeWhile_append_of_pos before, List.dropWhile_append_of_pos before,
      taken, left, List.append_nil]

theorem closingTag?_eq_some : closingTag? t = some rest ↔
    ∃ closing, IsClosing closing ∧ t = closing ++ rest := by
  constructor
  · intro h
    unfold closingTag? at h
    split at h
    · simp at h
    next behind hbehind =>
    obtain ⟨name, hname, rfl⟩ := Text.stripFolded?_eq_some.1 hbehind
    have whole := List.takeWhile_append_dropWhile (p := Text.isBlank) (l := behind)
    rw [Text.stripHead?_eq_some.1 h] at whole
    have blanks : ∀ c ∈ behind.takeWhile Text.isBlank, Text.isBlank c = true :=
      fun c hc => List.mem_takeWhile_imp hc
    refine ⟨_, .tag hname blanks, ?_⟩
    rw [List.append_assoc, List.append_assoc, whole]
  · rintro ⟨closing, @⟨name, blanks, hname, hblanks⟩, rfl⟩
    have named : Text.stripFolded? "</script".toList (name ++ (blanks ++ ['>']) ++ rest) =
        some (blanks ++ '>' :: rest) :=
      Text.stripFolded?_eq_some.2 ⟨name, hname, by simp⟩
    have bracket : Text.isBlank '>' ≠ true := by decide
    rw [closingTag?, named]
    simp only [List.dropWhile_append_of_pos hblanks, List.dropWhile_cons_of_neg bracket]
    exact Text.stripHead?_eq_some.2 rfl

/-- Nothing is found from any place of a part of a text on; the rest is what follows the part. -/
def NoneWithin {α : Type} (find : Text → Option α) (part rest : Text) : Prop :=
  ∀ front back, part = front ++ back → back ≠ [] → find (back ++ rest) = none

theorem noneWithin_nil {α : Type} (find : Text → Option α) (rest : Text) :
    NoneWithin find [] rest := fun _ _ hback hne =>
  absurd (List.append_eq_nil_iff.1 hback.symm).2 hne

theorem NoneWithin.cons {α : Type} {find : Text → Option α} {c : Char} {part rest : Text}
    (h : NoneWithin find part rest) (here : find (c :: (part ++ rest)) = none) :
    NoneWithin find (c :: part) rest := by
  intro front back hback hne
  cases front with
  | nil =>
      obtain rfl : c :: part = back := hback
      exact here
  | cons d front => exact h front back (List.cons.inj hback).2 hne

theorem exists_closing_of_elementBody? (h : elementBody? t = some (body, rest)) :
    ∃ closing, IsClosing closing ∧ t = body ++ (closing ++ rest) ∧
      NoneWithin closingTag? body (closing ++ rest) := by
  induction t generalizing body with
  | nil => simp [elementBody?] at h
  | cons c t ih =>
      rw [elementBody?] at h
      split at h
      · next found hfound =>
        rw [Option.some.injEq, Prod.mk.injEq] at h
        obtain ⟨rfl, rfl⟩ := h
        obtain ⟨closing, hclosing, heq⟩ := closingTag?_eq_some.1 hfound
        exact ⟨closing, hclosing, heq, noneWithin_nil closingTag? _⟩
      · next hnone =>
        obtain ⟨⟨inner, behind⟩, hinner, heq⟩ := Option.map_eq_some_iff.1 h
        rw [Prod.mk.injEq] at heq
        obtain ⟨rfl, rfl⟩ := heq
        obtain ⟨closing, hclosing, rfl, apart⟩ := ih hinner
        exact ⟨closing, hclosing, rfl, apart.cons hnone⟩

theorem elementBody?_isSome_of_closing (front : Text) (h : IsClosing closing) :
    (elementBody? (front ++ (closing ++ rest))).isSome = true := by
  have here : closingTag? (closing ++ rest) = some rest := closingTag?_eq_some.2 ⟨closing, h, rfl⟩
  induction front with
  | nil =>
      rw [List.nil_append]
      generalize closing ++ rest = t at here
      cases t with
      | nil => cases here
      | cons c more =>
          rw [elementBody?, here]
          rfl
  | cons c front ih =>
      rw [List.cons_append, elementBody?]
      split
      · rfl
      · rw [Option.isSome_map]
        exact ih

def OpensElement (t : Text) : Prop := ∃ opening attributes between closing rest,
  IsOpening opening attributes ∧ IsClosing closing ∧ t = opening ++ (between ++ (closing ++ rest))

theorem elementHere?_isSome (h : OpensElement t) : (elementHere? t).isSome = true := by
  obtain ⟨opening, attributes, between, closing, rest, hopening, hclosing, rfl⟩ := h
  rw [elementHere?, openingTag?_eq_some.2 ⟨opening, hopening, rfl⟩]
  simp only [Option.isSome_map]
  exact elementBody?_isSome_of_closing between hclosing

/-- An element as it stands in a document: the offset of its opening tag, this tag with its attributes, the
body and the closing tag. -/
structure PlacedElement where
  start : Nat
  opening : Text
  attributes : Text
  body : Text
  closing : Text

namespace PlacedElement

def block (e : PlacedElement) : ScriptBlock :=
  ⟨e.start + Text.width e.opening, e.body, elementKind e.attributes, true⟩

def stop (e : PlacedElement) : Nat := e.block.span.stop + Text.width e.closing

/-- The element is a piece of the document, from an opening script tag to the nearest closing tag. -/
structure StandsIn (document : Text) (e : PlacedElement) : Prop where
  isOpening : IsOpening e.opening e.attributes
  isClosing : IsClosing e.closing
  unclosed : ∀ front tag back, e.body = front ++ (tag ++ back) → ¬ IsClosing tag
  placed : ∃ rest, document.RestAt e.start (e.opening ++ (e.body ++ (e.closing ++ rest)))

end PlacedElement

theorem IsOpening.ne_nil (h : IsOpening opening attributes) : opening ≠ [] := by
  cases h with
  | tag => simp

theorem IsClosing.ne_nil (h : IsClosing closing) : closing ≠ [] := by
  cases h with
  | tag => simp

theorem exists_tags_of_elementHere? (h : elementHere? t = some element) :
    ∃ opening closing, IsOpening opening element.attributes ∧ IsClosing closing ∧
      t = opening ++ element.bodyAndRest ∧
      element.bodyAndRest = element.body ++ (closing ++ element.rest) ∧
      ∀ front tag back, element.body = front ++ (tag ++ back) → ¬ IsClosing tag := by
  unfold elementHere? at h
  split at h
  · simp at h
  next attributes inside htag =>
  obtain ⟨⟨body, rest⟩, hbody, rfl⟩ := Option.map_eq_some_iff.1 h
  obtain ⟨opening, hopening, rfl⟩ := openingTag?_eq_some.1 htag
  obtain ⟨closing, hclosing, hinside, apart⟩ := exists_closing_of_elementBody? hbody
  refine ⟨opening, closing, hopening, hclosing, rfl, hinside, fun front tag back heq htag => ?_⟩
  have none := apart front (tag ++ back) heq (by simp [htag.ne_nil])
  rw [closingTag?_eq_some.2 ⟨tag, htag, List.append_assoc _ _ _⟩] at none
  cases none

theorem exists_gap_of_nextElement? (h : nextElement? t = some element) :
    ∃ gap here, t = gap ++ here ∧ elementHere? here = some element ∧
      NoneWithin elementHere? gap here := by
  induction t with
  | nil => simp [nextElement?] at h
  | cons c t ih =>
      rw [nextElement?] at h
      split at h
      · next found hfound =>
        obtain rfl := Option.some.inj h
        exact ⟨[], c :: t, rfl, hfound, noneWithin_nil elementHere? _⟩
      · next hnone =>
        obtain ⟨gap, here, rfl, hhere, apart⟩ := ih h
        exact ⟨c :: gap, here, rfl, hhere, apart.cons hnone⟩

theorem nextElement?_isSome (front : Text) (h : OpensElement t) :
    (nextElement? (front ++ t)).isSome = true := by
  have here := elementHere?_isSome h
  induction front with
  | nil =>
      rw [List.nil_append]
      cases t with
      | nil => cases here
      | cons c t =>
          obtain ⟨element, helement⟩ := Option.isSome_iff_exists.1 here
          rw [nextElement?, helement]
          rfl
  | cons c front ih =>
      rw [List.cons_append, nextElement?]
      split
      · rfl
      · exact ih

/-- Elements stand one behind the other in the rest of a document, and no opening tag is left out there
that has a closing tag behind it. -/
structure Tiled (document : Text) (n : Nat) (elements : List PlacedElement) : Prop where
  standing : ∀ e ∈ elements, e.StandsIn document
  behind : ∀ e ∈ elements, n ≤ e.start
  apart : elements.Pairwise fun a b => a.stop ≤ b.start
  complete : ∀ m r, n ≤ m → document.RestAt m r → OpensElement r →
    ∃ e ∈ elements, e.start ≤ m ∧ m < e.stop

variable {n : Nat} {elements : List PlacedElement} {first : PlacedElement}

theorem tiled_nil (h : document.RestAt n t) (none : nextElement? t = none) : Tiled document n [] where
  standing := by simp
  behind := by simp
  apart := List.Pairwise.nil
  complete m r hm hr opens := by
    obtain ⟨front, rfl, -⟩ := h.split hr hm
    have found := nextElement?_isSome front opens
    rw [none] at found
    cases found

theorem Tiled.cons (h : Tiled document first.stop elements) (stands : first.StandsIn document)
    (hn : n ≤ first.start)
    (gap : ∀ m r, n ≤ m → m < first.start → document.RestAt m r → ¬ OpensElement r) :
    Tiled document n (first :: elements) where
  standing := List.forall_mem_cons.2 ⟨stands, h.standing⟩
  behind := by
    refine List.forall_mem_cons.2 ⟨hn, fun e he => ?_⟩
    have := h.behind e he
    simp only [PlacedElement.stop, PlacedElement.block, ScriptBlock.span, Edit.Span.stop] at this
    omega
  apart := List.pairwise_cons.2 ⟨h.behind, h.apart⟩
  complete m r hm hr opens := by
    by_cases before : m < first.start
    · exact absurd opens (gap m r hm before hr)
    by_cases inside : m < first.stop
    · exact ⟨first, List.mem_cons_self, Nat.le_of_not_lt before, inside⟩
    · obtain ⟨e, he, covers⟩ := h.complete m r (Nat.le_of_not_lt inside) hr opens
      exact ⟨e, List.mem_cons_of_mem first he, covers⟩

theorem exists_placed_of_nextElement? (h : document.RestAt n t) (found : nextElement? t = some element) :
    ∃ e : PlacedElement, e.StandsIn document ∧ n ≤ e.start ∧
      e.block = ⟨document.width - element.bodyAndRest.width, element.body,
        elementKind element.attributes, true⟩ ∧
      document.RestAt e.stop element.rest ∧ element.rest.length < t.length ∧
      ∀ m r, n ≤ m → m < e.start → document.RestAt m r → ¬ OpensElement r := by
  obtain ⟨gap, here, rfl, hhere, none⟩ := exists_gap_of_nextElement? found
  obtain ⟨opening, closing, hopening, hclosing, rfl, hinside, unclosed⟩ :=
    exists_tags_of_elementHere? hhere
  have start := h.append
  have inside := start.append
  have total := inside.add_width
  have stop := inside
  rw [hinside] at stop
  refine ⟨⟨n + gap.width, opening, element.attributes, element.body, closing⟩,
    ⟨hopening, hclosing, unclosed, element.rest, ?_⟩, Nat.le_add_right n _, ?_, stop.append.append, ?_,
    fun m r hm before hr opens => ?_⟩
  · rw [← hinside]
    exact start
  · rw [PlacedElement.block, ← total, Nat.add_sub_cancel]
  · have some := List.length_pos_iff.2 hopening.ne_nil
    rw [hinside]
    simp only [List.length_append]
    omega
  · obtain ⟨front, hfront, -⟩ := h.split hr hm
    obtain ⟨back, rfl, hback⟩ := hr.split start (Nat.le_of_lt before)
    have parted : gap = front ++ back :=
      List.append_cancel_right (hfront.trans (List.append_assoc front back _).symm)
    have nothing := none front back parted fun hnil => by
      rw [hnil, Text.width_nil, Nat.add_zero] at hback
      exact absurd hback (Nat.ne_of_gt before)
    have here := elementHere?_isSome opens
    rw [nothing] at here
    cases here

theorem exists_tiled_elementBlocks (bound : Nat) (h : document.RestAt n t) (hbound : t.length ≤ bound) :
    ∃ elements : List PlacedElement,
      elementBlocks document bound t = elements.map PlacedElement.block ∧ Tiled document n elements := by
  -- By induction on the bound; each element takes at least one character of the text.
  induction bound generalizing t n with
  | zero =>
      obtain rfl := List.length_eq_zero_iff.1 (Nat.le_zero.1 hbound)
      exact ⟨[], rfl, tiled_nil h rfl⟩
  | succ bound ih =>
      rw [elementBlocks]
      split
      · next none => exact ⟨[], rfl, tiled_nil h none⟩
      · next element found =>
        obtain ⟨first, stands, hn, hblock, hstop, hlength, gap⟩ := exists_placed_of_nextElement? h found
        obtain ⟨elements, hblocks, tiled⟩ := ih hstop (by omega)
        exact ⟨first :: elements, by rw [hblocks, List.map_cons, hblock], tiled.cons stands hn gap⟩

theorem PlacedElement.stop_lt (e : PlacedElement) (h : IsClosing e.closing) :
    e.block.span.stop < e.stop := by
  have some : Text.width e.closing ≠ 0 := fun hzero => h.ne_nil (Text.nil_of_width hzero)
  rw [PlacedElement.stop]
  omega

theorem PlacedElement.start_le (e : PlacedElement) : e.start ≤ e.block.span.start :=
  Nat.le_add_right e.start _

/-- The blocks of a component are the bodies of its script elements: the elements stand in it one behind
the other, each from an opening tag to the nearest closing tag, the text of each block is the piece of
the component at its place, with something between two blocks, and every opening tag that has a closing
tag behind it starts in one of the elements. -/
theorem scriptBlocks_tile (text : Text) : ∃ elements : List PlacedElement,
    scriptBlocks .vue text = elements.map PlacedElement.block ∧
    (∀ e ∈ elements, e.StandsIn text) ∧
    elements.Pairwise (fun a b => a.stop ≤ b.start) ∧
    (scriptBlocks .vue text).Pairwise (fun a b => a.span.stop < b.span.start) ∧
    (∀ block ∈ scriptBlocks .vue text,
      text.slice block.span.start block.span.stop = block.text) ∧
    ∀ n r, text.RestAt n r → OpensElement r → ∃ e ∈ elements, e.start ≤ n ∧ n < e.stop := by
  obtain ⟨elements, hblocks, tiled⟩ :=
    exists_tiled_elementBlocks text.length (Text.restAt_zero text) (Nat.le_refl _)
  have listed : scriptBlocks .vue text = elements.map PlacedElement.block := hblocks
  have placed := (inOrder_scriptBlocks .vue text).placed
  refine ⟨elements, listed, tiled.standing, tiled.apart, ?_, fun block hblock => ?_,
    fun n r hr opens => tiled.complete n r (Nat.zero_le n) hr opens⟩
  · rw [listed, List.pairwise_map]
    refine tiled.apart.imp_of_mem fun {a b} ha hb hle => ?_
    exact (a.stop_lt (tiled.standing a ha).isClosing).trans_le (hle.trans b.start_le)
  · obtain ⟨rest, hrest⟩ := placed block hblock
    exact hrest.slice_eq

/-- A tag of another name, two elements, the first of which holds an opening tag, and a tag that is never
closed. -/
def sampleTags : Text :=
  "<scripty>é<script\nlang=\"ts\"><script>a</ſcript ><SCRIPT>b</script><script>".toList

theorem scriptBlocks_tile_sample : ∃ elements : List PlacedElement,
    scriptBlocks .vue sampleTags = elements.map PlacedElement.block ∧
    scriptBlocks .vue sampleTags =
      [⟨29, "<script>a".toList, .ts, true⟩, ⟨57, "b".toList, .jsx, true⟩] ∧
    sampleTags.RestAt 29 "<script>a</ſcript ><SCRIPT>b</script><script>".toList ∧
    OpensElement "<script>a</ſcript ><SCRIPT>b</script><script>".toList ∧
    ∃ e ∈ elements, e.start ≤ 29 ∧ 29 < e.stop := by
  obtain ⟨elements, listed, -, -, -, -, complete⟩ := scriptBlocks_tile sampleTags
  have place : sampleTags.RestAt 29 "<script>a</ſcript ><SCRIPT>b</script><script>".toList :=
    ⟨"<scripty>é<script\nlang=\"ts\">".toList, by decide, by decide⟩
  have opens : OpensElement "<script>a</ſcript ><SCRIPT>b</script><script>".toList :=
    ⟨_, _, "a".toList, _, "<SCRIPT>b</script><script>".toList,
      @IsOpening.tag "<script".toList [] (by decide) (by simp) (by simp),
      @IsClosing.tag "</ſcript".toList [' '] (by decide) (List.forall_mem_singleton.2 rfl), by decide⟩
  exact ⟨elements, listed, by decide +kernel, place, opens, complete 29 _ place opens⟩

end TidyImports.Document
