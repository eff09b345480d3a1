import TidyImports.Document.Blocks
import TidyImports.Edit.Span
import TidyImports.Text.Offset

/-! Where the script blocks of a document stand. The text of a block is a piece of the document at
the block's offset, and blocks do not overlap; this follows the walk through the elements, in which
every step goes on with an end of what it was given. -/
namespace TidyImports.Text

theorem stripFolded?_suffix {head t r : Text} (h : stripFolded? head t = some r) : r <:+ t := by
  induction head generalizing t with
  | nil =>
      simp only [stripFolded?, Option.some.injEq] at h
      exact h ▸ List.suffix_rfl
  | cons c head ih =>
      cases t with
      | nil => simp [stripFolded?] at h
      | cons d t =>
          simp only [stripFolded?] at h
          split at h
          · exact (ih h).trans (List.suffix_cons d t)
          · simp at h

theorem stripHead?_suffix {head t r : Text} (h : stripHead? head t = some r) : r <:+ t :=
  ⟨head, (stripHead?_eq_some.1 h).symm⟩

end TidyImports.Text

namespace TidyImports.Document

theorem openingTag?_suffix {t attributes inside : Text}
    (h : openingTag? t = some (attributes, inside)) : inside <:+ t := by
  unfold openingTag? at h
  split at h
  · simp at h
  · next rest hrest =>
    split at h
    · split at h
      · simp at h
      · next c body hbody =>
        simp only [Option.some.injEq, Prod.mk.injEq] at h
        obtain ⟨-, rfl⟩ := h
        have hdrop : c :: body <:+ rest := hbody ▸ List.dropWhile_suffix _
        exact ((List.suffix_cons c body).trans hdrop).trans (Text.stripFolded?_suffix hrest)
    · simp at h

theorem closingTag?_suffix {t rest : Text} (h : closingTag? t = some rest) : rest <:+ t := by
  unfold closingTag? at h
  split at h
  · simp at h
  · next behind hbehind =>
    have hdrop := List.dropWhile_suffix (l := behind) Text.isBlank
    exact ((Text.stripHead?_suffix h).trans hdrop).trans (Text.stripFolded?_suffix hbehind)

theorem elementBody?_eq_some {t body rest : Text} (h : elementBody? t = some (body, rest)) :
    ∃ closing, t = body ++ closing ∧ rest <:+ closing := by
  induction t generalizing body with
  | nil => simp [elementBody?] at h
  | cons c t ih =>
      simp only [elementBody?] at h
      split at h
      · next found hfound =>
        simp only [Option.some.injEq, Prod.mk.injEq] at h
        obtain ⟨rfl, rfl⟩ := h
        exact ⟨c :: t, rfl, closingTag?_suffix hfound⟩
      · obtain ⟨⟨inner, behind⟩, hinner, he⟩ := Option.map_eq_some_iff.1 h
        simp only [Prod.mk.injEq] at he
        obtain ⟨rfl, rfl⟩ := he
        obtain ⟨closing, rfl, hrest⟩ := ih hinner
        exact ⟨closing, rfl, hrest⟩

/-- An element stands in a text: its body is inside, and its rest lies behind the body. -/
structure ScriptElement.PlacedIn (t : Text) (element : ScriptElement) : Prop where
  inside : element.bodyAndRest <:+ t
  behind : ∃ closing, element.bodyAndRest = element.body ++ closing ∧ element.rest <:+ closing

theorem elementHere?_placed {t : Text} {element : ScriptElement}
    (h : elementHere? t = some element) : element.PlacedIn t := by
  unfold elementHere? at h
  split at h
  · simp at h
  · next attributes inside htag =>
    obtain ⟨⟨body, rest⟩, hbody, rfl⟩ := Option.map_eq_some_iff.1 h
    exact ⟨openingTag?_suffix htag, elementBody?_eq_some hbody⟩

theorem nextElement?_placed {t : Text} {element : ScriptElement}
    (h : nextElement? t = some element) : element.PlacedIn t := by
  induction t with
  | nil => simp [nextElement?] at h
  | cons c t ih =>
      simp only [nextElement?] at h
      split at h
      · next found hfound =>
        simp only [Option.some.injEq] at h
        exact h ▸ elementHere?_placed hfound
      · have placed := ih h
        exact ⟨placed.inside.trans (List.suffix_cons c t), placed.behind⟩

def ScriptBlock.PlacedIn (document : Text) (block : ScriptBlock) : Prop :=
  ∃ rest, document.RestAt block.offset (block.text ++ rest)

def ScriptBlock.span (block : ScriptBlock) : Edit.Span := ⟨block.offset, Text.width block.text⟩

structure ScriptBlock.InOrder (document : Text) (blocks : List ScriptBlock) : Prop where
  placed : ∀ block ∈ blocks, block.PlacedIn document
  ordered : blocks.Pairwise fun a b => a.span.stop ≤ b.span.start

theorem inOrder_elementBlocks {document t : Text} {n : Nat} (bound : Nat)
    (h : document.RestAt n t) :
    ScriptBlock.InOrder document (elementBlocks document bound t) ∧
      ∀ block ∈ elementBlocks document bound t, n ≤ block.span.start := by
  -- By induction on the bound, that is on the elements found so far: all blocks stand behind the
  -- offset at which the walk goes on.
  induction bound generalizing t n with
  | zero => exact ⟨⟨by simp [elementBlocks], by simp [elementBlocks]⟩, by simp [elementBlocks]⟩
  | succ bound ih =>
      simp only [elementBlocks]
      split
      · exact ⟨⟨by simp, by simp⟩, by simp⟩
      · next element helement =>
        obtain ⟨inside, closing, hbody, hrest⟩ := nextElement?_placed helement
        have place := h.suffix inside
        have total := place.add_width
        have offset : n + (t.width - element.bodyAndRest.width) =
            document.width - element.bodyAndRest.width := by omega
        have here : document.RestAt (document.width - element.bodyAndRest.width)
            (element.body ++ closing) := by
          rw [← offset, ← hbody]
          exact place
        obtain ⟨⟨placed, ordered⟩, behind⟩ := ih (here.append.suffix hrest)
        refine ⟨⟨List.forall_mem_cons.2 ⟨⟨closing, here⟩, placed⟩,
          List.pairwise_cons.2 ⟨fun block hblock => ?_, ordered⟩⟩,
          List.forall_mem_cons.2 ⟨?_, fun block hblock => ?_⟩⟩
        · have hle := behind block hblock
          simp only [ScriptBlock.span, Edit.Span.stop] at hle ⊢
          omega
        · simp only [ScriptBlock.span]
          omega
        · have := behind block hblock
          omega

theorem inOrder_scriptBlocks (kind : Kind) (text : Text) :
    ScriptBlock.InOrder text (scriptBlocks kind text) := by
  cases kind with
  | script kind =>
      refine ⟨?_, by simp [scriptBlocks]⟩
      simp only [scriptBlocks, List.mem_singleton, forall_eq]
      exact ⟨[], by simpa using Text.restAt_zero text⟩
  | vue => exact (inOrder_elementBlocks text.length (Text.restAt_zero text)).1

end TidyImports.Document
