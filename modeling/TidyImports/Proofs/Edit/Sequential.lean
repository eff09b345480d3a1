import TidyImports.Proofs.Edit.Conflicts
import TidyImports.Proofs.Edit.Weaving

/-! Applying a patch in one pass and one change at a time. Both are written with slices that exist only
between offsets in order and between characters; for an accepted patch every slice exists, and the
two give one text. -/
namespace TidyImports.Text

variable {t s r : Text} {n : Nat}

/-- The text between two offsets; none if they are out of order, beyond the end or inside a
character. -/
def slice? (t : Text) (start stop : Nat) : Option Text :=
  if start ≤ stop then (t.splitAt? stop).bind fun (front, _) => (front.splitAt? start).map Prod.snd
  else none

theorem slice?_append (before s r : Text) :
    slice? (before ++ s ++ r) (width before) (width before + width s) = some s := by
  rw [slice?, if_pos (Nat.le_add_right _ _), ← width_append, splitAt?_width, Option.bind_some]
  simp only [splitAt?_width, Option.map_some]

theorem RestAt.slice?_eq (h : RestAt t n (s ++ r)) : t.slice? n (n + s.width) = some s := by
  obtain ⟨before, rfl, rfl⟩ := h
  rw [← List.append_assoc, slice?_append]

theorem RestAt.slice?_end (h : RestAt t n r) : t.slice? n t.width = some r := by
  rw [← h.add_width]
  exact slice?_eq (r := []) (by simpa using h)

end TidyImports.Text

namespace TidyImports.Edit

/-- One pass over a text from a cursor on: what lies in front of a change is copied, and the cursor goes
on behind the change. -/
def onePass? (text : Text) : Nat → List Change → Option Text
  | cursor, [] => text.slice? cursor text.width
  | cursor, c :: changes =>
    match text.slice? cursor c.start, onePass? text c.stop changes with
    | some gap, some rest => some (gap ++ c.text ++ rest)
    | _, _ => none

def replaceOnce? (text : Text) (c : Change) : Option Text :=
  match text.slice? 0 c.start, text.slice? c.stop text.width with
  | some before, some behind => some (before ++ c.text ++ behind)
  | _, _ => none

/-- The changes made one after the other, each in what the ones behind it left. -/
def lastToFirst? (text : Text) : List Change → Option Text
  | [] => some text
  | c :: changes => (lastToFirst? text changes).bind (replaceOnce? · c)

variable {text t : Text} {n : Nat} {changes ordered : List Change} {c : Change}

theorem spansInOrder_of_validate (h : validate text changes = .ok ordered) :
    SpansInOrder text (ordered.map Change.span) := by
  obtain ⟨fit, free, rfl⟩ := validate_eq_ok_iff.1 h
  constructor
  · refine List.forall_mem_map.2 fun c hc => ?_
    have fits := fit c ((inOrder_perm changes).mem_iff.1 hc)
    exact ⟨fits.start, fits.stop⟩
  · apply List.pairwise_map.2
    exact apart_of_disjoint (pairwise_inOrder changes) (disjoint_inOrder_iff.2 free)

theorem onePass?_eq_splice (inOrder : SpansInOrder text (changes.map Change.span))
    (h : text.RestAt n t) (hn : ∀ c ∈ changes, n ≤ c.start) :
    onePass? text n changes = some (splice n t changes) := by
  induction changes generalizing n t with
  | nil => exact h.slice?_end
  | cons c changes ih =>
      obtain ⟨hc, between⟩ := List.forall_mem_cons.1 inOrder.between
      obtain ⟨first, ordered⟩ := List.pairwise_cons.1 inOrder.ordered
      obtain ⟨gap, piece, behind, rfl, hstart, hstop⟩ :=
        cut_at_span h (hn c List.mem_cons_self) hc.1 hc.2
      have copied : text.slice? n c.start = some gap := by
        rw [Change.start, hstart]
        exact h.slice?_eq
      have next : text.RestAt c.stop behind := by
        rw [Change.stop, hstop, hstart]
        exact h.append.append
      have rest := ih ⟨between, ordered⟩ next fun d hd => first _ (List.mem_map_of_mem hd)
      rw [onePass?, copied, rest, splice_cons hstart hstop]

theorem replaceOnce?_eq {before piece behind : Text} (hstart : c.start = before.width)
    (hstop : c.stop = c.start + piece.width) :
    replaceOnce? (before ++ piece ++ behind) c = some (before ++ c.text ++ behind) := by
  have front : Text.slice? (before ++ piece ++ behind) 0 c.start = some before := by
    have place := Text.restAt_zero (before ++ (piece ++ behind))
    rw [hstart, ← Nat.zero_add (Text.width before), List.append_assoc]
    exact place.slice?_eq
  have back : Text.slice? (before ++ piece ++ behind) c.stop
      (Text.width (before ++ piece ++ behind)) = some behind := by
    have place : Text.RestAt (before ++ piece ++ behind) c.stop behind :=
      ⟨before ++ piece, rfl, by rw [Text.width_append]; omega⟩
    exact place.slice?_end
  rw [replaceOnce?, front, back]

theorem lastToFirst?_eq_splice {before : Text} (htext : before ++ t = text)
    (hbefore : before.width = n) (inOrder : SpansInOrder text (changes.map Change.span))
    (hn : ∀ c ∈ changes, n ≤ c.start) :
    lastToFirst? text changes = some (before ++ splice n t changes) := by
  induction changes generalizing n t before with
  | nil => rw [lastToFirst?, splice, htext]
  | cons c changes ih =>
      obtain ⟨hc, between⟩ := List.forall_mem_cons.1 inOrder.between
      obtain ⟨first, ordered⟩ := List.pairwise_cons.1 inOrder.ordered
      obtain ⟨gap, piece, behind, rfl, hstart, hstop⟩ :=
        cut_at_span ⟨before, htext, hbefore⟩ (hn c List.mem_cons_self) hc.1 hc.2
      have wider : Text.width (before ++ gap) = c.span.start := by
        rw [Text.width_append]
        omega
      have kept : Text.width (before ++ gap ++ piece) = c.stop := by
        rw [Text.width_append, wider]
        exact hstop.symm
      have rest := ih (by simpa using htext) kept ⟨between, ordered⟩
        fun d hd => first _ (List.mem_map_of_mem hd)
      rw [lastToFirst?, rest, Option.bind_some, replaceOnce?_eq wider.symm hstop,
        splice_cons hstart hstop]
      simp only [List.append_assoc]

/-- For an accepted list the one pass takes no slice that does not exist, and its text is the one that
the sorted changes make when they are applied one at a time from the last to the first. For a
rejected list there is the error and no text. -/
theorem apply_eq_lastToFirst (text : Text) (changes : List Change) :
    match validate text changes with
    | .ok ordered => ∃ result, apply text changes = .ok result ∧
        onePass? text 0 ordered = some result ∧ lastToFirst? text ordered = some result
    | .error e => apply text changes = .error e := by
  cases h : validate text changes with
  | error e => simp only [apply, h]
  | ok ordered =>
      have inOrder := spansInOrder_of_validate h
      have behind : ∀ c ∈ ordered, 0 ≤ c.start := fun c _ => Nat.zero_le _
      have whole : [] ++ text = text := rfl
      refine ⟨splice 0 text ordered, ?_, ?_, ?_⟩
      · simp only [apply, h]
      · exact onePass?_eq_splice inOrder (Text.restAt_zero text) behind
      · exact lastToFirst?_eq_splice whole rfl inOrder behind

end TidyImports.Edit
