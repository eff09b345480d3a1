import TidyImports.Text.Basic

/-! Offsets between two characters of a text, given by what follows them. Facts about positions are
stated with the rest of the text at hand, so that they compose as the text is cut off at the
front. -/
namespace TidyImports.Text

theorem nil_of_width {t : Text} (h : width t = 0) : t = [] := by
  cases t with
  | nil => rfl
  | cons c t =>
      have := c.utf8Size_pos
      simp only [width_cons] at h
      omega

def RestAt (t : Text) (n : Nat) (rest : Text) : Prop := ∃ before, before ++ rest = t ∧ width before = n

theorem restAt_zero (t : Text) : RestAt t 0 t := ⟨[], rfl, rfl⟩

namespace RestAt

variable {t r s : Text} {n : Nat}

theorem append (h : RestAt t n (s ++ r)) : RestAt t (n + s.width) r := by
  obtain ⟨before, rfl, rfl⟩ := h
  exact ⟨before ++ s, by simp, width_append before s⟩

theorem tail {c : Char} (h : RestAt t n (c :: r)) : RestAt t (n + c.utf8Size) r := by
  simpa using append (s := [c]) h

theorem suffix (h : RestAt t n s) (hr : r <:+ s) : RestAt t (n + (s.width - r.width)) r := by
  obtain ⟨head, rfl⟩ := hr
  have hw : width (head ++ r) - width r = width head := by rw [width_append]; omega
  rw [hw]
  exact h.append

theorem isBoundary (h : RestAt t n r) : t.isBoundary n = true := by
  obtain ⟨before, rfl, rfl⟩ := h
  rw [Text.isBoundary, splitAt?_width]
  rfl

theorem add_width (h : RestAt t n r) : n + r.width = t.width := by
  obtain ⟨before, rfl, rfl⟩ := h
  exact (width_append before r).symm

theorem le_width (h : RestAt t n r) : n ≤ t.width := by
  have := h.add_width
  omega

theorem after_eq (h : RestAt t n r) : t.after n = r := by
  obtain ⟨before, rfl, rfl⟩ := h
  exact after_width before r

theorem unique (h : RestAt t n r) (hs : RestAt t n s) : r = s := h.after_eq.symm.trans hs.after_eq

theorem slice_eq (h : RestAt t n (s ++ r)) : t.slice n (n + s.width) = s := by
  have hw : n + s.width - n = s.width := by omega
  rw [slice, h.after_eq, hw, upto_width]

theorem split {m : Nat} (h : RestAt t n s) (k : RestAt t m r) (hle : n ≤ m) :
    ∃ mid, s = mid ++ r ∧ m = n + width mid := by
  obtain ⟨first, rfl, rfl⟩ := h
  obtain ⟨second, heq, rfl⟩ := k
  rcases List.append_eq_append_iff.1 heq with ⟨mid, rfl, rfl⟩ | ⟨mid, rfl, rfl⟩
  · have empty : mid = [] := by
      rw [width_append] at hle
      exact nil_of_width (by omega)
    simp [empty]
  · exact ⟨mid, rfl, width_append first mid⟩

theorem inner {part rest : Text} {m : Nat} (h : RestAt t n (part ++ rest)) (k : RestAt part m r) :
    RestAt t (n + m) (r ++ rest) := by
  obtain ⟨before, rfl, rfl⟩ := k
  rw [List.append_assoc] at h
  exact h.append

end RestAt

theorem restAt_of_isBoundary {t : Text} {n : Nat} (h : t.isBoundary n = true) :
    ∃ r, RestAt t n r := by
  obtain ⟨⟨s, r⟩, hs⟩ := Option.isSome_iff_exists.1 h
  obtain ⟨rfl, rfl⟩ := splitAt?_eq_some hs
  exact ⟨r, s, rfl, rfl⟩

theorem RestAt.isBoundary_inner {t part rest : Text} {n m : Nat} (h : RestAt t n (part ++ rest))
    (k : part.isBoundary m = true) : t.isBoundary (n + m) = true := by
  obtain ⟨r, hr⟩ := restAt_of_isBoundary k
  exact (h.inner hr).isBoundary

end TidyImports.Text
