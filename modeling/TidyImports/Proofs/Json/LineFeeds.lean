import TidyImports.Proofs.Json.Comments

/-! Line numbers. Neither pass of the reduction leaves out a line feed, so every character that is kept
stands in the line that it stood in. What two passes leave out one after the other is said on the text
that the first one is given. -/
namespace TidyImports.Json

variable {marked first second : Text → Char → Text → Prop} {c : Char}
  {front behind s t before out rest : Text}

def Leaves (marked : Text → Char → Text → Prop) (front behind before : Text) : Prop :=
  Without (fun f c b => marked f c (b ++ behind)) [] front before

/-- What one of two passes leaves out, the second of which reads the result of the first. -/
inductive InTurn (first second : Text → Char → Text → Prop) (front : Text) (c : Char)
    (behind : Text) : Prop
  | first (h : first front c behind)
  | second {before after : Text} (hfront : Leaves first front (c :: behind) before)
    (hbehind : Without first (front ++ [c]) behind after) (h : second before c after)

/-- The characters that the reduction leaves out: those of comments but for line feeds, and the commas that
are trailing ones without the comments. -/
abbrev IsLeftOut : Text → Char → Text → Prop := InTurn IsDropped IsTrailing

theorem Without.append (h : Without (fun f c b => marked f c (b ++ t)) front s out)
    (k : Without marked (front ++ s) t rest) : Without marked front (s ++ t) (out ++ rest) := by
  induction s generalizing front out with
  | nil =>
      cases h
      rwa [List.append_nil] at k
  | cons c s ih =>
      rw [List.append_cons] at k
      cases h with
      | drop hc more => exact .drop hc (ih more k)
      | keep hc more => exact .keep hc (ih more k)

theorem Without.exists_append (h : Without marked front (s ++ t) out) : ∃ before rest,
    out = before ++ rest ∧ Without (fun f c b => marked f c (b ++ t)) front s before ∧
      Without marked (front ++ s) t rest := by
  induction s generalizing front out with
  | nil => exact ⟨[], out, rfl, .nil front, by rwa [List.append_nil]⟩
  | cons c s ih =>
      rw [List.append_cons]
      cases h with
      | drop hc more =>
          obtain ⟨before, rest, rfl, hbefore, hrest⟩ := ih more
          exact ⟨before, rest, rfl, .drop hc hbefore, hrest⟩
      | keep hc more =>
          obtain ⟨before, rest, rfl, hbefore, hrest⟩ := ih more
          exact ⟨c :: before, rest, rfl, .keep hc hbefore, hrest⟩

theorem Without.unique {other : Text} (h : Without marked front t out)
    (k : Without marked front t other) : out = other := by
  induction h generalizing other with
  | nil => cases k; rfl
  | drop h _ ih =>
      cases k with
      | drop _ rest => exact ih rest
      | keep kept => exact absurd h kept
  | keep h _ ih =>
      cases k with
      | drop dropped => exact absurd dropped h
      | keep _ rest => rw [ih rest]

theorem Without.lineFeeds_eq (h : Without marked front t out)
    (kept : ∀ front behind, ¬marked front '\n' behind) : out.lineFeeds = t.lineFeeds := by
  induction h with
  | nil => rfl
  | @drop front c t out hc _ ih =>
      have other : c ≠ '\n' := by
        rintro rfl
        exact kept front t hc
      rw [ih, Text.lineFeeds, Text.lineFeeds, List.count_cons_of_ne other]
  | @keep front c t out _ _ ih =>
      rw [Text.lineFeeds] at ih ⊢
      rw [List.count_cons, ih, Text.lineFeeds, Text.lineFeeds, List.count_cons]

theorem Leaves.concat {last : Text} (h : Leaves marked front (c :: behind) before)
    (hlast : Without (fun f d b => marked f d (b ++ behind)) front [c] last) :
    Leaves marked (front ++ [c]) behind (before ++ last) := by
  refine Without.append ?_ hlast
  simpa [Leaves] using h

theorem Leaves.drop (h : Leaves marked front (c :: behind) before) (hc : marked front c behind) :
    Leaves marked (front ++ [c]) behind before := by
  simpa using h.concat (.drop hc (.nil _))

theorem Leaves.keep (h : Leaves marked front (c :: behind) before) (hc : ¬marked front c behind) :
    Leaves marked (front ++ [c]) behind (before ++ [c]) :=
  h.concat (.keep hc (.nil _))

theorem Without.inTurn (h : Without first front t s) (hfront : Leaves first front t before)
    (k : Without second before s out) : Without (InTurn first second) front t out := by
  induction h generalizing before out with
  | nil =>
      cases k
      exact .nil _
  | drop hc _ ih => exact .drop (.first hc) (ih (hfront.drop hc) k)
  | keep hc more ih =>
      cases k with
      | drop dropped rest => exact .drop (.second hfront more dropped) (ih (hfront.keep hc) rest)
      | keep kept rest =>
          refine .keep ?_ (ih (hfront.keep hc) rest)
          rintro (dropped | ⟨hbefore, hbehind, dropped⟩)
          · exact hc dropped
          · rw [hbefore.unique hfront, hbehind.unique more] at dropped
            exact kept dropped

theorem Without.exists_kept (h : Without marked front (s ++ c :: t) out) (hc : ¬marked (front ++ s) c t) :
    ∃ before after, out = before ++ c :: after ∧
      Without (fun f d b => marked f d (b ++ c :: t)) front s before ∧
      Without marked (front ++ s ++ [c]) t after := by
  obtain ⟨before, rest, rfl, hbefore, hrest⟩ := h.exists_append
  cases hrest with
  | drop dropped => exact absurd dropped hc
  | keep _ more => exact ⟨before, _, rfl, hbefore, more⟩

theorem not_isLeftOut_lineFeed (front behind : Text) : ¬IsLeftOut front '\n' behind := by
  rintro (dropped | ⟨_, _, trailing⟩)
  · exact dropped.2 rfl
  · exact absurd trailing.comma (by decide)

theorem without_ofCommented (t : Text) : Without IsLeftOut [] t (ofCommented t) := by
  rw [ofCommented, stripTrailingCommas_eq]
  exact (without_stripComments t).inTurn (.nil []) (without_withoutTrailing [] (stripComments t))

/-- The reduction leaves out exactly the characters of comments but for line feeds, and the trailing commas.
So it keeps the number of line feeds, and each character that it keeps has as many of them before it as
in the text. There are no comments left for another first pass. -/
theorem ofCommented_keeps_lines (t : Text) :
    Without IsLeftOut [] t (ofCommented t) ∧
    (ofCommented t).lineFeeds = t.lineFeeds ∧
    (∀ front c behind, t = front ++ c :: behind → ¬IsLeftOut front c behind →
      ∃ before after, ofCommented t = before ++ c :: after ∧
        Leaves IsLeftOut front (c :: behind) before ∧ before.lineFeeds = front.lineFeeds) ∧
    stripComments (stripComments t) = stripComments t := by
  have exact := without_ofCommented t
  refine ⟨exact, exact.lineFeeds_eq not_isLeftOut_lineFeed, ?_, stripComments_stripComments t⟩
  rintro front c behind rfl kept
  obtain ⟨before, after, heq, hbefore, -⟩ := exact.exists_kept kept
  exact ⟨before, after, heq, hbefore, hbefore.lineFeeds_eq fun f b => not_isLeftOut_lineFeed f _⟩

theorem unclosed_keeps_lines :
    ofCommented "[1, /* one\n// */ ] // two\n\"".toList = "[1 \n ] \n\"".toList ∧
    ¬IsLeftOut "[1, /* one".toList '\n' "// */ ] // two\n\"".toList ∧
    ∃ before after, ofCommented "[1, /* one\n// */ ] // two\n\"".toList = before ++ '\n' :: after ∧
      Leaves IsLeftOut "[1, /* one".toList "\n// */ ] // two\n\"".toList before ∧
      before.lineFeeds = Text.lineFeeds "[1, /* one".toList := by
  have kept := not_isLeftOut_lineFeed "[1, /* one".toList "// */ ] // two\n\"".toList
  exact ⟨by decide, kept, (ofCommented_keeps_lines _).2.2.1 _ '\n' _ rfl kept⟩

end TidyImports.Json
