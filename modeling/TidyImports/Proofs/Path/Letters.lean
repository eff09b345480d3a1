import TidyImports.Path.Extension
import TidyImports.Proofs.Path.Canonical

/-! The characters of a path. Cleaning, joining and taking off an ending bring in slashes and nothing
else. -/
namespace TidyImports.Path

variable {base path : Text} {stack segments : List Text} {letters : List Char} {t rest : Text}

theorem pushSegment_subset (rooted : Bool) (stack : List Text) (segment : Text) :
    pushSegment rooted stack segment ⊆ segment :: stack := by
  unfold pushSegment
  split
  · exact List.subset_cons_self segment stack
  split
  · cases stack with
    | nil => cases rooted <;> simp
    | cons top below =>
        simp only
        split
        · cases rooted <;> simp
        · exact List.subset_cons_of_subset _ (List.subset_cons_self top below)
  · exact List.Subset.refl _

theorem foldl_pushSegment_subset (rooted : Bool) (segments stack : List Text) :
    segments.foldl (pushSegment rooted) stack ⊆ segments ++ stack := by
  induction segments generalizing stack with
  | nil => exact List.Subset.refl _
  | cons segment segments ih =>
      intro p hp
      have pushed := ih (pushSegment rooted stack segment) hp
      have top := @pushSegment_subset rooted stack segment p
      simp only [List.mem_append, List.mem_cons] at pushed top ⊢
      tauto

theorem foldSegments_subset (rooted : Bool) (segments : List Text) :
    foldSegments rooted segments ⊆ segments := by
  intro p hp
  have folded := foldl_pushSegment_subset rooted segments [] (List.mem_reverse.1 hp)
  rwa [List.append_nil] at folded

theorem closeRoot_subset (root : Text) : closeRoot root ⊆ '/' :: root := by
  unfold closeRoot
  split
  · exact List.subset_cons_self '/' root
  · simp [List.append_subset]

theorem clean_subset (path : Text) : clean path ⊆ '/' :: normalizeSeparators path := by
  have whole := splitRoot_append (normalizeSeparators path)
  have folded (rooted : Bool) : Text.glue ['/'] (foldSegments rooted
      ((splitRoot (normalizeSeparators path)).2.pieces '/')) ⊆ '/' :: normalizeSeparators path := by
    intro c hc
    rcases Text.mem_glue hc with rfl | ⟨p, hp, hc⟩
    · exact List.mem_cons_self
    · have piece := Text.mem_of_mem_pieces (foldSegments_subset rooted _ hp) hc
      rw [← whole]
      exact List.mem_cons_of_mem '/' (List.mem_append_right _ piece)
  have root : closeRoot (splitRoot (normalizeSeparators path)).1 ⊆
      '/' :: normalizeSeparators path := by
    refine List.Subset.trans (closeRoot_subset _) (List.cons_subset_cons '/' ?_)
    conv => rhs; rw [← whole]
    exact List.subset_append_left _ _
  rw [clean]
  simp only
  split
  · exact folded _
  · exact List.append_subset.2 ⟨root, folded _⟩

theorem append_subset (base path : Text) :
    append base path ⊆ '/' :: (base ++ normalizeSeparators path) := by
  rw [append]
  split
  · exact List.subset_cons_of_subset '/' (List.subset_append_right base _)
  split
  · exact List.subset_cons_self '/' _
  · intro c hc
    simp only [List.mem_append, List.mem_cons] at hc ⊢
    tauto

theorem join_subset (base path : Text) : join base [path] ⊆
    '/' :: (normalizeSeparators base ++ normalizeSeparators path) := by
  have joined := append_subset (normalizeSeparators base) path
  have plain : '\\' ∉ append (normalizeSeparators base) path := by
    intro hback
    have either := joined hback
    simp only [List.mem_cons, List.mem_append] at either
    rcases either with hslash | hbase | hpath
    · exact absurd hslash (by decide)
    · exact no_backslash_normalizeSeparators base hbase
    · exact no_backslash_normalizeSeparators path hpath
  refine List.Subset.trans (clean_subset (append (normalizeSeparators base) path)) ?_
  rw [normalizeSeparators_eq_self plain]
  exact List.cons_subset.2 ⟨List.mem_cons_self, joined⟩

theorem takeFolded_suffix (h : takeFolded letters t = some rest) : rest <:+ t := by
  cases t with
  | nil => simp [takeFolded] at h
  | cons c t =>
      rw [takeFolded] at h
      split at h
      · exact Option.some.inj h ▸ List.suffix_cons c t
      · simp at h

theorem takeFoldedOptional_suffix (letters : List Char) (t : Text) :
    takeFoldedOptional letters t <:+ t := by
  cases h : takeFolded letters t with
  | none => simp [takeFoldedOptional, h]
  | some rest => simpa [takeFoldedOptional, h] using takeFolded_suffix h

theorem takeDot_suffix (h : takeDot t = some rest) : rest <:+ t := by
  unfold takeDot at h
  split at h
  · exact Option.some.inj h ▸ List.suffix_cons '.' _
  · simp at h

theorem dropModuleReversed_suffix (h : dropModuleReversed t = some rest) : rest <:+ t := by
  unfold dropModuleReversed at h
  split at h
  · next below hbelow =>
    obtain ⟨one, hone, htwo⟩ := Option.bind_eq_some_iff.1 hbelow
    exact (takeDot_suffix h).trans ((takeFoldedOptional_suffix _ below).trans
      ((takeFolded_suffix htwo).trans (takeFolded_suffix hone)))
  · obtain ⟨three, hthree, hdot⟩ := Option.bind_eq_some_iff.1 h
    obtain ⟨two, htwo, hletter⟩ := Option.bind_eq_some_iff.1 hthree
    obtain ⟨one, hone, hs⟩ := Option.bind_eq_some_iff.1 htwo
    exact (takeDot_suffix hdot).trans ((takeFolded_suffix hletter).trans
      ((takeFolded_suffix hs).trans (takeFolded_suffix hone)))

theorem stripModuleExtension_subset (name : Text) : stripModuleExtension name ⊆ name := by
  cases h : dropModuleReversed name.reverse with
  | none => simp [stripModuleExtension, h]
  | some shorter =>
      intro c hc
      simp only [stripModuleExtension, h, Option.map_some, Option.getD_some, List.mem_reverse] at hc
      exact List.mem_reverse.1 ((dropModuleReversed_suffix h).subset hc)

end TidyImports.Path
