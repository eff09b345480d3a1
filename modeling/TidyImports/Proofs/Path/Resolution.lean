import TidyImports.Proofs.Path.Operations

/-! Resolution of paths from the last one back. It leads where following the paths from the first one on
leads, but for an empty path that others follow: glued before them, it makes a root. -/
namespace TidyImports.Path

variable {base cwd path resolved drive : Text} {segments front back others paths : List Text}

/-- The paths with a root in the place of every empty one that a path with a text follows. -/
def grounded : List Text → List Text
  | [] => []
  | path :: paths => (if path = [] ∧ ∃ next ∈ paths, next ≠ [] then ['/'] else path) :: grounded paths

theorem grounded_singleton (path : Text) : grounded [path] = [path] := by simp [grounded]

theorem grounded_pair (path resolved : Text) : grounded [path, resolved] =
    [if path = [] ∧ resolved ≠ [] then ['/'] else path, resolved] := by simp [grounded]

theorem grounded_append_nil (paths : List Text) : grounded (paths ++ [[]]) = grounded paths ++ [[]] := by
  induction paths with
  | nil => rfl
  | cons path paths ih => simp [grounded, ih]

theorem exists_grounded_append (front : List Text)
    (h : (∃ next ∈ back, next ≠ []) ↔ ∃ next ∈ others, next ≠ []) :
    ∃ start, grounded (front ++ back) = start ++ grounded back ∧
      grounded (front ++ others) = start ++ grounded others := by
  induction front with
  | nil => exact ⟨[], rfl, rfl⟩
  | cons path front ih =>
      obtain ⟨start, hback, hothers⟩ := ih
      have same : (∃ next ∈ front ++ back, next ≠ []) ↔ ∃ next ∈ front ++ others, next ≠ [] := by
        simp only [List.mem_append, or_and_right, exists_or, h]
      simp only [List.cons_append, grounded, hback, hothers, same]
      exact ⟨_ :: start, rfl, rfl⟩

theorem LeadsTo.areSegments (h : LeadsTo path drive segments) : ∀ s ∈ segments, IsSegment s := by
  obtain ⟨rest, start, rfl⟩ := h
  exact segments_foldSegments start.plain

theorem plain_pieces (path : Text) :
    ∀ s ∈ (normalizeSeparators path).pieces '/', '/' ∉ s ∧ '\\' ∉ s := fun s hs =>
  ⟨Text.not_mem_of_mem_pieces '/' _ s hs,
    fun hback => no_backslash_normalizeSeparators path (Text.mem_of_mem_pieces hs hback)⟩

theorem LeadsTo.append_nil (h : LeadsTo base drive segments) :
    LeadsTo (Path.append base []) drive segments := by
  have free : Path.isRooted [] = false := rfl
  have leads := h.append free
  have closed : foldSegments true (segments ++ (normalizeSeparators []).pieces '/') = segments :=
    foldSegments_closed h.areSegments
  rwa [closed] at leads

theorem join_append_nil (h : isRooted base = true) (paths : List Text) :
    join base (paths ++ [[]]) = join base paths := by
  rw [← isRooted_normalizeSeparators] at h
  obtain ⟨drive, segments, leads⟩ := exists_leadsTo (isRooted_foldl_append h paths)
  rw [join, List.foldl_append, List.foldl_cons, List.foldl_nil, leads.append_nil.clean_eq, join,
    leads.clean_eq]

theorem join_singleton (h : isRooted base = true) (hfree : isRooted path = false) :
    join base [path] = clean (base ++ ['/'] ++ path) := by
  obtain ⟨drive, segments, leads⟩ := exists_leadsTo h
  rw [join, List.foldl_cons, List.foldl_nil, (leads.normalize.append hfree).clean_eq,
    List.append_assoc, List.singleton_append, (leads.slash_append path).clean_eq]

theorem isRooted_or_nil_of_slash (h : isRooted (path ++ '/' :: resolved) = true) :
    isRooted path = true ∨ path = [] := by
  obtain ⟨drive, rest, hdrive, hslash, heq⟩ := exists_startsAt h
  rw [normalizeSeparators_append] at heq
  cases hdrive with
  | none =>
      obtain ⟨more, rfl⟩ := hslash rfl
      cases hpath : normalizeSeparators path with
      | nil => exact .inr (List.map_eq_nil_iff.1 hpath)
      | cons c behind =>
          rw [hpath, List.cons_append, List.nil_append, List.cons.injEq] at heq
          have start : StartsAt path [] ('/' :: behind) :=
            ⟨.none, fun _ => ⟨behind, rfl⟩, by rw [hpath, heq.1, List.nil_append]⟩
          exact .inl start.isRooted
  | @letter c hc =>
      have slash : '/' ≠ c := Ne.symm (ne_of_isAsciiLetter hc (by decide))
      match hpath : normalizeSeparators path with
      | [] => exact .inr (List.map_eq_nil_iff.1 hpath)
      | [d] =>
          rw [hpath] at heq
          exact absurd (List.cons.inj (List.cons.inj heq).2).1 (by decide)
      | d :: e :: behind =>
          rw [hpath] at heq
          obtain ⟨hd, heq⟩ := List.cons.inj heq
          have start : StartsAt path [c, ':'] behind :=
            ⟨.letter hc, by simp, by rw [hpath, hd, (List.cons.inj heq).1]; rfl⟩
          exact .inl start.isRooted

theorem preceded_nil (path : Text) : preceded path [] = normalizeSeparators path := rfl

theorem preceded_of_ne_nil (path : Text) (h : resolved ≠ []) :
    preceded path resolved = normalizeSeparators path ++ '/' :: resolved := by
  rw [preceded, List.isEmpty_eq_false_iff.2 h, if_neg (by decide), List.append_assoc,
    List.singleton_append]

theorem preceded_eq_nil_iff : preceded path resolved = [] ↔ path = [] ∧ resolved = [] := by
  by_cases h : resolved = []
  · rw [h, preceded_nil, normalizeSeparators, List.map_eq_nil_iff, eq_self, and_true]
  · simp [preceded_of_ne_nil path h, h]

theorem LeadsTo.preceded (h : LeadsTo path drive segments) (resolved : Text) :
    LeadsTo (preceded path resolved) drive
      (foldSegments true (segments ++ (normalizeSeparators resolved).pieces '/')) := by
  by_cases hresolved : resolved = []
  · have closed : foldSegments true (segments ++ (normalizeSeparators []).pieces '/') = segments :=
      foldSegments_closed h.areSegments
    rw [hresolved, preceded_nil, closed]
    exact h.normalize
  · rw [preceded_of_ne_nil path hresolved]
    exact h.normalize.slash_append resolved

theorem leadsTo_slash (rest : Text) :
    LeadsTo ('/' :: rest) [] (foldSegments true ((normalizeSeparators rest).pieces '/')) :=
  ⟨'/' :: normalizeSeparators rest, ⟨.none, fun _ => ⟨_, rfl⟩, rfl⟩, rfl⟩

theorem isRooted_preceded_iff : isRooted (preceded path resolved) = true ↔
    isRooted path = true ∨ path = [] ∧ resolved ≠ [] := by
  constructor
  · intro h
    by_cases hresolved : resolved = []
    · rw [hresolved, preceded_nil, isRooted_normalizeSeparators] at h
      exact .inl h
    · rw [preceded_of_ne_nil path hresolved] at h
      refine (isRooted_or_nil_of_slash h).imp (fun rooted => ?_) fun empty => ⟨?_, hresolved⟩
      · rwa [isRooted_normalizeSeparators] at rooted
      · exact List.map_eq_nil_iff.1 empty
  · rintro (rooted | ⟨rfl, hresolved⟩)
    · obtain ⟨drive, segments, leads⟩ := exists_leadsTo rooted
      exact (leads.preceded resolved).isRooted
    · rw [preceded_of_ne_nil [] hresolved]
      exact (leadsTo_slash resolved).isRooted

theorem clean_append_rooted (base : Text) (h : isRooted path = true) (hfree : isRooted resolved = false) :
    clean (append (append base path) resolved) = clean (preceded path resolved) := by
  obtain ⟨drive, segments, leads⟩ := exists_leadsTo h
  rw [append_rooted base h, (leads.normalize.append hfree).clean_eq,
    (leads.preceded resolved).clean_eq]

theorem clean_append_slash (base : Text) (hfree : isRooted resolved = false) :
    clean (append (append base ['/']) resolved) = clean ('/' :: resolved) := by
  have slash : isRooted ['/'] = true := by decide
  have leads := (leadsTo_slash []).normalize.append hfree
  rw [append_rooted base slash, leads.clean_eq, (leadsTo_slash resolved).clean_eq]
  rfl

theorem clean_append_glued (h : isRooted base = true) (hglued : isRooted (preceded path resolved) = false)
    (hfree : isRooted resolved = false) :
    clean (append (append base path) resolved) = clean (append base (preceded path resolved)) := by
  obtain ⟨drive, segments, leads⟩ := exists_leadsTo h
  have hpath : isRooted path = false :=
    Bool.eq_false_iff.2 fun rooted => Bool.eq_false_iff.1 hglued (isRooted_preceded_iff.2 (.inl rooted))
  have plain : ∀ s ∈ segments ++ (normalizeSeparators path).pieces '/', '/' ∉ s ∧ '\\' ∉ s :=
    List.forall_mem_append.2 ⟨fun s hs => ⟨(leads.areSegments s hs).no_slash,
      (leads.areSegments s hs).no_backslash⟩, plain_pieces path⟩
  rw [((leads.append hpath).append hfree).clean_eq, (leads.append hglued).clean_eq,
    foldSegments_foldSegments_append plain]
  by_cases hresolved : resolved = []
  · rw [hresolved, preceded_nil, normalizeSeparators_normalizeSeparators]
    exact congrArg (fun folded => drive ++ '/' :: Text.glue ['/'] folded) (foldSegments_append_nil _)
  · have glued : normalizeSeparators (normalizeSeparators path ++ '/' :: resolved) =
        normalizeSeparators path ++ '/' :: normalizeSeparators resolved := by
      rw [normalizeSeparators_append, normalizeSeparators_normalizeSeparators]
      rfl
    rw [preceded_of_ne_nil path hresolved, glued, Text.pieces_append_cons, List.append_assoc]

/-- The paths that are still to come and what was resolved so far lead where following them leads. -/
theorem resolveFrom_eq_join (h : Canonical cwd) (front : List Text)
    (hfree : isRooted resolved = false) :
    resolveFrom cwd front.reverse resolved = join cwd (grounded (front ++ [resolved])) := by
  -- By induction from the last path on: what was resolved so far counts as one path.
  induction front using List.reverseRecOn generalizing resolved with
  | nil => simp [resolveFrom, grounded, join_singleton h.isRooted hfree]
  | append_singleton front path ih =>
      have some : (∃ next ∈ [path, resolved], next ≠ []) ↔
          ∃ next ∈ [preceded path resolved], next ≠ [] := by
        simp [preceded_eq_nil_iff, imp_iff_not_or]
      obtain ⟨start, hpair, hglued⟩ := exists_grounded_append front some
      have led : isRooted (start.foldl append (normalizeSeparators cwd)) = true :=
        isRooted_foldl_append (by rw [isRooted_normalizeSeparators]; exact h.isRooted) start
      rw [List.reverse_append, List.reverse_singleton, List.singleton_append, resolveFrom,
        List.append_assoc, List.singleton_append, hpair, join, List.foldl_append]
      by_cases hnow : isRooted (preceded path resolved) = true
      · rw [if_pos hnow]
        rcases isRooted_preceded_iff.1 hnow with rooted | hground
        · have hne : ¬ (path = [] ∧ resolved ≠ []) := by
            rintro ⟨rfl, -⟩
            exact absurd rooted (by decide)
          rw [grounded_pair, if_neg hne]
          exact (clean_append_rooted _ rooted hfree).symm
        · rw [grounded_pair, if_pos hground, hground.1, preceded_of_ne_nil [] hground.2]
          exact (clean_append_slash _ hfree).symm
      · have hne : ¬ (path = [] ∧ resolved ≠ []) :=
          fun ground => hnow (isRooted_preceded_iff.2 (.inr ground))
        have hglue : isRooted (preceded path resolved) = false := Bool.eq_false_iff.2 hnow
        rw [if_neg hnow, ih hglue, hglued, grounded_singleton, grounded_pair, if_neg hne, join,
          List.foldl_append]
        exact (clean_append_glued led hglue hfree).symm

/-- Every empty path is followed by empty ones alone, or by some path with a root. -/
def KeepsEmpty (paths : List Text) : Prop := ∀ front back, paths = front ++ [] :: back →
  (∀ next ∈ back, next = []) ∨ ∃ next ∈ back, isRooted next = true

theorem keepsEmpty_nil : KeepsEmpty [] := by simp [KeepsEmpty]

theorem keepsEmpty_cons : KeepsEmpty (path :: paths) ↔
    (path = [] → (∀ next ∈ paths, next = []) ∨ ∃ next ∈ paths, isRooted next = true) ∧
      KeepsEmpty paths := by
  constructor
  · intro h
    refine ⟨?_, fun front back heq => h (path :: front) back (congrArg (path :: ·) heq)⟩
    rintro rfl
    exact h [] paths rfl
  · rintro ⟨hpath, hpaths⟩ front back heq
    cases front with
    | nil =>
        obtain ⟨rfl, rfl⟩ := List.cons.inj heq
        exact hpath rfl
    | cons first front => exact hpaths front back (List.cons.inj heq).2

instance decidableKeepsEmpty : (paths : List Text) → Decidable (KeepsEmpty paths)
  | [] => .isTrue keepsEmpty_nil
  | _ :: paths =>
    have := decidableKeepsEmpty paths
    decidable_of_iff _ keepsEmpty_cons.symm

theorem foldl_append_of_rooted (h : ∃ next ∈ paths, isRooted next = true) (base other : Text) :
    paths.foldl append base = paths.foldl append other := by
  induction paths generalizing base other with
  | nil => simp at h
  | cons path paths ih =>
      rw [List.foldl_cons, List.foldl_cons]
      cases hpath : isRooted path with
      | true => rw [append_rooted base hpath, append_rooted other hpath]
      | false =>
          obtain ⟨next, hnext, rooted⟩ := h
          rcases List.mem_cons.1 hnext with rfl | hnext
          · rw [hpath] at rooted
            exact absurd rooted (by decide)
          · exact ih ⟨next, hnext, rooted⟩ _ _

theorem foldl_append_grounded (h : KeepsEmpty paths) (base : Text) :
    (grounded paths).foldl append base = paths.foldl append base := by
  induction paths generalizing base with
  | nil => rfl
  | cons path paths ih =>
      obtain ⟨here, behind⟩ := keepsEmpty_cons.1 h
      rw [grounded, List.foldl_cons, List.foldl_cons, ih behind]
      split
      · next hpath =>
        obtain ⟨rfl, next, hnext, hne⟩ := hpath
        have rooted := (here rfl).resolve_left fun empty => hne (empty next hnext)
        exact foldl_append_of_rooted rooted _ _
      · rfl

/-- From a canonical current directory paths are resolved to where following them leads, with a root in the
place of every empty path that a text follows; where no such root counts, just to where following them
leads. -/
theorem resolve_eq_join (h : Canonical cwd) (paths : List Text) :
    resolve cwd paths = join cwd (grounded paths) ∧
    (KeepsEmpty paths → resolve cwd paths = join cwd paths) := by
  have grounds : resolve cwd paths = join cwd (grounded paths) := by
    rw [resolve, resolveFrom_eq_join h paths (by decide), grounded_append_nil,
      join_append_nil h.isRooted]
  refine ⟨grounds, fun kept => ?_⟩
  rw [grounds, join, foldl_append_grounded kept, join]

theorem resolve_eq_join_at_drive : Canonical "/p/q".toList ∧
    KeepsEmpty ["a".toList, [], "C:x".toList, "..\\b".toList, []] ∧
    resolve "/p/q".toList ["a".toList, [], "C:x".toList, "..\\b".toList, []] =
      join "/p/q".toList ["a".toList, [], "C:x".toList, "..\\b".toList, []] ∧
    resolve "/p/q".toList ["a".toList, [], "C:x".toList, "..\\b".toList, []] = "C:/b".toList := by
  have canonical : Canonical "/p/q".toList := by decide
  have kept : KeepsEmpty ["a".toList, [], "C:x".toList, "..\\b".toList, []] := by decide
  exact ⟨canonical, kept, (resolve_eq_join canonical _).2 kept, by decide⟩

/-- An empty path is glued before the next one as a root, and the current directory is lost. -/
theorem resolve_behind_empty : Canonical "/p".toList ∧
    resolve "/p".toList [[], "a".toList] = "/a".toList ∧
    join "/p".toList [[], "a".toList] = "/p/a".toList := by
  decide

end TidyImports.Path
