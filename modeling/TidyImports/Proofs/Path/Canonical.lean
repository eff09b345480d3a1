import Mathlib.Data.List.DropRight
import TidyImports.FileTree
import TidyImports.Proofs.Text.Pieces

/-! Canonical paths: a root and segments that are no dots. Every operation on paths with a root ends in
a clean path, so it stays among them. -/
namespace TidyImports.Path

variable {path base : Text}

structure IsSegment (s : Text) : Prop where
  ne_nil : s ≠ []
  ne_dot : s ≠ ['.']
  ne_dots : s ≠ ['.', '.']
  no_slash : '/' ∉ s
  no_backslash : '\\' ∉ s

/-- What stands before the first slash of an absolute path. -/
inductive IsDrive : Text → Prop
  | none : IsDrive []
  | letter {c : Char} (h : Text.isAsciiLetter c = true) : IsDrive [c, ':']

theorem ne_of_isAsciiLetter {c d : Char} (hc : Text.isAsciiLetter c = true)
    (hd : Text.isAsciiLetter d = false) : c ≠ d := by
  rintro rfl
  rw [hc] at hd
  exact absurd hd (by decide)

def Canonical (path : Text) : Prop :=
  ∃ drive segments, IsDrive drive ∧ (∀ s ∈ segments, IsSegment s) ∧
    path = drive ++ '/' :: Text.glue ['/'] segments

theorem no_backslash_normalizeSeparators (path : Text) : '\\' ∉ normalizeSeparators path := by
  intro h
  obtain ⟨c, _, hc⟩ := List.mem_map.1 h
  by_cases hb : c = '\\'
  · rw [if_pos hb] at hc
    exact absurd hc (by decide)
  · rw [if_neg hb] at hc
    exact hb hc

theorem normalizeSeparators_eq_self (h : '\\' ∉ path) : normalizeSeparators path = path := by
  have each : ∀ c ∈ path, (if c = '\\' then '/' else c) = id c :=
    fun c hc => if_neg fun hb => h (by rwa [hb] at hc)
  rw [normalizeSeparators, List.map_congr_left each, List.map_id]

theorem segments_pushSegment {stack : List Text} {s : Text} (h : ∀ s ∈ stack, IsSegment s)
    (hslash : '/' ∉ s) (hback : '\\' ∉ s) : ∀ t ∈ pushSegment true stack s, IsSegment t := by
  rw [pushSegment.eq_def]
  -- Only an ordinary segment is put on the stack.
  by_cases hskip : s = [] ∨ s = ['.']
  · rw [if_pos hskip]
    exact h
  rw [if_neg hskip]
  rw [not_or] at hskip
  by_cases hup : s = ['.', '.']
  · rw [if_pos hup]
    cases stack with
    | nil => simp
    | cons top below =>
        obtain ⟨htop, hbelow⟩ := List.forall_mem_cons.1 h
        simp only [if_neg htop.ne_dots]
        exact hbelow
  · rw [if_neg hup]
    exact List.forall_mem_cons.2 ⟨⟨hskip.1, hskip.2, hup, hslash, hback⟩, h⟩

theorem segments_foldSegments {segments : List Text}
    (h : ∀ s ∈ segments, '/' ∉ s ∧ '\\' ∉ s) : ∀ s ∈ foldSegments true segments, IsSegment s := by
  have run : ∀ {stack : List Text}, (∀ s ∈ stack, IsSegment s) →
      ∀ s ∈ segments.foldl (pushSegment true) stack, IsSegment s := by
    induction segments with
    | nil => exact fun hstack => hstack
    | cons s segments ih =>
        obtain ⟨hs, hsegments⟩ := List.forall_mem_cons.1 h
        exact fun hstack => ih hsegments (segments_pushSegment hstack hs.1 hs.2)
  intro s hs
  rw [foldSegments, List.mem_reverse] at hs
  exact run (by simp) s hs

theorem closeRoot_splitRoot (h : (splitRoot path).1 ≠ []) :
    ∃ drive, IsDrive drive ∧ closeRoot (splitRoot path).1 = drive ++ ['/'] := by
  revert h
  fun_cases splitRoot path with
  | case1 => simp
  | case2 => exact fun _ => ⟨[], .none, rfl⟩
  | case3 => simp
  | case4 c d hdrive rest => exact fun _ => ⟨[c, ':'], .letter hdrive.2, rfl⟩
  | case5 c d hdrive rest => exact fun _ => ⟨[c, ':'], .letter hdrive.2, rfl⟩
  | case6 => exact fun _ => ⟨[], .none, rfl⟩
  | case7 => simp

theorem splitRoot_drive {drive : Text} (h : IsDrive drive) (rest : Text) :
    splitRoot (drive ++ '/' :: rest) = (drive ++ ['/'], rest) := by
  cases h with
  | none =>
      have slash : Text.isAsciiLetter '/' = false := by decide
      cases rest <;> simp [splitRoot, slash]
  | letter hc => simp [splitRoot, hc]

theorem canonical_clean (h : isRooted path = true) : Canonical (clean path) := by
  have hroot : (splitRoot (normalizeSeparators path)).1 ≠ [] := by
    simpa [isRooted] using h
  obtain ⟨drive, hdrive, hclose⟩ := closeRoot_splitRoot hroot
  have whole := splitRoot_append (normalizeSeparators path)
  have plain : ∀ s ∈ (splitRoot (normalizeSeparators path)).2.pieces '/', '/' ∉ s ∧ '\\' ∉ s := by
    intro s hs
    refine ⟨Text.not_mem_of_mem_pieces _ _ s hs, fun hback => ?_⟩
    have behind := List.mem_append_right (splitRoot (normalizeSeparators path)).1
      (Text.mem_of_mem_pieces hs hback)
    rw [whole] at behind
    exact no_backslash_normalizeSeparators path behind
  have rooted : (splitRoot (normalizeSeparators path)).1.isEmpty = false := by simpa using hroot
  refine ⟨drive, _, hdrive, segments_foldSegments plain, ?_⟩
  simp [clean, rooted, hclose]

theorem splitRoot_append_ne_nil (h : (splitRoot path).1 ≠ []) (rest : Text) :
    (splitRoot (path ++ rest)).1 ≠ [] := by
  revert h
  fun_cases splitRoot path with
  | case1 => simp
  | case2 =>
      have slash : Text.isAsciiLetter '/' = false := by decide
      cases rest <;> simp [splitRoot, slash]
  | case3 => simp
  | case4 c d hdrive rest' => simp [splitRoot, hdrive]
  | case5 c d hdrive rest' =>
      intro _
      simp only [List.cons_append, splitRoot, if_pos hdrive]
      split <;> simp
  | case6 d rest' hdrive =>
      have slash : Text.isAsciiLetter '/' = false := by decide
      simp [splitRoot, slash]
  | case7 => simp

theorem isRooted_append_right (h : isRooted path = true) (rest : Text) :
    isRooted (path ++ rest) = true := by
  have root : (splitRoot (normalizeSeparators path)).1 ≠ [] := by simpa [isRooted] using h
  have more := splitRoot_append_ne_nil root (normalizeSeparators rest)
  rw [normalizeSeparators, normalizeSeparators, ← List.map_append] at more
  simpa [isRooted, normalizeSeparators] using more

theorem Canonical.isRooted (h : Canonical path) : isRooted path = true := by
  obtain ⟨drive, segments, hdrive, _, rfl⟩ := h
  have root : Path.isRooted (drive ++ ['/']) = true := by
    cases hdrive with
    | none => decide
    | @letter c hc =>
        have back : c ≠ '\\' := ne_of_isAsciiLetter hc (by decide)
        simp [Path.isRooted, normalizeSeparators, splitRoot, back, hc]
  rw [← List.singleton_append, ← List.append_assoc]
  exact isRooted_append_right root _

theorem isRooted_normalizeSeparators (path : Text) :
    isRooted (normalizeSeparators path) = isRooted path := by
  rw [isRooted, normalizeSeparators_eq_self (no_backslash_normalizeSeparators path), isRooted]

theorem isRooted_append (h : isRooted base = true) (path : Text) :
    isRooted (append base path) = true := by
  rw [append]
  by_cases hpath : isRooted (normalizeSeparators path) = true
  · rw [if_pos hpath]
    exact hpath
  · rw [if_neg hpath]
    split
    · exact isRooted_append_right h _
    · rw [List.append_assoc]
      exact isRooted_append_right h _

theorem isRooted_foldl_append (h : isRooted base = true) (paths : List Text) :
    isRooted (paths.foldl append base) = true := by
  induction paths generalizing base with
  | nil => exact h
  | cons path paths ih => exact ih (isRooted_append h path)

theorem canonical_join (h : isRooted base = true) (paths : List Text) :
    Canonical (join base paths) := by
  rw [← isRooted_normalizeSeparators] at h
  exact canonical_clean (isRooted_foldl_append h paths)

theorem canonical_resolve {cwd : Text} (h : isRooted cwd = true) (paths : List Text) :
    Canonical (resolve cwd paths) := by
  have run : ∀ (paths : List Text) (resolved : Text), Canonical (resolveFrom cwd paths resolved) := by
    intro paths
    induction paths with
    | nil =>
        intro resolved
        rw [resolveFrom, List.append_assoc]
        exact canonical_clean (isRooted_append_right h _)
    | cons path paths ih =>
        intro resolved
        rw [resolveFrom]
        split
        · next rooted => exact canonical_clean rooted
        · exact ih _
  exact run paths.reverse []

theorem IsDrive.no_slash {drive : Text} (h : IsDrive drive) : '/' ∉ drive := by
  cases h with
  | none => simp
  | @letter c hc =>
      have slash : c ≠ '/' := ne_of_isAsciiLetter hc (by decide)
      simp [Ne.symm slash]

theorem IsDrive.no_backslash {drive : Text} (h : IsDrive drive) : '\\' ∉ drive := by
  cases h with
  | none => simp
  | @letter c hc =>
      have back : c ≠ '\\' := ne_of_isAsciiLetter hc (by decide)
      simp [Ne.symm back]

theorem pieces_of_segments {drive : Text} {segments : List Text} (hdrive : IsDrive drive)
    (hsegments : ∀ s ∈ segments, IsSegment s) (hne : segments ≠ []) :
    (drive ++ '/' :: Text.glue ['/'] segments).pieces '/' = drive :: segments := by
  rw [Text.pieces_append_cons, Text.pieces_of_not_mem hdrive.no_slash,
    Text.pieces_glue hne fun s hs => (hsegments s hs).no_slash, List.singleton_append]

theorem canonical_dirname (h : isRooted path = true) : Canonical (dirname path) := by
  obtain ⟨drive, segments, hdrive, hsegments, hclean⟩ := canonical_clean h
  -- Where no segment is left but the last one, the directory is the root.
  cases segments with
  | nil =>
      have pieces : (drive ++ ['/']).pieces '/' = [drive, []] := by
        rw [Text.pieces_append_cons, Text.pieces_of_not_mem hdrive.no_slash]
        rfl
      rw [Text.glue] at hclean
      refine ⟨drive, [], hdrive, by simp, ?_⟩
      simp [dirname, hclean, splitLast?, pieces, splitRoot_drive hdrive, Text.glue]
  | cons s segments =>
      have pieces := pieces_of_segments hdrive hsegments (List.cons_ne_nil s segments)
      have kept : ∀ t ∈ (s :: segments).dropLast, IsSegment t :=
        fun t ht => hsegments t (List.dropLast_subset _ ht)
      refine ⟨drive, (s :: segments).dropLast, hdrive, kept, ?_⟩
      simp only [dirname, hclean, splitLast?, pieces, splitRoot_drive hdrive,
        List.dropLast_cons_cons]
      cases (s :: segments).dropLast with
      | nil => simp [Text.glue]
      | cons t more => simp [Text.glue]

theorem Canonical.ne_dots (h : Canonical path) :
    ∀ p ∈ path.pieces '/', p ≠ ['.'] ∧ p ≠ ['.', '.'] := by
  obtain ⟨drive, segments, hdrive, hsegments, rfl⟩ := h
  rw [Text.pieces_append_cons, Text.pieces_of_not_mem hdrive.no_slash, List.singleton_append]
  refine List.forall_mem_cons.2 ⟨?_, ?_⟩
  · cases hdrive <;> simp
  · cases segments with
    | nil => simp [Text.glue, Text.pieces]
    | cons s segments =>
        rw [Text.pieces_glue (List.cons_ne_nil s segments) fun s hs => (hsegments s hs).no_slash]
        exact fun s hs => ⟨(hsegments s hs).ne_dot, (hsegments s hs).ne_dots⟩

theorem trimSlashes_slash (path : Text) : trimSlashes (path ++ ['/']) = trimSlashes path :=
  List.rdropWhile_concat_pos (· == '/') path '/' rfl

theorem trimSlashes_trimSlashes (path : Text) : trimSlashes (trimSlashes path) = trimSlashes path :=
  List.rdropWhile_idempotent (· == '/') path

theorem trimSlashes_eq_self (h : path.getLast? ≠ some '/') : trimSlashes path = path := by
  refine List.rdropWhile_eq_self_iff.2 fun hne hlast => h ?_
  rw [List.getLast?_eq_some_getLast hne, beq_iff_eq.1 hlast]

theorem relativeWithin?_eq_some {rest : Text} (hrest : rest ≠ []) :
    relativeWithin? base path = some rest ↔ path = trimSlashes base ++ '/' :: rest := by
  rw [relativeWithin?.eq_def]
  simp only
  split
  · next hroot =>
    rw [Text.stripHead?_eq_some, List.isEmpty_iff.1 hroot]
    rfl
  · cases hstrip : Text.stripHead? (trimSlashes base) path with
    | none =>
        refine ⟨by simp, fun h => ?_⟩
        rw [Text.stripHead?_eq_some.2 h] at hstrip
        exact absurd hstrip (by simp)
    | some below =>
        obtain rfl := Text.stripHead?_eq_some.1 hstrip
        rw [List.append_cancel_left_eq]
        cases below with
        | nil => simp [Ne.symm hrest]
        | cons c below => exact Text.stripHead?_eq_some

end TidyImports.Path
