import TidyImports.Proofs.Path.Canonical

/-! Folding of paths with a root. Behind its drive such a path is a list of pieces, and a piece that is a
segment is kept. So a canonical path has one drive and one list of segments, and is its own clean form. -/
namespace TidyImports.Path

variable {path drive rest : Text} {segments : List Text}

theorem pushSegment_segment {s : Text} (h : IsSegment s) (stack : List Text) :
    pushSegment true stack s = s :: stack := by
  rw [pushSegment.eq_def, if_neg (by simp [h.ne_nil, h.ne_dot]), if_neg h.ne_dots]

theorem foldl_pushSegment (h : ∀ s ∈ segments, IsSegment s) (stack : List Text) :
    segments.foldl (pushSegment true) stack = segments.reverse ++ stack := by
  induction segments generalizing stack with
  | nil => rfl
  | cons s segments ih =>
      obtain ⟨hs, hsegments⟩ := List.forall_mem_cons.1 h
      rw [List.foldl_cons, pushSegment_segment hs, ih hsegments, List.reverse_cons,
        List.append_assoc, List.singleton_append]

theorem foldSegments_append (pieces : List Text) (h : ∀ s ∈ segments, IsSegment s) :
    foldSegments true (pieces ++ segments) = foldSegments true pieces ++ segments := by
  rw [foldSegments, List.foldl_append, foldl_pushSegment h, List.reverse_append,
    List.reverse_reverse, foldSegments]

theorem foldSegments_append_nil (pieces : List Text) :
    foldSegments true (pieces ++ [[]]) = foldSegments true pieces := by
  rw [foldSegments, List.foldl_append]
  rfl

theorem foldSegments_closed (h : ∀ s ∈ segments, IsSegment s) :
    foldSegments true (segments ++ [[]]) = segments :=
  (foldSegments_append_nil segments).trans (foldSegments_append [] h)

theorem foldSegments_singleton {p q : Text} (h : q ∈ foldSegments true [p]) : q = p := by
  have push : pushSegment true [] p = [] ∨ pushSegment true [] p = [p] := by
    rw [pushSegment.eq_def]
    split
    · exact .inl rfl
    · split
      · exact .inl rfl
      · exact .inr rfl
  rw [foldSegments, List.foldl_cons, List.foldl_nil, List.mem_reverse] at h
  rcases push with none | one
  · rw [none] at h
    exact absurd h List.not_mem_nil
  · rw [one] at h
    exact List.mem_singleton.1 h

theorem foldSegments_glue (h : ∀ s ∈ segments, IsSegment s) :
    foldSegments true ((Text.glue ['/'] segments).pieces '/') = segments := by
  cases segments with
  | nil => rfl
  | cons s segments =>
      rw [Text.pieces_glue (List.cons_ne_nil s segments) fun p hp => (h p hp).no_slash]
      exact foldSegments_append [] h

theorem segments_inj {drive' : Text} {segments' : List Text} (hdrive : IsDrive drive)
    (hdrive' : IsDrive drive') (h : ∀ s ∈ segments, IsSegment s)
    (h' : ∀ s ∈ segments', IsSegment s)
    (heq : drive ++ '/' :: Text.glue ['/'] segments = drive' ++ '/' :: Text.glue ['/'] segments') :
    drive = drive' ∧ segments = segments' := by
  have pieces := congrArg (Text.pieces '/') heq
  rw [Text.pieces_append_cons, Text.pieces_append_cons, Text.pieces_of_not_mem hdrive.no_slash,
    Text.pieces_of_not_mem hdrive'.no_slash, List.singleton_append, List.singleton_append,
    List.cons.injEq] at pieces
  refine ⟨pieces.1, ?_⟩
  rw [← foldSegments_glue h, pieces.2, foldSegments_glue h']

/-- A path with a root: its drive, and what stands behind it with forward slashes. -/
structure StartsAt (path drive rest : Text) : Prop where
  isDrive : IsDrive drive
  slash : drive = [] → ∃ more, rest = '/' :: more
  eq : normalizeSeparators path = drive ++ rest

theorem exists_startsAt (h : isRooted path = true) : ∃ drive rest, StartsAt path drive rest := by
  have root : (splitRoot (normalizeSeparators path)).1 ≠ [] := by simpa [isRooted] using h
  revert root
  generalize hpath : normalizeSeparators path = normalized
  fun_cases splitRoot normalized with
  | case1 => simp
  | case2 => exact fun _ => ⟨[], ['/'], .none, fun _ => ⟨[], rfl⟩, hpath⟩
  | case3 => simp
  | case4 c d hdrive rest =>
      obtain ⟨rfl, hc⟩ := hdrive
      exact fun _ => ⟨[c, ':'], '/' :: rest, .letter hc, by simp, hpath⟩
  | case5 c d hdrive rest =>
      obtain ⟨rfl, hc⟩ := hdrive
      exact fun _ => ⟨[c, ':'], rest, .letter hc, by simp, hpath⟩
  | case6 d rest => exact fun _ => ⟨[], '/' :: d :: rest, .none, fun _ => ⟨d :: rest, rfl⟩, hpath⟩
  | case7 => simp

theorem StartsAt.isRooted (h : StartsAt path drive rest) : isRooted path = true := by
  have root : (splitRoot (drive ++ rest)).1 ≠ [] := by
    obtain ⟨hdrive, hslash, _⟩ := h
    cases hdrive with
    | none =>
        obtain ⟨more, rfl⟩ := hslash rfl
        rw [splitRoot_drive .none]
        simp
    | letter hc =>
        simp only [List.cons_append, List.nil_append, splitRoot, hc, and_self, if_true]
        split <;> simp
  simpa [Path.isRooted, h.eq] using root

theorem isRooted_iff : isRooted path = true ↔ ∃ drive rest, StartsAt path drive rest :=
  ⟨exists_startsAt, fun ⟨_, _, h⟩ => h.isRooted⟩

theorem StartsAt.append (h : StartsAt path drive rest) (more : Text) :
    StartsAt (path ++ more) drive (rest ++ normalizeSeparators more) where
  isDrive := h.isDrive
  slash hdrive := by
    obtain ⟨behind, rfl⟩ := h.slash hdrive
    exact ⟨behind ++ normalizeSeparators more, rfl⟩
  eq := by
    rw [normalizeSeparators, List.map_append, ← normalizeSeparators, h.eq, List.append_assoc]
    rfl

theorem closeRoot_slash (drive : Text) : closeRoot (drive ++ ['/']) = drive ++ ['/'] := by
  have slash : Text.stripTail? ['/'] (drive ++ ['/']) = some drive :=
    Text.stripTail?_eq_some.2 rfl
  rw [closeRoot, Text.endsWith, slash, if_pos Option.isSome_some]

theorem StartsAt.clean_eq (h : StartsAt path drive rest) :
    clean path = drive ++ '/' :: Text.glue ['/'] (foldSegments true (rest.pieces '/')) := by
  by_cases hslash : ∃ more, rest = '/' :: more
  · obtain ⟨more, rfl⟩ := hslash
    have root : List.isEmpty (drive ++ ['/']) = false := by simp [List.isEmpty_eq_false_iff]
    simp [clean, h.eq, splitRoot_drive h.isDrive, root, closeRoot_slash, Text.pieces, foldSegments,
      pushSegment]
  · -- Only a drive letter is followed by something else than a slash.
    obtain ⟨hdrive, hroot, heq⟩ := h
    cases hdrive with
    | none => exact absurd (hroot rfl) hslash
    | @letter c hc =>
        have split : splitRoot (c :: ':' :: rest) = ([c, ':'], rest) := by
          cases rest with
          | nil => simp [splitRoot, hc]
          | cons d more =>
              have other : d ≠ '/' := fun hd => hslash ⟨more, by rw [hd]⟩
              simp [splitRoot, hc, other]
        simp [clean, heq, split, closeRoot, Text.endsWith, Text.stripTail?, Text.stripHead?]

theorem StartsAt.plain (h : StartsAt path drive rest) :
    ∀ s ∈ rest.pieces '/', '/' ∉ s ∧ '\\' ∉ s := by
  have plain := no_backslash_normalizeSeparators path
  rw [h.eq, List.mem_append, not_or] at plain
  exact fun s hs => ⟨Text.not_mem_of_mem_pieces '/' rest s hs,
    fun hback => plain.2 (Text.mem_of_mem_pieces hs hback)⟩

theorem Canonical.no_backslash (h : Canonical path) : '\\' ∉ path := by
  obtain ⟨drive, segments, hdrive, hsegments, rfl⟩ := h
  intro hback
  rcases List.mem_append.1 hback with hback | hback
  · exact hdrive.no_backslash hback
  · rcases List.mem_cons.1 hback with hslash | hback
    · exact absurd hslash (by decide)
    · rcases Text.mem_glue hback with hslash | ⟨s, hs, hback⟩
      · exact absurd hslash (by decide)
      · exact (hsegments s hs).no_backslash hback

theorem Canonical.clean_eq_self (h : Canonical path) : clean path = path := by
  have plain := normalizeSeparators_eq_self h.no_backslash
  obtain ⟨drive, segments, hdrive, hsegments, rfl⟩ := h
  have start : StartsAt (drive ++ '/' :: Text.glue ['/'] segments) drive
      ('/' :: Text.glue ['/'] segments) := ⟨hdrive, fun _ => ⟨_, rfl⟩, plain⟩
  rw [start.clean_eq]
  have behindSlash : foldSegments true (Text.pieces '/' ('/' :: Text.glue ['/'] segments)) =
      foldSegments true ((Text.glue ['/'] segments).pieces '/') := rfl
  rw [behindSlash, foldSegments_glue hsegments]

theorem canonical_iff : Canonical path ↔ isRooted path = true ∧ clean path = path :=
  ⟨fun h => ⟨h.isRooted, h.clean_eq_self⟩, fun h => h.2 ▸ canonical_clean h.1⟩

instance (path : Text) : Decidable (Canonical path) := decidable_of_iff _ canonical_iff.symm

theorem resolve_canonical (cwd : Text) (h : Canonical path) : resolve cwd [path] = path := by
  have alone : preceded path [] = path := by
    rw [preceded, normalizeSeparators_eq_self h.no_backslash]
    rfl
  rw [resolve, List.reverse_singleton, resolveFrom, alone, if_pos h.isRooted, h.clean_eq_self]

end TidyImports.Path
