import TidyImports.Proofs.Path.Operations

/-! Containment of paths. A canonical path lies in another one exactly if it has the drive of the other and
starts with its segments. What is left of the segments leads from the one to the other, unless it brings
a drive of its own. -/
namespace TidyImports.Path

variable {base path drive other rest : Text} {segments others more : List Text}

instance (s : Text) : Decidable (IsSegment s) :=
  decidable_of_iff (s ≠ [] ∧ s ≠ ['.'] ∧ s ≠ ['.', '.'] ∧ '/' ∉ s ∧ '\\' ∉ s)
    ⟨fun ⟨hnil, hdot, hdots, hslash, hback⟩ => ⟨hnil, hdot, hdots, hslash, hback⟩,
      fun h => ⟨h.ne_nil, h.ne_dot, h.ne_dots, h.no_slash, h.no_backslash⟩⟩

/-- A canonical path as the spelling of its drive and its segments. -/
structure Spells (path drive : Text) (segments : List Text) : Prop where
  isDrive : IsDrive drive
  areSegments : ∀ s ∈ segments, IsSegment s
  eq : path = drive ++ '/' :: Text.glue ['/'] segments

theorem canonical_iff_spells : Canonical path ↔ ∃ drive segments, Spells path drive segments := by
  constructor
  · rintro ⟨drive, segments, hdrive, hsegments, heq⟩
    exact ⟨drive, segments, hdrive, hsegments, heq⟩
  · rintro ⟨drive, segments, h⟩
    exact ⟨drive, segments, h.isDrive, h.areSegments, h.eq⟩

theorem Spells.canonical (h : Spells path drive segments) : Canonical path :=
  canonical_iff_spells.2 ⟨drive, segments, h⟩

theorem Spells.unique (h : Spells path drive segments) (hother : Spells path other others) :
    drive = other ∧ segments = others :=
  segments_inj h.isDrive hother.isDrive h.areSegments hother.areSegments (h.eq.symm.trans hother.eq)

theorem Spells.pieces_trimSlashes (h : Spells path drive segments) :
    (trimSlashes path).pieces '/' = drive :: segments := by
  have below := congrArg (Text.pieces '/') (trimSlashes_below h.isDrive h.areSegments [])
  have plain : ∀ s ∈ segments ++ Text.pieces '/' [], '/' ∉ s :=
    List.forall_mem_append.2 ⟨fun s hs => (h.areSegments s hs).no_slash, by simp [Text.pieces]⟩
  rw [← h.eq, Text.pieces_append_cons, Text.pieces_append_cons,
    Text.pieces_of_not_mem h.isDrive.no_slash, Text.pieces_glue (by simp [Text.pieces]) plain,
    ← List.append_assoc] at below
  exact List.append_cancel_right below

theorem Spells.trimSlashes_eq (h : Spells path drive segments) :
    trimSlashes path = Text.glue ['/'] (drive :: segments) := by
  rw [← h.pieces_trimSlashes, Text.glue_pieces]

theorem Spells.eq_of_trimSlashes (h : Spells base drive segments) (hpath : Spells path other others)
    (heq : trimSlashes path = trimSlashes base) : path = base := by
  have pieces := hpath.pieces_trimSlashes
  rw [heq, h.pieces_trimSlashes, List.cons.injEq] at pieces
  rw [h.eq, hpath.eq, pieces.1, pieces.2]

theorem relativeWithin?_eq_some_nil (hpath : path ≠ []) : relativeWithin? base path = some [] ↔
    path = trimSlashes base ∨ path = trimSlashes base ++ ['/'] := by
  rw [relativeWithin?.eq_def]
  simp only
  split
  · next hroot =>
    rw [Text.stripHead?_eq_some, List.isEmpty_iff.1 hroot]
    simp [hpath]
  · cases hstrip : Text.stripHead? (trimSlashes base) path with
    | none =>
        refine ⟨by simp, fun h => ?_⟩
        rcases h with h | h
        · rw [Text.stripHead?_eq_some.2 (h.trans (List.append_nil _).symm)] at hstrip
          exact absurd hstrip (by simp)
        · rw [Text.stripHead?_eq_some.2 h] at hstrip
          exact absurd hstrip (by simp)
    | some below =>
        obtain rfl := Text.stripHead?_eq_some.1 hstrip
        cases below with
        | nil => simp
        | cons c below => simp [Text.stripHead?_eq_some]

theorem Spells.relativeWithin?_eq_nil (h : Spells base drive segments)
    (hpath : Spells path other others) : relativeWithin? base path = some [] ↔ path = base := by
  have hne : path ≠ [] := by simp [hpath.eq]
  rw [relativeWithin?_eq_some_nil hne]
  constructor
  · rintro (heq | heq)
    · exact h.eq_of_trimSlashes hpath (by rw [heq, trimSlashes_trimSlashes])
    · exact h.eq_of_trimSlashes hpath (by rw [heq, trimSlashes_slash, trimSlashes_trimSlashes])
  · rintro rfl
    rw [h.trimSlashes_eq, h.eq]
    cases segments with
    | nil => exact .inr rfl
    | cons s segments => exact .inl (by simp [Text.glue])

theorem Spells.relativeWithin?_eq_some (h : Spells base drive segments)
    (hpath : Spells path other others) : relativeWithin? base path = some rest ↔
      drive = other ∧ ∃ more, others = segments ++ more ∧ rest = Text.glue ['/'] more := by
  by_cases hrest : rest = []
  · subst hrest
    rw [h.relativeWithin?_eq_nil hpath]
    constructor
    · rintro rfl
      obtain ⟨rfl, rfl⟩ := h.unique hpath
      exact ⟨rfl, [], by simp, rfl⟩
    · rintro ⟨rfl, more, rfl, hmore⟩
      cases more with
      | nil => rw [h.eq, hpath.eq, List.append_nil]
      | cons s more =>
          have hs := hpath.areSegments s (by simp)
          exact absurd hmore.symm (Text.glue_ne_nil hs.ne_nil)
  · rw [Path.relativeWithin?_eq_some hrest]
    have below := trimSlashes_below h.isDrive h.areSegments rest
    rw [← h.eq] at below
    constructor
    · intro heq
      have segments_rest := (heq ▸ hpath.canonical).segments_below hrest
      have whole : Spells path drive (segments ++ rest.pieces '/') :=
        ⟨h.isDrive, List.forall_mem_append.2 ⟨h.areSegments, segments_rest⟩, heq.trans below⟩
      obtain ⟨rfl, rfl⟩ := whole.unique hpath
      exact ⟨rfl, _, rfl, (Text.glue_pieces '/' rest).symm⟩
    · rintro ⟨rfl, more, rfl, rfl⟩
      have hmore : more ≠ [] := by
        rintro rfl
        exact hrest rfl
      have plain : ∀ s ∈ more, '/' ∉ s :=
        fun s hs => (hpath.areSegments s (List.mem_append_right segments hs)).no_slash
      rw [below, Text.pieces_glue hmore plain, ← hpath.eq]

theorem Spells.leadsTo (h : Spells path drive segments) : LeadsTo path drive segments := by
  have plain := normalizeSeparators_eq_self h.canonical.no_backslash
  exact ⟨'/' :: Text.glue ['/'] segments, ⟨h.isDrive, fun _ => ⟨_, rfl⟩, plain.trans h.eq⟩,
    foldSegments_glue h.areSegments⟩

theorem no_backslash_glue (h : ∀ s ∈ more, IsSegment s) : '\\' ∉ Text.glue ['/'] more := by
  intro hback
  rcases Text.mem_glue hback with hslash | ⟨s, hs, hback⟩
  · exact absurd hslash (by decide)
  · exact (h s hs).no_backslash hback

theorem Spells.join_glue (h : Spells base drive segments) (hmore : ∀ s ∈ more, IsSegment s)
    (hfree : isRooted (Text.glue ['/'] more) = false) :
    Spells (join base [Text.glue ['/'] more]) drive (segments ++ more) := by
  have leads := (h.leadsTo.normalize.append hfree).clean_eq
  have plain := normalizeSeparators_eq_self (no_backslash_glue hmore)
  have folded : foldSegments true (segments ++ (Text.glue ['/'] more).pieces '/') =
      segments ++ more := by
    cases more with
    | nil =>
        rw [List.append_nil]
        exact foldSegments_closed h.areSegments
    | cons s more =>
        rw [Text.pieces_glue (List.cons_ne_nil s more) fun p hp => (hmore p hp).no_slash]
        exact foldSegments_append [] (List.forall_mem_append.2 ⟨h.areSegments, hmore⟩)
  rw [plain, folded] at leads
  exact ⟨h.isDrive, List.forall_mem_append.2 ⟨h.areSegments, hmore⟩, leads⟩

theorem Spells.free_of_found (h : Spells base drive segments)
    (found : relativeWithin? base (join base [rest]) = some rest) : isRooted rest = false := by
  by_cases hrest : rest = []
  · rw [hrest]
    decide
  · have itself : join base [[]] = base := by
      have joined := h.join_glue (List.forall_mem_nil IsSegment) (by decide)
      rw [List.append_nil] at joined
      exact joined.eq.trans h.eq.symm
    have heq := (Path.relativeWithin?_eq_some hrest).1 found
    have below : Canonical (trimSlashes (join base [[]]) ++ '/' :: rest) := by
      rw [itself, ← heq]
      exact canonical_join h.canonical.isRooted [rest]
    have opened := (join_append_iff h.canonical.isRooted below hrest).1
    rw [itself, List.nil_append] at opened
    exact (opened heq).2 rfl

def HasDrive (name : Text) : Prop := ∃ c behind, Text.isAsciiLetter c = true ∧ name = c :: ':' :: behind

theorem isRooted_append_iff {first tail : Text} (hne : first ≠ []) (hslash : '/' ∉ first)
    (hback : '\\' ∉ first ++ tail) (htail : ∀ c ∈ tail.head?, c = '/') :
    isRooted (first ++ tail) = true ↔ HasDrive first := by
  constructor
  · intro h
    obtain ⟨drive, rest, hdrive, hroot, heq⟩ := exists_startsAt h
    rw [normalizeSeparators_eq_self hback] at heq
    obtain ⟨c, name, rfl⟩ := List.exists_cons_of_ne_nil hne
    cases hdrive with
    | none =>
        obtain ⟨behind, rfl⟩ := hroot rfl
        exact absurd (List.mem_cons.2 (.inl (List.cons.inj heq).1.symm)) hslash
    | @letter d hd =>
        rw [List.cons_append, List.cons_append, List.cons.injEq] at heq
        obtain ⟨rfl, heq⟩ := heq
        cases name with
        | nil =>
            rw [List.nil_append, List.singleton_append] at heq
            exact absurd (htail ':' (by simp [heq])) (by decide)
        | cons e behind =>
            rw [List.cons_append, List.singleton_append, List.cons.injEq] at heq
            exact ⟨c, behind, hd, by rw [heq.1]⟩
  · rintro ⟨c, behind, hc, rfl⟩
    have drive : isRooted [c, ':'] = true := (IsDrive.letter hc).isRooted (by simp)
    exact isRooted_append_right drive (behind ++ tail)

theorem isRooted_glue_iff (h : ∀ s ∈ more, IsSegment s) :
    isRooted (Text.glue ['/'] more) = false ↔ ∀ first ∈ more.head?, ¬ HasDrive first := by
  cases more with
  | nil => simp [Text.glue, show isRooted [] = false from by decide]
  | cons first others =>
      obtain ⟨hfirst, hothers⟩ := List.forall_mem_cons.1 h
      have plain : '\\' ∉ Text.glue ['/'] (first :: others) := no_backslash_glue h
      have whole : ∃ tail, Text.glue ['/'] (first :: others) = first ++ tail ∧
          ∀ c ∈ tail.head?, c = '/' := by
        cases others with
        | nil => exact ⟨[], by simp [Text.glue], by simp⟩
        | cons s others => exact ⟨'/' :: Text.glue ['/'] (s :: others), by simp [Text.glue], by simp⟩
      obtain ⟨tail, htail, hslash⟩ := whole
      rw [htail] at plain ⊢
      rw [← Bool.not_eq_true, isRooted_append_iff hfirst.ne_nil hfirst.no_slash plain hslash]
      simp

/-- What a canonical path lies in and how it comes back from there: it lies in the directories of its drive
whose segments it starts with, and the rest of its segments is found. Followed from the directory the
rest leads to the path, if it is no path of its own; and segments that are followed from a directory
are found again, just if the first one starts with no drive. -/
theorem relativeWithin?_inverts_join (hbase : Spells base drive segments)
    (hpath : Spells path other others) :
    ((relativeWithin? base path).isSome = true ↔ drive = other ∧ segments <+: others) ∧
    (∀ rest, relativeWithin? base path = some rest →
      (∃ more, others = segments ++ more ∧ rest = Text.glue ['/'] more) ∧
      (isRooted rest = false → join base [rest] = path)) ∧
    ∀ more, (∀ s ∈ more, IsSegment s) →
      (relativeWithin? base (join base [Text.glue ['/'] more]) = some (Text.glue ['/'] more) ↔
        ∀ first ∈ more.head?, ¬ HasDrive first) := by
  refine ⟨?_, fun rest hrest => ?_, fun more hmore => ?_⟩
  · rw [Option.isSome_iff_exists]
    constructor
    · rintro ⟨rest, hrest⟩
      obtain ⟨hdrive, more, heq, -⟩ := (hbase.relativeWithin?_eq_some hpath).1 hrest
      exact ⟨hdrive, more, heq.symm⟩
    · rintro ⟨hdrive, more, heq⟩
      exact ⟨_, (hbase.relativeWithin?_eq_some hpath).2 ⟨hdrive, more, heq.symm, rfl⟩⟩
  · obtain ⟨rfl, more, rfl, rfl⟩ := (hbase.relativeWithin?_eq_some hpath).1 hrest
    refine ⟨⟨more, rfl, rfl⟩, fun hfree => ?_⟩
    have hmore : ∀ s ∈ more, IsSegment s :=
      fun s hs => hpath.areSegments s (List.mem_append_right segments hs)
    exact (hbase.join_glue hmore hfree).eq.trans hpath.eq.symm
  · rw [← isRooted_glue_iff hmore]
    refine ⟨fun found => ?_, fun hfree => ?_⟩
    · exact hbase.free_of_found found
    · exact (hbase.relativeWithin?_eq_some (hbase.join_glue hmore hfree)).2 ⟨rfl, more, rfl, rfl⟩

theorem relativeWithin?_inverts_join_at_root :
    Spells "/".toList [] [] ∧ Spells "/C:/x".toList [] ["C:".toList, "x".toList] ∧
    (relativeWithin? "/".toList "/C:/x".toList).isSome = true ∧
    relativeWithin? "/".toList (join "/".toList ["C:/x".toList]) ≠ some "C:/x".toList ∧
    relativeWithin? "/".toList (join "/".toList ["x/C:".toList]) = some "x/C:".toList := by
  have both : ∀ s ∈ ["C:".toList, "x".toList], IsSegment s := by decide
  have root : Spells "/".toList [] [] := ⟨.none, by simp, by decide⟩
  have path : Spells "/C:/x".toList [] ["C:".toList, "x".toList] := ⟨.none, both, by decide⟩
  obtain ⟨within, -, found⟩ := relativeWithin?_inverts_join root path
  have second := found ["x".toList, "C:".toList] (by decide)
  refine ⟨root, path, within.2 ⟨rfl, List.nil_prefix⟩, fun back => ?_, second.2 ?_⟩
  · exact (found _ both).1 back "C:".toList rfl ⟨'C', [], by decide, rfl⟩
  · rintro first ⟨⟩ ⟨c, behind, -, heq⟩
    exact absurd heq (by simp)

end TidyImports.Path
