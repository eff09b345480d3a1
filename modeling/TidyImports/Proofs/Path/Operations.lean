import TidyImports.Proofs.Path.Below

/-! Operations on paths with a root. They stay among the canonical paths. Such a path leads to a drive and
a list of segments, and where another path leads from there hangs on these two alone; so following paths
in two goes, with a clean path in between, is following them in one. -/
namespace TidyImports.Path

variable {base other path drive : Text} {segments pieces : List Text}

/-- Every operation makes canonical paths of paths with a root, which start with a drive letter and a colon
or with a slash; of these, cleaning leaves just the canonical ones as they are. -/
theorem operations_canonical (path : Text) (paths : List Text) :
    (isRooted path = true ↔ ∃ drive rest, StartsAt path drive rest) ∧
    (isRooted path = true → Canonical (clean path) ∧ (clean path = path ↔ Canonical path) ∧
      Canonical (dirname path) ∧ Canonical (join path paths)) ∧
    (Canonical path → clean path = path ∧ Canonical (resolve path paths)) := by
  refine ⟨isRooted_iff, fun h => ?_, fun h => ⟨h.clean_eq_self, canonical_resolve h.isRooted paths⟩⟩
  have same : clean path = path ↔ Canonical path :=
    ⟨fun hclean => canonical_iff.2 ⟨h, hclean⟩, Canonical.clean_eq_self⟩
  exact ⟨canonical_clean h, same, canonical_dirname h, canonical_join h paths⟩

theorem operations_canonical_drive : isRooted "C:x\\..\\y".toList = true ∧
    Canonical (clean "C:x\\..\\y".toList) ∧ clean "C:x\\..\\y".toList = "C:/y".toList ∧
    Canonical "C:/y".toList ∧ Canonical (resolve "C:/y".toList ["..\\..".toList, "z".toList]) := by
  have rooted : isRooted "C:x\\..\\y".toList = true := by decide
  have canonical : Canonical "C:/y".toList := by decide
  have made := (operations_canonical "C:x\\..\\y".toList []).2.1 rooted
  have led := (operations_canonical "C:/y".toList ["..\\..".toList, "z".toList]).2.2 canonical
  exact ⟨rooted, made.1, by decide, canonical, led.2⟩

theorem foldSegments_foldSegments_append (h : ∀ s ∈ pieces, '/' ∉ s ∧ '\\' ∉ s) (more : List Text) :
    foldSegments true (foldSegments true pieces ++ more) = foldSegments true (pieces ++ more) := by
  have stack : (foldSegments true pieces).foldl (pushSegment true) [] =
      pieces.foldl (pushSegment true) [] := by
    rw [foldl_pushSegment (segments_foldSegments h), List.append_nil, foldSegments,
      List.reverse_reverse]
  rw [foldSegments.eq_def true (_ ++ more), foldSegments.eq_def true (_ ++ more), List.foldl_append,
    List.foldl_append, stack]

def LeadsTo (path drive : Text) (segments : List Text) : Prop :=
  ∃ rest, StartsAt path drive rest ∧ foldSegments true (rest.pieces '/') = segments

theorem exists_leadsTo (h : isRooted path = true) : ∃ drive segments, LeadsTo path drive segments := by
  obtain ⟨drive, rest, start⟩ := exists_startsAt h
  exact ⟨drive, _, rest, start, rfl⟩

theorem LeadsTo.isRooted (h : LeadsTo path drive segments) : isRooted path = true := by
  obtain ⟨rest, start, -⟩ := h
  exact start.isRooted

theorem LeadsTo.clean_eq (h : LeadsTo path drive segments) :
    clean path = drive ++ '/' :: Text.glue ['/'] segments := by
  obtain ⟨rest, start, rfl⟩ := h
  exact start.clean_eq

theorem LeadsTo.normalize (h : LeadsTo path drive segments) :
    LeadsTo (normalizeSeparators path) drive segments := by
  obtain ⟨rest, ⟨hdrive, hslash, heq⟩, hfold⟩ := h
  exact ⟨rest, ⟨hdrive, hslash, by rw [normalizeSeparators_normalizeSeparators, heq]⟩, hfold⟩

theorem LeadsTo.clean (h : LeadsTo path drive segments) :
    LeadsTo (Path.clean path) drive segments := by
  have plain := normalizeSeparators_eq_self (canonical_clean h.isRooted).no_backslash
  have heq := h.clean_eq
  obtain ⟨rest, start, rfl⟩ := h
  exact ⟨_, ⟨start.isDrive, fun _ => ⟨_, rfl⟩, plain.trans heq⟩,
    foldSegments_glue (segments_foldSegments start.plain)⟩

theorem StartsAt.foldSegments_append {rest : Text} (h : StartsAt base drive rest) (isOpen : IsOpen base)
    (more : Text) : foldSegments true ((rest ++ more).pieces '/') =
      foldSegments true (rest.pieces '/' ++ more.pieces '/') := by
  obtain ⟨init, last, hlast⟩ := Text.exists_pieces_eq_concat '/' rest
  obtain ⟨first, others, hfirst⟩ := Text.exists_pieces_eq_cons '/' more
  obtain rfl := (h.isOpen_iff hlast).1 isOpen
  have plain := h.plain
  rw [hlast] at plain
  have front : ∀ s ∈ init, '/' ∉ s ∧ '\\' ∉ s := fun s hs => plain s (List.mem_append_left _ hs)
  rw [Text.pieces_append hlast hfirst, hlast, hfirst, ← foldSegments_foldSegments_append plain,
    foldSegments_append_nil, foldSegments_foldSegments_append front, List.nil_append]

theorem LeadsTo.slash_append (h : LeadsTo base drive segments) (more : Text) :
    LeadsTo (base ++ '/' :: more) drive
      (foldSegments true (segments ++ (normalizeSeparators more).pieces '/')) := by
  obtain ⟨rest, start, rfl⟩ := h
  refine ⟨_, start.append ('/' :: more), ?_⟩
  rw [foldSegments_foldSegments_append start.plain, ← Text.pieces_append_cons]
  rfl

theorem LeadsTo.append (h : LeadsTo base drive segments) (hfree : Path.isRooted path = false) :
    LeadsTo (append base path) drive
      (foldSegments true (segments ++ (normalizeSeparators path).pieces '/')) := by
  rw [append_free base hfree]
  split
  · next hends =>
    have hslash : base.endsWith ['/'] = true :=
      (Bool.or_eq_true_iff.1 hends).resolve_left fun hempty => by
        have hroot := h.isRooted
        rw [List.isEmpty_iff.1 hempty] at hroot
        exact absurd hroot (by decide)
    have isOpen : IsOpen base := by
      refine .inr ?_
      rw [normalizeSeparators, List.getLast?_map, getLast?_of_endsWith hslash]
      rfl
    obtain ⟨rest, start, rfl⟩ := h
    refine ⟨_, start.append (normalizeSeparators path), ?_⟩
    rw [normalizeSeparators_normalizeSeparators, start.foldSegments_append isOpen,
      foldSegments_foldSegments_append start.plain]
  · have leads := h.slash_append (normalizeSeparators path)
    rwa [normalizeSeparators_normalizeSeparators, List.append_cons] at leads

theorem LeadsTo.foldl_append (h : LeadsTo base drive segments) (hother : LeadsTo other drive segments)
    (paths : List Text) : Path.clean (paths.foldl Path.append base) =
      Path.clean (paths.foldl Path.append other) := by
  induction paths generalizing base other drive segments with
  | nil => exact h.clean_eq.trans hother.clean_eq.symm
  | cons path paths ih =>
      rw [List.foldl_cons, List.foldl_cons]
      cases hpath : Path.isRooted path with
      | true => rw [append_rooted base hpath, append_rooted other hpath]
      | false => exact ih (h.append hpath) (hother.append hpath)

/-- Paths that are followed in two goes lead where they lead in one, and a base may be cleaned before. -/
theorem join_append (h : isRooted base = true) (xs ys : List Text) :
    join base (xs ++ ys) = join (join base xs) ys ∧ join base ys = join (clean base) ys := by
  constructor
  · rw [← isRooted_normalizeSeparators] at h
    obtain ⟨drive, segments, leads⟩ := exists_leadsTo (isRooted_foldl_append h xs)
    rw [join, List.foldl_append]
    exact leads.foldl_append leads.clean.normalize ys
  · obtain ⟨drive, segments, leads⟩ := exists_leadsTo h
    exact leads.normalize.foldl_append leads.clean.normalize ys

theorem join_append_climbing : isRooted "C:x".toList = true ∧
    join "C:x".toList (["..\\..\\y".toList, []] ++ ["./z".toList]) =
      join (join "C:x".toList ["..\\..\\y".toList, []]) ["./z".toList] ∧
    join (join "C:x".toList ["..\\..\\y".toList, []]) ["./z".toList] = "C:/y/z".toList ∧
    join "C:x".toList ["./z".toList] = join (clean "C:x".toList) ["./z".toList] := by
  have rooted : isRooted "C:x".toList = true := by decide
  have composed := join_append rooted ["..\\..\\y".toList, []] ["./z".toList]
  exact ⟨rooted, composed.1, by decide, composed.2⟩

end TidyImports.Path
