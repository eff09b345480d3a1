import TidyImports.Proofs.Path.Folding

/-! What stands below a directory. Text that is appended to a path comes out below it exactly if the path
ends where a segment may start; elsewhere the text continues the last name of the path. A text that
brings its own drive never comes out below. -/
namespace TidyImports.Path

variable {path base directory drive rest : Text} {segments : List Text}

theorem Canonical.cut (h : Canonical (base ++ '/' :: rest)) (hrest : rest ≠ []) :
    ∃ drive segments, IsDrive drive ∧ base.pieces '/' = drive :: segments ∧
      ∀ s ∈ segments ++ rest.pieces '/', IsSegment s := by
  obtain ⟨drive, segments, hdrive, hsegments, heq⟩ := h
  obtain ⟨first, more, hfirst⟩ := Text.exists_pieces_eq_cons '/' base
  have pieces := congrArg (Text.pieces '/') heq
  rw [Text.pieces_append_cons, Text.pieces_append_cons, Text.pieces_of_not_mem hdrive.no_slash,
    hfirst, List.cons_append, List.singleton_append, List.cons.injEq] at pieces
  obtain ⟨rfl, hpieces⟩ := pieces
  refine ⟨first, more, hdrive, hfirst, ?_⟩
  rw [hpieces]
  cases segments with
  | nil =>
      have behind : rest.pieces '/' <:+ [[]] := ⟨more, hpieces⟩
      have whole := behind.eq_of_length_le (List.length_pos_iff.2 (Text.pieces_ne_nil '/' rest))
      refine absurd ?_ hrest
      rw [← Text.glue_pieces '/' rest, whole]
      rfl
  | cons s segments =>
      rw [Text.pieces_glue (List.cons_ne_nil s segments) fun p hp => (hsegments p hp).no_slash]
      exact hsegments

theorem Canonical.segments_below (h : Canonical (base ++ '/' :: rest)) (hrest : rest ≠ []) :
    ∀ s ∈ rest.pieces '/', IsSegment s := by
  obtain ⟨_, segments, _, _, hsegments⟩ := h.cut hrest
  exact fun s hs => hsegments s (List.mem_append_right segments hs)

theorem Canonical.plain_below (h : Canonical (base ++ '/' :: rest)) :
    normalizeSeparators rest = rest :=
  normalizeSeparators_eq_self fun hback => h.no_backslash (by simp [hback])

theorem Canonical.getLast?_ne_slash (h : Canonical (base ++ '/' :: rest)) (hrest : rest ≠ []) :
    (base ++ '/' :: rest).getLast? ≠ some '/' := by
  obtain ⟨init, last, hlast⟩ := Text.exists_pieces_eq_concat '/' rest
  have segment := h.segments_below hrest last (by simp [hlast])
  have pieces := Text.pieces_append_cons '/' base rest
  rw [hlast, ← List.append_assoc] at pieces
  exact fun hslash => segment.ne_nil ((Text.last_piece_eq_nil_iff pieces).2 (.inr hslash))

theorem IsDrive.getLast?_ne_slash (h : IsDrive drive) : drive.getLast? ≠ some '/' :=
  fun hlast => h.no_slash (List.mem_of_getLast? hlast)

theorem trimSlashes_below (hdrive : IsDrive drive) (h : ∀ s ∈ segments, IsSegment s)
    (rest : Text) : trimSlashes (drive ++ '/' :: Text.glue ['/'] segments) ++ '/' :: rest =
      drive ++ '/' :: Text.glue ['/'] (segments ++ rest.pieces '/') := by
  cases segments with
  | nil =>
      have drives : trimSlashes (drive ++ '/' :: Text.glue ['/'] []) = drive :=
        (trimSlashes_slash drive).trans (trimSlashes_eq_self hdrive.getLast?_ne_slash)
      rw [drives, List.nil_append, Text.glue_pieces]
  | cons s segments =>
      have ends : (drive ++ '/' :: Text.glue ['/'] (s :: segments)).getLast? ≠ some '/' := by
        intro hslash
        have pieces := pieces_of_segments hdrive h (List.cons_ne_nil s segments)
        obtain ⟨init, last, hlast⟩ : ∃ init last, s :: segments = init ++ [last] :=
          ⟨_, _, (List.dropLast_concat_getLast (List.cons_ne_nil s segments)).symm⟩
        rw [hlast, ← List.cons_append] at pieces
        rw [hlast] at hslash h
        have none : last = [] := (Text.last_piece_eq_nil_iff pieces).2 (.inr hslash)
        exact (h last (by simp)).ne_nil none
      rw [trimSlashes_eq_self ends, Text.glue_append ['/'] (List.cons_ne_nil s segments)
        (Text.pieces_ne_nil '/' rest), Text.glue_pieces]
      simp

/-- A path that ends where a segment may start: after a slash, or after nothing but a drive. -/
def IsOpen (path : Text) : Prop :=
  IsDrive (normalizeSeparators path) ∨ (normalizeSeparators path).getLast? = some '/'

theorem StartsAt.isOpen_iff {init : List Text} {last : Text} (h : StartsAt path drive rest)
    (hlast : rest.pieces '/' = init ++ [last]) : IsOpen path ↔ last = [] := by
  rw [Text.last_piece_eq_nil_iff hlast, IsOpen, h.eq]
  have hdrive := h.isDrive
  by_cases hrest : rest = []
  · simp [hrest, hdrive]
  · have last : (drive ++ rest).getLast? = rest.getLast? := by
      rw [List.getLast?_append, Option.or_of_isSome (by simpa using hrest)]
    have more : ¬ IsDrive (drive ++ rest) := by
      intro whole
      cases hdrive with
      | none =>
          obtain ⟨behind, rfl⟩ := h.slash rfl
          exact whole.no_slash (by simp)
      | letter hc =>
          cases whole
          exact hrest rfl
    simp [hrest, last, more]

theorem IsSegment.append {s t : Text} (h : IsSegment t) (hne : s ≠ []) (hslash : '/' ∉ s)
    (hback : '\\' ∉ s) : IsSegment (s ++ t) where
  ne_nil := by simp [hne]
  ne_dot heq := by
    rw [List.append_eq_singleton_iff] at heq
    simp [hne, h.ne_nil] at heq
  ne_dots heq := by
    obtain ⟨c, s, rfl⟩ := List.exists_cons_of_ne_nil hne
    rw [List.cons_append, List.cons.injEq, List.append_eq_singleton_iff] at heq
    simp [h.ne_nil, h.ne_dot] at heq
  no_slash := by simp [hslash, h.no_slash]
  no_backslash := by simp [hback, h.no_backslash]

theorem clean_append_iff (h : isRooted path = true)
    (hbelow : Canonical (trimSlashes (clean path) ++ '/' :: rest)) (hrest : rest ≠ []) :
    clean (path ++ rest) = trimSlashes (clean path) ++ '/' :: rest ↔ IsOpen path := by
  have plain := hbelow.plain_below
  have below := hbelow.segments_below hrest
  obtain ⟨drive, behind, start⟩ := exists_startsAt h
  have appended := start.append rest
  rw [plain] at appended
  obtain ⟨init, last, hlast⟩ := Text.exists_pieces_eq_concat '/' behind
  obtain ⟨first, more, hfirst⟩ := Text.exists_pieces_eq_cons '/' rest
  have joined := Text.pieces_append hlast hfirst
  rw [hfirst] at below
  have folded := segments_foldSegments start.plain
  rw [start.isOpen_iff hlast, start.clean_eq, appended.clean_eq, joined,
    trimSlashes_below start.isDrive folded, hfirst]
  rw [hlast] at folded ⊢
  constructor
  · intro heq
    by_cases hne : last = []
    · exact hne
    · -- The first piece behind the path is lost in the name before it.
      have hplain := start.plain last (by simp [hlast])
      have one := (below first List.mem_cons_self).append hne hplain.1 hplain.2
      have others : ∀ s ∈ (last ++ first) :: more, IsSegment s :=
        List.forall_mem_cons.2 ⟨one, (List.forall_mem_cons.1 below).2⟩
      have left := segments_foldSegments appended.plain
      rw [joined] at left
      have same := (segments_inj start.isDrive start.isDrive left
        (List.forall_mem_append.2 ⟨folded, below⟩) heq).2
      rw [foldSegments_append init others, List.append_cons, List.append_cons _ first] at same
      have lasts := (List.append_singleton_inj.1 (List.append_cancel_right same)).2
      exact List.append_left_eq_self.1 lasts
  · rintro rfl
    rw [foldSegments_append_nil, List.nil_append, foldSegments_append init below]

theorem clean_drive_ne {c : Char} {head : Text} (hc : Text.isAsciiLetter c = true)
    (h : isRooted path = true) (hhead : head ≠ []) (hslash : '/' ∉ head)
    (hbelow : Canonical (trimSlashes (clean path) ++ '/' :: (head ++ rest))) :
    clean (c :: ':' :: rest) ≠ trimSlashes (clean path) ++ '/' :: (head ++ rest) := by
  have letter : c ≠ '\\' := ne_of_isAsciiLetter hc (by decide)
  have plain : normalizeSeparators rest = rest :=
    normalizeSeparators_eq_self fun hback => hbelow.no_backslash (by simp [hback])
  have drive : StartsAt (c :: ':' :: rest) [c, ':'] rest :=
    ⟨.letter hc, by simp, by simpa [normalizeSeparators, letter] using plain⟩
  obtain ⟨root, behind, start⟩ := exists_startsAt h
  obtain ⟨first, more, hfirst⟩ := Text.exists_pieces_eq_cons '/' rest
  have joined : (head ++ rest).pieces '/' = (head ++ first) :: more := by
    have alone : Text.pieces '/' head = [] ++ [head] := Text.pieces_of_not_mem hslash
    exact Text.pieces_append alone hfirst
  have below := hbelow.segments_below (by simp [hhead])
  have folded := segments_foldSegments start.plain
  have left := segments_foldSegments drive.plain
  rw [joined] at below
  have apart : foldSegments true (first :: more) = foldSegments true [first] ++ more :=
    foldSegments_append [first] (List.forall_mem_cons.1 below).2
  rw [hfirst, apart] at left
  rw [start.clean_eq, drive.clean_eq, trimSlashes_below start.isDrive folded, joined, hfirst,
    apart]
  intro heq
  have same := (segments_inj drive.isDrive start.isDrive left
    (List.forall_mem_append.2 ⟨folded, below⟩) heq).2
  rw [List.append_cons] at same
  have one := List.append_cancel_right same
  have member : head ++ first ∈ foldSegments true [first] := by
    rw [one]
    exact List.mem_append_right _ (List.mem_singleton_self _)
  exact hhead (List.append_left_eq_self.1 (foldSegments_singleton member))

theorem normalizeSeparators_append (path more : Text) :
    normalizeSeparators (path ++ more) = normalizeSeparators path ++ normalizeSeparators more :=
  List.map_append

theorem normalizeSeparators_normalizeSeparators (path : Text) :
    normalizeSeparators (normalizeSeparators path) = normalizeSeparators path :=
  normalizeSeparators_eq_self (no_backslash_normalizeSeparators path)

theorem append_rooted (base : Text) (h : isRooted path = true) :
    append base path = normalizeSeparators path := by
  simp only [append, isRooted_normalizeSeparators, h, if_true]

theorem append_free (base : Text) (h : isRooted path = false) :
    append base path = (if base.isEmpty || base.endsWith ['/'] then base else base ++ ['/']) ++
      normalizeSeparators path := by
  simp only [append, isRooted_normalizeSeparators, h, Bool.false_eq_true, if_false]
  split <;> rfl

theorem append_append (hplain : normalizeSeparators rest = rest)
    (hroot : isRooted (directory ++ rest) = isRooted directory) :
    append base (directory ++ rest) = append base directory ++ rest := by
  cases h : isRooted directory with
  | true =>
      rw [append_rooted base (hroot.trans h), append_rooted base h, normalizeSeparators_append, hplain]
  | false =>
      rw [append_free base (hroot.trans h), append_free base h, normalizeSeparators_append, hplain,
        List.append_assoc]

theorem IsDrive.isRooted (h : IsDrive path) (hne : path ≠ []) : isRooted path = true := by
  cases h with
  | none => exact absurd rfl hne
  | @letter c hc =>
      have letter : c ≠ '\\' := ne_of_isAsciiLetter hc (by decide)
      have start : StartsAt [c, ':'] [c, ':'] [] :=
        ⟨.letter hc, by simp, by simp [normalizeSeparators, letter]⟩
      exact start.isRooted

theorem isOpen_behind_slash {front : Text} (hfront : front.getLast? = some '/')
    (hplain : normalizeSeparators front = front) (hfree : isRooted directory = false) :
    IsOpen (front ++ normalizeSeparators directory) ↔ IsOpen directory := by
  rw [IsOpen, normalizeSeparators_append, hplain, normalizeSeparators_normalizeSeparators, IsOpen]
  by_cases hempty : normalizeSeparators directory = []
  · rw [hempty, List.append_nil]
    exact iff_of_true (.inr hfront) (.inl .none)
  · have last : (front ++ normalizeSeparators directory).getLast? =
        (normalizeSeparators directory).getLast? := by
      rw [List.getLast?_append, Option.or_of_isSome (by simpa using hempty)]
    have long : ¬ IsDrive (front ++ normalizeSeparators directory) := fun whole =>
      whole.no_slash (List.mem_append_left _ (List.mem_of_getLast? hfront))
    have free : ¬ IsDrive (normalizeSeparators directory) := fun whole => by
      have rooted := whole.isRooted hempty
      rw [isRooted_normalizeSeparators, hfree] at rooted
      exact absurd rooted (by decide)
    simp [last, long, free]

theorem getLast?_of_endsWith {c : Char} (h : path.endsWith [c] = true) : path.getLast? = some c := by
  obtain ⟨before, hbefore⟩ := Option.isSome_iff_exists.1 h
  rw [Text.stripTail?_eq_some.1 hbefore, List.getLast?_concat]

theorem isOpen_append (hbase : isRooted base = true) (hplain : normalizeSeparators base = base) :
    IsOpen (append base directory) ↔ IsOpen directory := by
  cases hroot : isRooted directory with
  | true => rw [append_rooted base hroot, IsOpen, normalizeSeparators_normalizeSeparators, IsOpen]
  | false =>
      rw [append_free base hroot]
      split
      · next hfront =>
        rcases Bool.or_eq_true_iff.1 hfront with hempty | hslash
        · rw [List.isEmpty_iff.1 hempty] at hbase
          exact absurd hbase (by decide)
        · exact isOpen_behind_slash (getLast?_of_endsWith hslash) hplain hroot
      · refine isOpen_behind_slash (by simp) ?_ hroot
        rw [normalizeSeparators_append, hplain]
        rfl

theorem exists_drive_of_isRooted (hfree : isRooted directory = false)
    (hrooted : isRooted (directory ++ rest) = true) (hplain : normalizeSeparators rest = rest)
    (hhead : rest.head? ≠ some '/') : ∃ c head behind, Text.isAsciiLetter c = true ∧
      normalizeSeparators (directory ++ rest) = c :: ':' :: behind ∧ rest = head ++ behind ∧
      head ≠ [] ∧ '/' ∉ head ∧ (IsOpen directory → directory = []) := by
  obtain ⟨drive, behind, hdrive, hslash, whole⟩ := exists_startsAt hrooted
  rw [normalizeSeparators_append, hplain] at whole ⊢
  have free {drive behind : Text} (start : StartsAt directory drive behind) : False := by
    rw [start.isRooted] at hfree
    exact absurd hfree (by decide)
  cases hdrive with
  | none =>
      obtain ⟨more, rfl⟩ := hslash rfl
      cases hstart : normalizeSeparators directory with
      | nil =>
          rw [hstart] at whole
          exact absurd (by simp [show rest = _ from whole]) hhead
      | cons c before =>
          rw [hstart, List.cons_append, List.nil_append, List.cons.injEq] at whole
          rw [whole.1] at hstart
          exact (free ⟨.none, fun _ => ⟨before, rfl⟩, hstart⟩).elim
  | @letter c hc =>
      have slash : c ≠ '/' := ne_of_isAsciiLetter hc (by decide)
      refine ⟨c, ?_⟩
      -- The drive takes two characters: both, one or none of them are those of the text.
      match hstart : normalizeSeparators directory with
      | [] =>
          rw [hstart] at whole
          refine ⟨[c, ':'], behind, hc, whole, whole, by simp, by simp [Ne.symm slash], fun _ => ?_⟩
          simpa [normalizeSeparators] using hstart
      | [d] =>
          rw [hstart] at whole
          obtain ⟨rfl, rfl⟩ := by simpa using whole
          refine ⟨[':'], behind, hc, rfl, rfl, by simp, by decide, fun hopen => ?_⟩
          rw [IsOpen, hstart] at hopen
          rcases hopen with hdrive | hlast
          · cases hdrive
          · exact absurd (Option.some.inj hlast) slash
      | d :: e :: before =>
          rw [hstart] at whole
          obtain ⟨rfl, rfl, -⟩ := by simpa using whole
          exact (free ⟨.letter hc, by simp, hstart⟩).elim

theorem head?_ne_slash (h : ∀ s ∈ rest.pieces '/', IsSegment s) : rest.head? ≠ some '/' := by
  intro hslash
  obtain ⟨more, rfl⟩ := List.head?_eq_some_iff.1 hslash
  exact (h [] (by simp [Text.pieces])).ne_nil rfl

theorem join_append_iff (hbase : isRooted base = true)
    (hbelow : Canonical (trimSlashes (join base [directory]) ++ '/' :: rest)) (hrest : rest ≠ []) :
    join base [directory ++ rest] = trimSlashes (join base [directory]) ++ '/' :: rest ↔
      IsOpen directory ∧ (directory = [] → isRooted rest = false) := by
  have hplain := hbelow.plain_below
  have hhead := head?_ne_slash (hbelow.segments_below hrest)
  have rooted : isRooted (normalizeSeparators base) = true := by
    rwa [isRooted_normalizeSeparators]
  have step (path : Text) : join base [path] = clean (append (normalizeSeparators base) path) := rfl
  rw [step] at hbelow
  rw [step, step]
  by_cases hroot : isRooted (directory ++ rest) = isRooted directory
  · rw [append_append hplain hroot, clean_append_iff (isRooted_append rooted directory) hbelow hrest,
      isOpen_append rooted (normalizeSeparators_normalizeSeparators base)]
    refine (and_iff_left ?_).symm
    rintro rfl
    exact hroot
  · have hfree : isRooted directory = false := by
      rw [← Bool.not_eq_true]
      exact fun h => hroot ((isRooted_append_right h rest).trans h.symm)
    have hrooted : isRooted (directory ++ rest) = true := by simpa [hfree] using hroot
    obtain ⟨c, head, behind, hc, hdrive, rfl, hne, hslash, hopen⟩ :=
      exists_drive_of_isRooted hfree hrooted hplain hhead
    refine iff_of_false ?_ fun ⟨halone, hrelative⟩ => ?_
    · rw [append_rooted _ hrooted, hdrive]
      exact clean_drive_ne hc (isRooted_append rooted directory) hne hslash hbelow
    · obtain rfl := hopen halone
      rw [List.nil_append, hrelative rfl] at hrooted
      exact absurd hrooted (by decide)

/-- A path lies strictly below a directory: it has the drive and the segments of the directory, and at
least one segment more. Slashes at the end of the directory do not count. -/
def IsBelow (directory path : Text) : Prop :=
  ∃ drive segments more, IsDrive drive ∧ (∀ s ∈ segments ++ more, IsSegment s) ∧ more ≠ [] ∧
    trimSlashes directory = Text.glue ['/'] (drive :: segments) ∧
    path = Text.glue ['/'] (drive :: (segments ++ more))

theorem isBelow_iff (h : Canonical path) : IsBelow directory path ↔
    ∃ rest : Text, rest ≠ [] ∧ path = trimSlashes directory ++ '/' :: rest := by
  have glued {drive : Text} {segments more : List Text} (hmore : more ≠ []) :
      Text.glue ['/'] (drive :: (segments ++ more)) =
        Text.glue ['/'] (drive :: segments) ++ '/' :: Text.glue ['/'] more := by
    rw [← List.cons_append, Text.glue_append ['/'] (List.cons_ne_nil drive segments) hmore,
      List.append_assoc, List.singleton_append]
  constructor
  · rintro ⟨drive, segments, more, _, hsegments, hmore, hdirectory, rfl⟩
    refine ⟨Text.glue ['/'] more, ?_, by rw [hdirectory, glued hmore]⟩
    obtain ⟨s, more, rfl⟩ := List.exists_cons_of_ne_nil hmore
    exact Text.glue_ne_nil (hsegments s (by simp)).ne_nil
  · rintro ⟨rest, hrest, rfl⟩
    obtain ⟨drive, segments, hdrive, hpieces, hsegments⟩ := h.cut hrest
    have hdirectory := Text.glue_pieces '/' (trimSlashes directory)
    rw [hpieces] at hdirectory
    refine ⟨drive, segments, rest.pieces '/', hdrive, hsegments, Text.pieces_ne_nil '/' rest,
      hdirectory.symm, ?_⟩
    rw [glued (Text.pieces_ne_nil '/' rest), hdirectory, Text.glue_pieces]

end TidyImports.Path
