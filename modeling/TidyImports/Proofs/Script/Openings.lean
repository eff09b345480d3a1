import TidyImports.Proofs.Script.Rows

/-! Beginnings of texts. Behind the gap that a text begins with, a cursor stands on the first token; a
script may have a byte order mark or the name of an interpreter in front of this gap, and whatever the
gap and the mark are, the script begins at its first token. A statement is read from the text that
begins with it, and may look at what stands behind it before it ends: two texts that begin with the same
statement are read alike. -/
namespace TidyImports.Script

open Script.Parser Script.Grammar

variable {context : Context} {c c' d e : Cursor} {dialect : Dialect} {limit : Nat}
  {text t u : Text} {item : TopStatement} {covers : List Nat} {pieces gap : List GapPiece} {mark : Text}

/-- The cursor on the first token of a text, behind the gap that the text may begin with. -/
def Cursor.opening? (t : Text) : Option Cursor :=
  match skipGap .blank 0 false [] t with
  | none => none
  | some gap =>
    match scanToken? gap.rest with
    | none => none
    | some (token, rest) =>
      some ⟨token, 0, gap.rest.width - rest.width, false, gap.rest, rest, 0, [], []⟩

theorem Cursor.Scanned.skipGap_gapText (h : c.Scanned) (isGap : IsGap c.source pieces) (n : Nat) :
    ∃ gap, skipGap .blank n false [] (gapText pieces ++ c.source) = some gap ∧ gap.rest = c.source :=
  ⟨_, Script.skipGap_gapText isGap h.noGap _ _ _, rfl⟩

theorem Cursor.Scanned.opening?_gapText (h : c.Scanned) (isGap : IsGap c.source pieces) :
    Cursor.opening? (gapText pieces ++ c.source) = some c.here := by
  have stop := h.stop
  have width : c.source.width - c.rest.width = c.stop - c.start := by omega
  rw [Cursor.opening?, Script.skipGap_gapText isGap h.noGap]
  simp only [h.scan, width, Cursor.here]

theorem Cursor.Scanned.opening?_eq (h : c.Scanned) : Cursor.opening? c.source = some c.here :=
  h.opening?_gapText .nil

theorem exists_gap_of_opening? (h : Cursor.opening? t = some c) :
    ∃ pieces, IsGap c.source pieces ∧ t = gapText pieces ++ c.source ∧ c.Scanned ∧ c.here = c := by
  unfold Cursor.opening? at h
  split at h
  · cases h
  next gap skipped =>
  obtain ⟨pieces, isGap, whole, stop, -⟩ := exists_pieces skipped
  split at h
  · cases h
  next token rest read =>
  obtain rfl := Option.some.inj h
  refine ⟨pieces, isGap, whole, ⟨read, stop, ?_⟩, rfl⟩
  obtain ⟨head, split⟩ := (scanToken?_eq_some read).1
  simp only [← split, Text.width_append]
  omega

theorem exists_opening_of_scan {token : Token} {rest : Text} (stop : NoGap t)
    (scan : scanToken? t = some (token, rest)) : ∃ c, Cursor.opening? t = some c ∧ c.source = t := by
  refine ⟨⟨token, 0, t.width - rest.width, false, t, rest, 0, [], []⟩, ?_, rfl⟩
  rw [Cursor.opening?, stop]
  simp only [scan]

theorem opening?_skip (h : Cursor.opening? t = some c) (isGap : IsGap t gap) :
    Cursor.opening? (gapText gap ++ t) = some c := by
  obtain ⟨pieces, behind, rfl, scanned, here⟩ := exists_gap_of_opening? h
  rw [← List.append_assoc, ← gapText_append, scanned.opening?_gapText (isGap.append behind), here]

theorem Cursor.Fits.scanned_of_opening? (fits : c.Fits text) (h : Cursor.opening? t = some c.here) :
    c.Scanned := by
  obtain ⟨_, -, -, scanned, -⟩ := exists_gap_of_opening? h
  refine ⟨scanned.scan, scanned.noGap, ?_⟩
  have source := fits.source.add_width
  have rest := fits.rest.add_width
  omega

theorem scanToken?_interpreter (t : Text) : scanToken? ('#' :: '!' :: t) = none := by
  have start : (Text.isIdentifierStart '#' || '#' == '\\') = false := by decide
  have digit : '#'.isDigit = false := by decide
  have name : scanIdentifier? ('!' :: t) = none := by
    have letter : Text.isIdentifierStart '!' = false := by decide
    simp [scanIdentifier?, letter]
  obtain ⟨letter, -⟩ := Bool.or_eq_false_iff.1 start
  simp [scanToken?, letter, digit, name]

/-! Marks in front of scripts. -/

/-- What may stand at the start of a script in front of everything else: a byte order mark, or a line
that names an interpreter. -/
inductive IsMark (more : Text) : Text → Prop
  | none : IsMark more []
  | byteOrder : IsMark more ['\uFEFF']
  | interpreter {line : Text} (unbroken : line.any isLineBreak = false)
    (ends : ∀ c ∈ more.head?, isLineBreak c = true) : IsMark more ('#' :: '!' :: line)

theorem exists_mark (text : Text) :
    ∃ mark, IsMark (scriptStart text).1 mark ∧ text = mark ++ (scriptStart text).1 := by
  unfold scriptStart
  split
  · exact ⟨_, .byteOrder, rfl⟩
  · next rest =>
    have marks : isLineBreak '#' = false ∧ isLineBreak '!' = false := by decide
    have line : List.takeWhile (!isLineBreak ·) ('#' :: '!' :: rest) =
        '#' :: '!' :: List.takeWhile (!isLineBreak ·) rest := by
      simp [marks]
    have whole := List.takeWhile_append_dropWhile (p := (!isLineBreak ·)) (l := '#' :: '!' :: rest)
    rw [line] at whole
    refine ⟨_, .interpreter ?_ fun c hc => ?_, whole.symm⟩
    · rw [List.any_eq_false]
      intro c hc
      simpa using List.mem_takeWhile_imp hc
    · obtain ⟨more, behind⟩ := List.head?_eq_some_iff.1 hc
      have behind : List.dropWhile (!isLineBreak ·) ('#' :: '!' :: rest) = c :: more := behind
      have stops := List.head_dropWhile_not (!isLineBreak ·) (l := '#' :: '!' :: rest) (by rw [behind]; simp)
      simpa [behind] using stops
  · exact ⟨[], .none, rfl⟩

theorem skipGap_scriptStart (scanned : c.Scanned) (isGap : IsGap c.source pieces) :
    ∃ gap, Script.skipGap .blank (scriptStart (gapText pieces ++ c.source)).2 false []
      (scriptStart (gapText pieces ++ c.source)).1 = some gap ∧ gap.rest = c.source := by
  unfold scriptStart
  split
  · next rest whole =>
    -- A byte order mark is a blank, so it is one of the gap.
    have blank : (isLineBreak '\uFEFF' || Script.isGap '\uFEFF') = true := by decide
    cases isGap with
    | nil =>
        rw [gapText_nil, List.nil_append] at whole
        have stays := (whole ▸ scanned.noGap).not_blank (by decide)
        rw [blank] at stays
        cases stays
    | blank _ more =>
        obtain ⟨-, rfl⟩ := List.cons.inj whole
        exact scanned.skipGap_gapText more 3
    | _ => cases (List.cons.inj whole).1
  · next rest whole =>
    cases isGap with
    | nil =>
        rw [gapText_nil, List.nil_append] at whole
        have scan := scanned.scan
        rw [whole, scanToken?_interpreter] at scan
        cases scan
    | blank blank _ =>
        obtain ⟨rfl, -⟩ := List.cons.inj whole
        cases blank
    | _ => cases (List.cons.inj whole).1
  · exact scanned.skipGap_gapText isGap 0

theorem scriptStart_interpreter {line more : Text} (unbroken : line.any isLineBreak = false)
    (ends : ∀ c ∈ more.head?, isLineBreak c = true) :
    (scriptStart ('#' :: '!' :: line ++ more)).1 = more := by
  have marks : isLineBreak '#' = false ∧ isLineBreak '!' = false := by decide
  have all : ∀ d ∈ '#' :: '!' :: line, (!isLineBreak d) = true := by
    simpa [marks] using unbroken
  have left : List.dropWhile (!isLineBreak ·) ('#' :: '!' :: line ++ more) = more := by
    rw [List.dropWhile_append_of_pos all]
    cases more with
    | nil => rfl
    | cons d more => simp [ends d rfl]
  exact left

theorem IsMark.skipGap (h : IsMark (gapText pieces ++ c.source) mark) (scanned : c.Scanned)
    (isGap : IsGap c.source pieces) :
    ∃ gap, Script.skipGap .blank (scriptStart (mark ++ (gapText pieces ++ c.source))).2 false []
      (scriptStart (mark ++ (gapText pieces ++ c.source))).1 = some gap ∧ gap.rest = c.source := by
  cases h with
  | none => exact skipGap_scriptStart scanned isGap
  | byteOrder => exact scanned.skipGap_gapText isGap 3
  | interpreter unbroken ends =>
      rw [scriptStart_interpreter unbroken ends]
      exact scanned.skipGap_gapText isGap _

theorem IsMark.congr (h : IsMark (gapText pieces ++ t) mark) (stop : NoGap t) (empty : t = [] → u = []) :
    IsMark (gapText pieces ++ u) mark := by
  cases h with
  | none => exact .none
  | byteOrder => exact .byteOrder
  | interpreter unbroken ends =>
      refine .interpreter unbroken ?_
      cases pieces with
      | nil =>
          cases t with
          | nil => simp [empty]
          | cons c t =>
              have broken : isLineBreak c = true := ends c rfl
              have slash : c ≠ '/' := by
                rintro rfl
                exact absurd broken (by decide)
              have stays := stop.not_blank slash
              rw [broken] at stays
              cases stays
      | cons piece pieces =>
          have head (t : Text) : (gapText (piece :: pieces) ++ t).head? = piece.text.head? := by
            rw [gapText_cons, List.append_assoc, List.head?_append_of_ne_nil _ piece.text_ne_nil]
          rw [head] at ends ⊢
          exact ends

/-- Another text in the place of the first token and all that follows it stands behind the same start. -/
theorem run_advance_elsewhere (moved : advance.run context (Cursor.initial text) = .ok ((), c))
    (opening : Cursor.opening? t = some d) (empty : c.source = [] → t = []) :
    ∃ start c', text = start ++ c.source ∧ c'.here = d ∧ c'.covers = [] ∧
      ∀ context', advance.run context' (Cursor.initial (start ++ t)) = .ok ((), c') := by
  obtain ⟨gap, _, _, skipped, -, rfl⟩ := run_advance_eq_ok.1 moved
  obtain ⟨pieces, isGap, whole, stop, -⟩ := exists_pieces skipped
  obtain ⟨more, behind, rfl, scanned, here⟩ := exists_gap_of_opening? opening
  obtain ⟨mark, isMark, split⟩ := exists_mark text
  have whole : (scriptStart text).1 = gapText pieces ++ gap.rest := whole
  rw [whole] at isMark split
  have isMark' := isMark.congr stop empty
  rw [← List.append_assoc, ← gapText_append] at isMark'
  obtain ⟨gap', skipped', source⟩ := isMark'.skipGap scanned ((isGap.congr empty).append behind)
  have start : mark ++ gapText pieces ++ (gapText more ++ d.source) =
      mark ++ (gapText (pieces ++ more) ++ d.source) := by
    simp
  obtain ⟨c', run⟩ : ∃ c', ∀ context', advance.run context' (Cursor.initial
      (mark ++ gapText pieces ++ (gapText more ++ d.source))) = .ok ((), c') :=
    ⟨_, fun context' => run_advance_eq_ok.2 ⟨gap', d.token, d.rest, start ▸ skipped',
      source ▸ scanned.scan, rfl⟩⟩
  have scanned' := scanned_of_advance (run (.module_ ⟨false, false⟩ 0))
  obtain ⟨_, _, _, again, -, rfl⟩ := run_advance_eq_ok.1 (run (.module_ ⟨false, false⟩ 0))
  refine ⟨mark ++ gapText pieces, _, by rw [split, List.append_assoc], ?_, rfl, run⟩
  obtain rfl := Option.some.inj (again.symm.trans (start ▸ skipped'))
  rw [← here]
  exact scanned'.here_eq scanned source

theorem Cursor.Scanned.behind (h : d.Scanned) (c : Cursor) : (c.behind d).Scanned := by
  refine ⟨h.scan, h.noGap, ?_⟩
  have stop := h.stop
  simp only [Cursor.behind]
  omega

/-- The statement that a text begins with, and the places of the abbreviated initial values in it, if the
cursor stands on the next token afterwards. -/
def firstStatement? (dialect : Dialect) (t : Text) : Option (TopStatement × List Nat) :=
  match Cursor.opening? t with
  | none => none
  | some c =>
    let limit := t.length + 4
    match (topStatement (upTo (16 * limit))).run (.module_ dialect limit) c with
    | .error _ => none
    | .ok (item, d) =>
      if c.source = t ∧ c.token ≠ .finish ∧ 0 < d.start ∧
          Cursor.opening? (t.after d.previous) = some d.here then
        some (item, d.covers)
      else none

theorem firstStatement?_eq_some : firstStatement? dialect t = some (item, covers) ↔
    ∃ c d, Cursor.opening? t = some c ∧ c.source = t ∧ c.token ≠ .finish ∧
      (topStatement (upTo (16 * (t.length + 4)))).run (.module_ dialect (t.length + 4)) c =
        .ok (item, d) ∧
      0 < d.start ∧ Cursor.opening? (t.after d.previous) = some d.here ∧ d.covers = covers := by
  unfold firstStatement?
  constructor
  · intro h
    split at h
    · cases h
    next c opening =>
    simp only at h
    split at h
    · cases h
    next item d run =>
    split at h
    · next standing =>
      cases h
      exact ⟨c, d, opening, standing.1, standing.2.1, run, standing.2.2.1, standing.2.2.2, rfl⟩
    · cases h
  · rintro ⟨c, d, opening, source, unfinished, run, moved, behind, rfl⟩
    simp only [opening, run, source, moved, behind, unfinished, ne_eq, not_false_eq_true, true_and, if_true]

/-- Two texts begin with the same statement. -/
def ReadsAlike (dialect : Dialect) (t u : Text) : Prop :=
  (firstStatement? dialect t).isSome = true ∧ firstStatement? dialect u = firstStatement? dialect t

instance (dialect : Dialect) (t u : Text) : Decidable (ReadsAlike dialect t u) :=
  inferInstanceAs (Decidable (_ ∧ _))

/-- A cursor has read the first statement of the text under another cursor, in offsets of this text, and
stands on the token that follows. -/
structure Cursor.ReadsFirst (dialect : Dialect) (c : Cursor) (item : TopStatement) (covers : List Nat)
    (d : Cursor) : Prop where
  step : ∀ limit, topStep.run (.module_ dialect limit) c = .ok (some (item.shift c.start), d)
  covers : d.covers = covers.map (· + c.start) ++ c.covers
  scanned : d.Scanned
  start : item.statement.span.start = 0
  boundary : c.source.isBoundary item.statement.span.stop = true
  behind : Cursor.opening? (c.source.after item.statement.span.stop) = some d.here

theorem Cursor.Scanned.exists_readsFirst (scanned : c.Scanned) (fits : c.Fits text)
    (h : firstStatement? dialect c.source = some (item, covers)) :
    ∃ d, c.ReadsFirst dialect item covers d := by
  obtain ⟨b, e, opening, -, unfinished, run, moved, behind, rfl⟩ := firstStatement?_eq_some.1 h
  obtain rfl := Option.some.inj (scanned.opening?_eq.symm.trans opening)
  have read := readFrom_of_topStatement run fits.here
  have fits' := ((topStatement _).forward run _ fits.here).1
  have stop : item.statement.span.stop = e.previous := by
    rw [read.span, Edit.Span.stop_ofBounds]
    exact Nat.max_eq_right (Nat.zero_le _)
  refine ⟨c.behind e, fun limit => ?_, rfl, (fits'.scanned_of_opening? behind).behind c, ?_, ?_, ?_⟩
  · exact run_topStep_eq_ok.2 (.inr ⟨unfinished, _,
      run_nextStatement_eq_ok.2 ⟨item, e, run, moved, rfl, rfl⟩, rfl⟩)
  · rw [read.span]
    rfl
  · rw [stop]
    exact fits'.previous
  · rw [stop, behind, c.here_behind]

theorem ReadsAlike.exists_readsFirst (h : ReadsAlike dialect c.source c'.source) (scanned : c.Scanned)
    (fits : c.Fits text) (scanned' : c'.Scanned) (fits' : c'.Fits u) :
    ∃ item covers d d', c.ReadsFirst dialect item covers d ∧ c'.ReadsFirst dialect item covers d' := by
  obtain ⟨⟨item, covers⟩, found⟩ := Option.isSome_iff_exists.1 h.1
  obtain ⟨d, first⟩ := scanned.exists_readsFirst fits found
  obtain ⟨d', first'⟩ := scanned'.exists_readsFirst fits' (h.2.trans found)
  exact ⟨item, covers, d, d', first, first'⟩

theorem ReadsAlike.exists_opening (h : ReadsAlike dialect t u) :
    ∃ c, Cursor.opening? u = some c ∧ c.source = u := by
  obtain ⟨⟨item, covers⟩, found⟩ := Option.isSome_iff_exists.1 (h.2 ▸ h.1)
  obtain ⟨c, _, opening, source, -⟩ := firstStatement?_eq_some.1 found
  exact ⟨c, opening, source⟩

end TidyImports.Script
