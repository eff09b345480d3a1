import TidyImports.Proofs.Import.Collected

/-! Exactness of collecting. Where line comments end with line feeds and no comment before the first
specifier holds an opening brace, the comments given to specifiers are the loose comments of the
declaration. -/
namespace TidyImports.Import

open Script

variable {text v rest : Text} {offset : Nat} {item : Listed Naming} {items : List (Listed Naming)}
  {dialect : Dialect} {comments : List Edit.Span} {d : ImportDeclaration} {w : Wording}
  {pre post : List Lexeme} {opening closing : Lexeme} {attached : List SpecifierComments}

theorem steady_of_phrase {l : Lexeme} {ls : List Lexeme} (phrase : Phrase (l :: ls)) (more : ls ≠ [])
    (place : text.RestAt offset (gapText l.gap ++ (spelled ls ++ v)))
    (ends : ∀ c ∈ gapComments offset l.gap, EndsWithFeed text c) :
    (∀ rest, IsGap rest l.gap) ∧ LinesEnd l.gap := by
  obtain ⟨m, ls, rfl⟩ := List.exists_cons_of_ne_nil more
  have behind := (Phrase.cons_iff.1 phrase).2.2
  have inhabited := behind.spelled_ne_nil
  have gap : ∀ rest, IsGap rest l.gap := fun rest =>
    phrase.leads_spelled.gap.congr fun empty => absurd empty inhabited
  exact ⟨gap, linesEnd_of_comments (gap _) (behind.noGap_spelled v) place ends⟩

theorem scannable_of_phrase {behind : List Lexeme} (phrase : Phrase (item.lexemes ++ behind))
    (more : behind ≠ []) (inhabited : item.words ≠ [])
    (mark : ∀ l ∈ item.comma, l.token = .symbol ",")
    (place : text.RestAt offset (fullText item.lexemes ++ (spelled behind ++ v)))
    (ends : ∀ c ∈ gapComments (offset + (spelled item.words).width) (lastGap item.words) ++
      lexemeComments (offset + (fullText item.words).width) item.comma.toList, EndsWithFeed text c) :
    Scannable item := by
  obtain ⟨first, second⟩ := List.forall_mem_append.1 ends
  -- Behind the last word stand the comma, if there is one, and what follows.
  have words : item.words.dropLast ++ [item.words.getLast inhabited] = item.words :=
    List.dropLast_append_getLast inhabited
  have last : lastGap item.words = (item.words.getLast inhabited).gap := by
    rw [lastGap, List.getLast?_eq_some_getLast inhabited]
    rfl
  have inner : Phrase (item.words.getLast inhabited :: (item.comma.toList ++ behind)) := by
    rw [Listed.lexemes, ← words] at phrase
    simp only [List.append_assoc, List.singleton_append] at phrase
    exact (Phrase.append_iff.1 phrase).2.1
  have comma : ∀ l ∈ item.comma, l.text = [','] := fun l hl =>
    (mark l hl ▸ phrase.spells l (by simp [Listed.lexemes, Option.mem_def.1 hl])).eq_mark
      (by simp [marks])
  rw [fullText_item, textBehind, last, List.append_assoc, List.append_assoc, ← List.append_assoc
    (fullText item.comma.toList), ← spelled_append _ more] at place
  refine ⟨inhabited, comma, List.forall_mem_cons.2
    ⟨last ▸ steady_of_phrase inner (by simp [more]) place.append (last ▸ first), ?_⟩⟩
  cases hcomma : item.comma with
  | none => simp
  | some l =>
      have after := (Phrase.cons_iff.1 inner).2.2
      have place := place.append.append
      have width : offset + (spelled item.words).width + (gapText (lastGap item.words)).width =
          offset + (fullText item.words).width := by
        rw [fullText_eq, Text.width_append, Nat.add_assoc]
      rw [hcomma, Option.toList_some, List.singleton_append] at after place
      rw [← last, width, ← List.singleton_append, spelled_append _ more, fullText_cons, Lexeme.full,
        fullText_nil, List.append_nil, List.append_assoc, List.append_assoc] at place
      rw [hcomma] at second
      simp only [Option.toList_some, lexemeComments, List.append_nil] at second
      rw [Option.toList_some, List.map_singleton, List.forall_mem_singleton]
      exact steady_of_phrase after more place.append second

theorem length_spansAt (offset : Nat) (items : List (Listed Naming)) :
    (spansAt offset items).length = items.length := by
  induction items generalizing offset with
  | nil => rfl
  | cons item items ih => exact congrArg Nat.succ (ih _)

theorem words_ne_nil_of_list {types isType : Bool} (list : IsList (Naming.Tokens types isType) items) :
    ∀ item ∈ items, item.words ≠ [] := by
  have words {item : Listed Naming}
      (own : Naming.Tokens types isType (item.words.map Lexeme.token) item.value) :
      item.words ≠ [] := by
    intro empty
    obtain ⟨token, others, same, -⟩ := own.opens
    rw [empty] at same
    cases same
  induction list with
  | nil => simp
  | last own _ => exact List.forall_mem_singleton.2 (words own)
  | cons own _ _ _ ih => exact List.forall_mem_cons.2 ⟨words own, ih⟩

theorem scannable_of_list {types isType : Bool} {behind : List Lexeme}
    (list : IsList (Naming.Tokens types isType) items)
    (phrase : Phrase (items.flatMap Listed.lexemes ++ behind)) (more : behind ≠ [])
    (place : text.RestAt offset (fullText (items.flatMap Listed.lexemes) ++ (spelled behind ++ v)))
    (ends : ∀ c ∈ looseAt offset items, EndsWithFeed text c) : ∀ item ∈ items, Scannable item := by
  have words := words_ne_nil_of_list list
  -- By induction on the list; what follows a specifier is the rest of the list and what is behind it.
  induction list generalizing offset with
  | nil => simp
  | @last item own noComma =>
      rw [List.flatMap_singleton] at phrase place
      rw [List.forall_mem_singleton]
      rw [looseAt, looseAt, List.append_nil] at ends
      exact scannable_of_phrase phrase more (words item (by simp)) (by simp [noComma]) place ends
  | @cons item l items own comma mark list ih =>
      rw [List.flatMap_cons, List.append_assoc] at phrase
      rw [List.flatMap_cons, fullText_append, List.append_assoc] at place
      rw [looseAt, List.forall_mem_append] at ends
      have later := ih (Phrase.append_iff.1 phrase).2.1 place.append ends.2 fun i hi =>
        words i (List.mem_cons_of_mem _ hi)
      rw [← List.append_assoc (fullText (items.flatMap _)), ← spelled_append _ more] at place
      have first := scannable_of_phrase phrase (by simp [more]) (words item (by simp))
        (by simp [comma, mark]) place ends.1
      exact List.forall_mem_cons.2 ⟨first, later⟩

theorem spelled_of_braced {types : Bool} (braced : Braced types w pre opening items closing post) :
    spelled w.lexemes = fullText (pre ++ [opening]) ++
      (fullText (items.flatMap Listed.lexemes) ++ spelled (closing :: post)) := by
  rw [braced.lexemes, List.append_cons, spelled_append _ (by simp), spelled_append _ (by simp)]

theorem place_of_braced (h : Worded dialect text comments d w rest)
    (braced : Braced types w pre opening items closing post) :
    text.RestAt d.span.start (fullText (pre ++ [opening]) ++
      (fullText (items.flatMap Listed.lexemes) ++
        (spelled (closing :: post) ++ (gapText (lastGap w.lexemes) ++ rest)))) := by
  have place := h.place
  rw [fullText_eq, spelled_of_braced braced] at place
  simpa only [List.append_assoc] using place

theorem attachedComments?_cons_iff {declaration first : Edit.Span} {more : List Edit.Span}
    (loose : looseSpans declaration (first :: more) comments ≠ []) :
    attachedComments? text declaration (first :: more) comments = some attached ↔
      ∃ leading, headComments? (text.slice declaration.start first.start) = some leading ∧
        commentsFrom text declaration.stop leading (first :: more) = some attached ∧
          placed attached = (looseSpans declaration (first :: more) comments).length := by
  have counted : looseComments declaration (first :: more) comments ≠ 0 := by
    simpa [looseComments_eq] using loose
  unfold attachedComments?
  simp only [if_neg counted, ← looseComments_eq]
  cases headComments? (text.slice declaration.start first.start) with
  | none => simp
  | some leading =>
      cases hfound : commentsFrom text declaration.stop leading (first :: more) with
      | none => simp [hfound]
      | some found =>
          simp only [hfound, Option.some.injEq, exists_eq_left', Option.ite_none_right_eq_some]
          constructor
          · rintro ⟨count, rfl⟩
            exact ⟨rfl, count⟩
          · rintro ⟨rfl, count⟩
            exact ⟨count, rfl⟩

theorem attachedComments?_of_looseSpans {declaration : Edit.Span} {named : List Edit.Span}
    (loose : looseSpans declaration named comments = []) :
    attachedComments? text declaration named comments = some (named.map fun _ => ⟨[], []⟩) := by
  unfold attachedComments?
  simp [looseComments_eq, loose]

theorem attachedComments?_nil {declaration : Edit.Span}
    (loose : looseSpans declaration [] comments ≠ []) :
    attachedComments? text declaration [] comments = none := by
  unfold attachedComments?
  simp [looseComments_eq, loose]

/-- The comments given to the specifiers of a declaration are those found where blanks and comments are
all that stands behind the opening brace and behind each specifier, if none else is loose. -/
theorem attachedComments?_eq_some_iff (h : Worded dialect text comments d w rest)
    (braced : Braced types w pre opening items closing post)
    (scannable : ∀ item ∈ items, Scannable item) (inhabited : items ≠ [])
    (gap : ∀ rest, IsGap rest opening.gap) (lines : LinesEnd opening.gap)
    (brace : '\x7b' ∉ gapText opening.gap)
    (loose : looseSpans d.span (d.specifiers.filterMap namedSpan?) comments ≠ []) :
    attachedComments? text d.span (d.specifiers.filterMap namedSpan?) comments = some attached ↔
      AllBlank opening.gap ∧ (∀ item ∈ items, ∀ gap ∈ gapsOf item, AllBlank gap) ∧
        Attaches (commentsIn (triviaOf opening.gap)) items attached ∧
        (attached.flatMap SpecifierComments.all).length =
          (looseSpans d.span (d.specifiers.filterMap namedSpan?) comments).length := by
  have place := place_of_braced h braced
  have phrase := h.phrase
  rw [braced.lexemes] at phrase
  have spells := (Phrase.append_iff.1 phrase).2.1.spells
  have opens : opening.text = ['\x7b'] :=
    (braced.opens ▸ spells opening (by simp)).eq_mark (by simp [marks])
  have closes : closing.text = ['\x7d'] :=
    (braced.closes ▸ spells closing (by simp)).eq_mark (by simp [marks])
  obtain ⟨inside, hinside⟩ : ∃ inside, spelled (closing :: post) = '\x7d' :: inside := by
    cases post <;> simp [spelled, Lexeme.full, closes]
  have stop : d.span.stop = d.span.start + (fullText (pre ++ [opening])).width +
      (fullText (items.flatMap Listed.lexemes)).width + Text.width ('\x7d' :: inside) := by
    have declares := congrArg (fun d => d.span.stop) h.declares
    refine declares.trans ((stop_ofBounds_add _ _).trans ?_)
    rw [spelled_of_braced braced, hinside, Text.width_append, Text.width_append]
    omega
  have head : fullText (pre ++ [opening]) = fullText pre ++ '\x7b' :: gapText opening.gap := by
    simp [Lexeme.full, opens]
  obtain ⟨first, more, hspans⟩ : ∃ first more, spansAt
      (d.span.start + (fullText (pre ++ [opening])).width) items = first :: more ∧
        first.start = d.span.start + (fullText (pre ++ [opening])).width := by
    obtain ⟨item, items, rfl⟩ := List.exists_cons_of_ne_nil inhabited
    exact ⟨_, _, rfl, rfl⟩
  have slice : text.slice d.span.start first.start = fullText pre ++ '\x7b' :: gapText opening.gap := by
    rw [hspans.2, place.slice_eq, head]
  have named := (namedSpans_eq h braced).trans hspans.1
  have between (leading : List Text) : commentsFrom text d.span.stop leading (first :: more) =
      some attached ↔ (∀ item ∈ items, ∀ gap ∈ gapsOf item, AllBlank gap) ∧
        Attaches leading items attached := by
    rw [stop, ← hspans.1]
    exact commentsFrom_eq_some_iff scannable inhabited (hinside ▸ place.append)
  rw [named] at loose ⊢
  rw [attachedComments?_cons_iff loose, slice, placed_eq]
  constructor
  · rintro ⟨leading, found, attaches, count⟩
    obtain ⟨blank, rfl⟩ := (headComments?_eq_some_iff gap lines brace).1 found
    obtain ⟨blanks, attaches⟩ := (between _).1 attaches
    exact ⟨blank, blanks, attaches, count⟩
  · rintro ⟨blank, blanks, attaches, count⟩
    exact ⟨_, (headComments?_eq_some_iff gap lines brace).2 ⟨blank, rfl⟩,
      (between _).2 ⟨blanks, attaches⟩, count⟩

theorem not_mem_gapText {pieces : List GapPiece} {x : Char} (gap : IsGap rest pieces)
    (visible : (isLineBreak x || isGap x) = false)
    (place : text.RestAt offset (gapText pieces ++ v))
    (comments : ∀ c ∈ gapComments offset pieces, x ∉ spanText text c) : x ∉ gapText pieces := by
  have blank {c : Char} (hc : (isLineBreak c || isGap c) = true) : x ≠ c := by
    rintro rfl
    rw [visible] at hc
    cases hc
  induction gap generalizing offset with
  | nil => simp
  | blank hc _ ih =>
      exact List.mem_cons.not.2 (not_or.2 ⟨blank hc, ih place.tail comments⟩)
  | @line body c pieces unbroken lineBreak more ih =>
      rw [gapText_cons, List.append_assoc] at place
      obtain ⟨own, others⟩ := List.forall_mem_cons.1 comments
      rw [spanText_ofBounds place] at own
      rw [gapText_cons, List.mem_append, not_or]
      exact ⟨own, List.mem_cons.not.2 (not_or.2 ⟨blank (by simp [lineBreak]),
        ih place.append.tail others⟩)⟩
  | last unbroken atEnd =>
      rw [gapText_cons, List.append_assoc] at place
      have own := comments _ List.mem_cons_self
      rw [spanText_ofBounds place] at own
      simpa using own
  | @block body pieces closes more ih =>
      rw [gapText_cons, List.append_assoc] at place
      obtain ⟨own, others⟩ := List.forall_mem_cons.1 comments
      rw [spanText_ofBounds place] at own
      rw [gapText_cons, List.mem_append, not_or]
      exact ⟨own, ih place.append others⟩

/-- The scanner agrees with the parser on comments: none before the first specifier holds an opening
brace, and each line comment ends with a line feed. -/
structure PlainComments (text : Text) (named loose : List Edit.Span) : Prop where
  braces : ∀ c ∈ loose, (∀ span ∈ named.head?, c.stop ≤ span.start) → '\x7b' ∉ spanText text c
  feeds : ∀ c ∈ loose, EndsWithFeed text c

theorem Attaches.length_eq {leading : List Text} (h : Attaches leading items attached) :
    attached.length = items.length := by
  induction h with
  | last => rfl
  | cons _ _ _ ih => simpa using ih

theorem looseSpans_split (h : Worded dialect text comments d w rest)
    (braced : Braced types w pre opening items closing post)
    (inhabited : ∀ item ∈ items, item.words ≠ []) :
    looseSpans d.span (d.specifiers.filterMap namedSpan?) comments =
      lexemeComments d.span.start pre ++
        ((gapComments (d.span.start + (fullText pre).width + opening.text.width) opening.gap ++
          looseAt (d.span.start + (fullText pre).width + opening.text.width +
            (gapText opening.gap).width) items) ++
        lexemeComments (d.span.start + (fullText pre).width + opening.text.width +
          (gapText opening.gap).width + (fullText (items.flatMap Listed.lexemes)).width)
            (closing :: post).dropLast) := by
  rw [looseSpans_eq h braced inhabited]
  simp only [lexemeComments_append, fullText_append, lexemeComments, List.append_nil, fullText_cons,
    fullText_nil, Lexeme.full, Text.width_append, ← Nat.add_assoc, List.append_assoc]

theorem place_of_opening (h : Worded dialect text comments d w rest)
    (braced : Braced types w pre opening items closing post) :
    text.RestAt (d.span.start + (fullText pre).width + opening.text.width) (gapText opening.gap ++
      (fullText (items.flatMap Listed.lexemes) ++
        (spelled (closing :: post) ++ (gapText (lastGap w.lexemes) ++ rest)))) := by
  have place := place_of_braced h braced
  simp only [fullText_append, fullText_cons, fullText_nil, Lexeme.full, List.append_nil,
    List.append_assoc] at place
  exact place.append.append

theorem map_inner_comments (h : Worded dialect text comments d w rest)
    (braced : Braced types w pre opening items closing post)
    (scannable : ∀ item ∈ items, Scannable item) :
    (gapComments (d.span.start + (fullText pre).width + opening.text.width) opening.gap ++
      looseAt (d.span.start + (fullText pre).width + opening.text.width +
        (gapText opening.gap).width) items).map (commentText text) =
      commentsIn (triviaOf opening.gap) ++ items.flatMap fun item => commentsIn (triviaBehind item) := by
  have place := place_of_opening h braced
  rw [List.map_append, map_gapComments place, map_looseAt scannable place.append]

theorem map_looseSpans_of_attached (h : Worded dialect text comments d w rest)
    (braced : Braced dialect.types w pre opening items closing post) (inhabited : items ≠ [])
    (loose : looseSpans d.span (d.specifiers.filterMap namedSpan?) comments ≠ [])
    (plain : PlainComments text (d.specifiers.filterMap namedSpan?)
      (looseSpans d.span (d.specifiers.filterMap namedSpan?) comments))
    (attaches : attachedComments? text d.span (d.specifiers.filterMap namedSpan?) comments =
      some attached) :
    attached.length = items.length ∧ attached.flatMap SpecifierComments.all =
      (looseSpans d.span (d.specifiers.filterMap namedSpan?) comments).map (commentText text) := by
  obtain ⟨braces, feeds⟩ := plain
  have split := looseSpans_split h braced (words_ne_nil_of_list braced.list)
  have behind := place_of_opening h braced
  have named := namedSpans_eq h braced
  simp only [fullText_append, fullText_cons, fullText_nil, Lexeme.full, List.append_nil,
    Text.width_append, ← Nat.add_assoc] at named
  have phrase := h.phrase
  rw [braced.lexemes] at phrase
  have follows := (Phrase.append_iff.1 phrase).2.1
  -- What is loose there is plain, so it is scanned as it stands.
  have outer : ∀ c ∈ gapComments (d.span.start + (fullText pre).width + opening.text.width)
      opening.gap, c ∈ looseSpans d.span (d.specifiers.filterMap namedSpan?) comments := by
    intro c hc
    rw [split]
    simp [hc]
  have inner : ∀ c ∈ looseAt (d.span.start + (fullText pre).width + opening.text.width +
      (gapText opening.gap).width) items,
        c ∈ looseSpans d.span (d.specifiers.filterMap namedSpan?) comments := by
    intro c hc
    rw [split]
    simp [hc]
  have scannable := scannable_of_list braced.list (Phrase.cons_iff.1 follows).2.2 (by simp)
    behind.append fun c hc => feeds c (inner c hc)
  rw [← List.append_assoc (fullText (items.flatMap _)), ← spelled_append _ (by simp)] at behind
  obtain ⟨gap, lines⟩ := steady_of_phrase follows (by simp) behind fun c hc => feeds c (outer c hc)
  have brace : '\x7b' ∉ gapText opening.gap := by
    refine not_mem_gapText (gap []) (by decide) behind fun c hc => braces c (outer c hc) ?_
    intro span hspan
    rw [named] at hspan
    exact (bounds_of_gapComments hc).2.2.trans (start_of_spansAt (List.mem_of_mem_head? hspan))
  obtain ⟨-, -, given, count⟩ := (attachedComments?_eq_some_iff h braced scannable inhabited gap lines
    brace loose).1 attaches
  have whole := given.flatMap_all.trans (map_inner_comments h braced scannable).symm
  -- As many comments are given away as are loose, so none are loose elsewhere.
  rw [whole, split] at count
  simp only [List.length_append, List.length_map] at count
  have first : lexemeComments d.span.start pre = [] := List.eq_nil_of_length_eq_zero (by omega)
  have last := List.eq_nil_of_length_eq_zero (l := lexemeComments (d.span.start + (fullText pre).width +
    opening.text.width + (gapText opening.gap).width + (fullText (items.flatMap Listed.lexemes)).width)
      (closing :: post).dropLast) (by omega)
  rw [whole, split, first, last, List.nil_append, List.append_nil]
  exact ⟨given.length_eq, rfl⟩

/-- The comments given to the specifiers of a declaration of a script are its loose comments, each once
and in the order in which they stand there, if these are plain. -/
theorem attachedComments?_exact {program : Program} (h : parse dialect text = .ok program)
    (hd : d ∈ declarations program.statements)
    (plain : PlainComments text (d.specifiers.filterMap namedSpan?)
      (looseSpans d.span (d.specifiers.filterMap namedSpan?) program.comments))
    (attaches : attachedComments? text d.span (d.specifiers.filterMap namedSpan?) program.comments =
      some attached) :
    attached.length = (d.specifiers.filterMap namedSpan?).length ∧
      attached.flatMap SpecifierComments.all =
        (looseSpans d.span (d.specifiers.filterMap namedSpan?) program.comments).map
          (commentText text) ∧
      (looseSpans d.span (d.specifiers.filterMap namedSpan?) program.comments).Pairwise
        fun a b => a.stop ≤ b.start := by
  obtain ⟨w, rest, worded⟩ := exists_worded h hd
  have ordered := pairwise_looseSpans worded (by simp [Wording.lexemes])
    (d.specifiers.filterMap namedSpan?)
  by_cases loose : looseSpans d.span (d.specifiers.filterMap namedSpan?) program.comments = []
  · rw [attachedComments?_of_looseSpans loose] at attaches
    cases attaches
    refine ⟨List.length_map _, ?_, ordered⟩
    rw [loose, List.flatMap_map]
    exact List.flatMap_eq_nil_iff.2 fun _ _ => rfl
  · have inhabited : d.specifiers.filterMap namedSpan? ≠ [] := by
      intro empty
      rw [empty] at attaches loose
      rw [attachedComments?_nil loose] at attaches
      cases attaches
    obtain ⟨pre, opening, items, closing, post, braced⟩ : ∃ pre opening items closing post,
        Braced dialect.types w pre opening items closing post := by
      rw [worded.declares] at inhabited
      exact exists_braced worded.valid inhabited
    have named := namedSpans_eq worded braced
    have some : items ≠ [] := by
      rintro rfl
      exact inhabited named
    obtain ⟨count, whole⟩ := map_looseSpans_of_attached worded braced some loose plain attaches
    exact ⟨by rw [count, named, length_spansAt], whole, ordered⟩

instance (t : Text) : Decidable (EndsLine t) :=
  decidable_of_iff (t.head? = some '\n' ∨ t.take 2 = ['\r', '\n']) (by
    unfold EndsLine
    match t with
    | [] => simp
    | [c] => simp
    | c :: d :: u => simp [exists_or])

instance (text : Text) (c : Edit.Span) : Decidable (EndsWithFeed text c) :=
  inferInstanceAs (Decidable (_ → _))

instance (text : Text) (named loose : List Edit.Span) : Decidable (PlainComments text named loose) :=
  decidable_of_iff (_ ∧ _) ⟨fun h => ⟨h.1, h.2⟩, fun h => ⟨h.braces, h.feeds⟩⟩

/-- Comments before, behind and between specifiers, on their lines and on lines of their own. -/
def commentedScript : Text :=
  "import d, \x7b // first\n  b, /* of b */ // too\n  /* a */ a // last\n\x7d from 'x';\n".toList

theorem commentedScript_exact :
    ∃ d ∈ declarations (parsed ⟨false, false⟩ commentedScript).statements,
      PlainComments commentedScript (d.specifiers.filterMap namedSpan?)
          (looseSpans d.span (d.specifiers.filterMap namedSpan?)
            (parsed ⟨false, false⟩ commentedScript).comments) ∧
        attachedComments? commentedScript d.span (d.specifiers.filterMap namedSpan?)
          (parsed ⟨false, false⟩ commentedScript).comments =
            some [⟨["// first".toList], ["/* of b */".toList, "// too".toList]⟩,
              ⟨["/* a */".toList], ["// last".toList]⟩] ∧
        ["// first".toList, "/* of b */".toList, "// too".toList, "/* a */".toList,
          "// last".toList] =
            (looseSpans d.span (d.specifiers.filterMap namedSpan?)
              (parsed ⟨false, false⟩ commentedScript).comments).map (commentText commentedScript) := by
  have found : (declarations (parsed ⟨false, false⟩ commentedScript).statements).map (fun d =>
      (decide (PlainComments commentedScript (d.specifiers.filterMap namedSpan?)
        (looseSpans d.span (d.specifiers.filterMap namedSpan?)
          (parsed ⟨false, false⟩ commentedScript).comments)),
        attachedComments? commentedScript d.span (d.specifiers.filterMap namedSpan?)
          (parsed ⟨false, false⟩ commentedScript).comments)) =
        [(true, some [⟨["// first".toList], ["/* of b */".toList, "// too".toList]⟩,
          ⟨["/* a */".toList], ["// last".toList]⟩])] := by decide +kernel
  obtain ⟨d, hd, same⟩ := List.map_eq_singleton_iff.1 found
  obtain ⟨plain, attaches⟩ := Prod.mk.inj same
  have mem : d ∈ declarations (parsed ⟨false, false⟩ commentedScript).statements := by simp [hd]
  exact ⟨d, mem, of_decide_eq_true plain, attaches,
    (attachedComments?_exact (parse_eq_parsed (by decide +kernel)) mem (of_decide_eq_true plain)
      attaches).2.1⟩

def bracedCommentScript : Text := "import \x7b /* \x7b // */ b, a \x7d from 'x';\nuse(a, b);\n".toList

theorem attachedComments?_inexact : ¬ ∀ (program : Program) (d : ImportDeclaration)
    (attached : List SpecifierComments), parse ⟨false, false⟩ bracedCommentScript = .ok program →
      d ∈ declarations program.statements →
      attachedComments? bracedCommentScript d.span (d.specifiers.filterMap namedSpan?)
        program.comments = some attached →
      attached.flatMap SpecifierComments.all =
        (looseSpans d.span (d.specifiers.filterMap namedSpan?) program.comments).map
          (commentText bracedCommentScript) := by
  intro exact
  have found : (declarations (parsed ⟨false, false⟩ bracedCommentScript).statements).map (fun d =>
      (attachedComments? bracedCommentScript d.span (d.specifiers.filterMap namedSpan?)
        (parsed ⟨false, false⟩ bracedCommentScript).comments,
      (looseSpans d.span (d.specifiers.filterMap namedSpan?)
        (parsed ⟨false, false⟩ bracedCommentScript).comments).map (commentText bracedCommentScript))) =
        [(some [⟨["// */".toList], []⟩, ⟨[], []⟩], ["/* \x7b // */".toList])] := by decide +kernel
  obtain ⟨d, hd, same⟩ := List.map_eq_singleton_iff.1 found
  obtain ⟨attaches, loose⟩ := Prod.mk.inj same
  have claimed := exact _ d _ (parse_eq_parsed (by decide +kernel)) (by simp [hd]) attaches
  rw [loose] at claimed
  exact absurd claimed (by decide)

end TidyImports.Import
