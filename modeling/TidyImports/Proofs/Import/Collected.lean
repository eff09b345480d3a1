import TidyImports.Import.Render
import TidyImports.Proofs.Import.Loose

/-! Comments that are given to specifiers. The gaps between specifiers are scanned for comments; where
each line comment ends with a line feed the scanner finds what stands there, so comments that are given
away are those of the declaration, each once and in order. -/
namespace TidyImports.Import

open Script

variable {text r : Text} {offset stop : Nat} {leading : List Text} {item : Listed Naming}
  {items : List (Listed Naming)} {pieces : List GapPiece} {attached : List SpecifierComments}
  {trivia : List Trivia}

def gapsOf (item : Listed Naming) : List (List GapPiece) :=
  lastGap item.words :: item.comma.toList.map Lexeme.gap

def textBehind (item : Listed Naming) : Text :=
  gapText (lastGap item.words) ++ fullText item.comma.toList

def triviaBehind (item : Listed Naming) : List Trivia :=
  triviaOf (lastGap item.words) ++ item.comma.toList.flatMap fun l => .comma :: triviaOf l.gap

/-- A specifier whose gaps can be scanned piece by piece. -/
structure Scannable (item : Listed Naming) : Prop where
  inhabited : item.words ≠ []
  comma : ∀ l ∈ item.comma, l.text = [',']
  gaps : ∀ gap ∈ gapsOf item, (∀ rest, IsGap rest gap) ∧ LinesEnd gap

/-- The comments of specifiers by what is found behind each of them, after those before the first. -/
inductive Attaches : List Text → List (Listed Naming) → List SpecifierComments → Prop
  | last {leading : List Text} {item : Listed Naming} {gap : GapComments}
    (divided : divideGap false false (triviaBehind item) = some gap) (nothing : gap.leading = []) :
    Attaches leading [item] [⟨leading, gap.trailing⟩]
  | cons {leading : List Text} {item next : Listed Naming} {more : List (Listed Naming)}
    {gap : GapComments} {own : List SpecifierComments}
    (divided : divideGap false false (triviaBehind item) = some gap) (comma : gap.hasComma = true)
    (rest : Attaches gap.leading (next :: more) own) :
    Attaches leading (item :: next :: more) (⟨leading, gap.trailing⟩ :: own)

theorem breakOn?_of_not_mem {c : Char} {s : Text} (h : c ∉ s) (t : Text) :
    Text.breakOn? [c] (s ++ c :: t) = some (s, t) := by
  induction s with
  | nil => simp [Text.breakOn?, Text.stripHead?]
  | cons d s ih =>
      obtain ⟨other, h⟩ := not_or.1 (List.mem_cons.not.1 h)
      have goesOn : Text.stripHead? [c] (d :: (s ++ c :: t)) = none := by
        simp [Text.stripHead?, other]
      rw [List.cons_append, Text.breakOn?, goesOn, ih h]
      rfl

theorem comma_not_mem_triviaOf (pieces : List GapPiece) : Trivia.comma ∉ triviaOf pieces := by
  intro h
  obtain ⟨piece, -, found⟩ := List.mem_filterMap.1 h
  cases piece with
  | blank c =>
      rw [triviaAt] at found
      split at found <;> cases found
  | line body => cases found
  | block body => cases found

theorem stops_of_closes {tail : Text} (closes : ∀ c ∈ tail.head?, c = '\x7d') :
    triviaStep tail = none := by
  cases tail with
  | nil => rfl
  | cons c tail =>
      rw [closes c rfl]
      rfl

theorem scanTrivia_gapText (tail : Text) (gap : ∀ rest, IsGap rest pieces) (lines : LinesEnd pieces)
    (closes : ∀ c ∈ tail.head?, c = '\x7d') (blank : AllBlank pieces) :
    scanTrivia (gapText pieces ++ tail) = (triviaOf pieces, tail) :=
  scanTrivia_eq_iff.2 ((scans_gapText_iff (gap tail) blank lines).2
    ⟨[], (List.append_nil _).symm, .stop (stops_of_closes closes)⟩)

theorem scans_comma_iff {t : Text} : Scans (',' :: t) trivia r ↔
    ∃ more, trivia = .comma :: more ∧ Scans t more r := by
  have step : triviaStep (',' :: t) = some (some .comma, t) := rfl
  exact scans_iff_of_step step

theorem textBehind_of_comma {l : Lexeme} (h : Scannable item) (hcomma : item.comma = some l) :
    textBehind item = gapText (lastGap item.words) ++ (',' :: gapText l.gap) := by
  simp [textBehind, hcomma, Lexeme.full, h.comma l hcomma]

theorem scanTrivia_behind (tail : Text) (h : Scannable item) (closes : ∀ c ∈ tail.head?, c = '\x7d')
    (blank : ∀ gap ∈ gapsOf item, AllBlank gap) :
    scanTrivia (textBehind item ++ tail) = (triviaBehind item, tail) := by
  have gaps := h.gaps
  rw [gapsOf, List.forall_mem_cons] at gaps blank
  cases hcomma : item.comma with
  | none =>
      have whole := scanTrivia_gapText tail gaps.1.1 gaps.1.2 closes blank.1
      simpa [textBehind, triviaBehind, hcomma] using whole
  | some l =>
      obtain ⟨gap, lines⟩ := gaps.2 l.gap (by simp [hcomma])
      have inner := scans_comma_iff.2 ⟨_, rfl, (scans_gapText_iff (gap tail)
        (blank.2 l.gap (by simp [hcomma])) lines).2
          ⟨[], (List.append_nil _).symm, .stop (stops_of_closes closes)⟩⟩
      have whole := (scans_gapText_iff (gaps.1.1 _) blank.1 gaps.1.2).2 ⟨_, rfl, inner⟩
      rw [textBehind_of_comma h hcomma, List.append_assoc]
      refine scanTrivia_eq_iff.2 ?_
      simpa [triviaBehind, hcomma] using whole

theorem allBlank_behind (tail : Text) (h : Scannable item)
    (fits : ∀ c ∈ (scanTrivia (textBehind item ++ tail)).2.head?, c = '\x7d') :
    ∀ gap ∈ gapsOf item, AllBlank gap := by
  have gaps := h.gaps
  have scan := scans_scanTrivia (textBehind item ++ tail)
  generalize scanTrivia (textBehind item ++ tail) = result at fits scan
  rw [gapsOf, List.forall_mem_cons] at gaps ⊢
  cases hcomma : item.comma with
  | none =>
      have shape : textBehind item = gapText (lastGap item.words) := by simp [textBehind, hcomma]
      rw [shape] at scan
      exact ⟨allBlank_of_scans (gaps.1.1 _) gaps.1.2 scan fits, by simp⟩
  | some l =>
      rw [textBehind_of_comma h hcomma, List.append_assoc] at scan
      have blank := allBlank_of_scans (gaps.1.1 _) gaps.1.2 scan fits
      obtain ⟨_, -, scan⟩ := (scans_gapText_iff (gaps.1.1 _) blank gaps.1.2).1 scan
      obtain ⟨_, -, scan⟩ := scans_comma_iff.1 scan
      obtain ⟨gap, lines⟩ := gaps.2 l.gap (by simp [hcomma])
      exact ⟨blank, by simpa using allBlank_of_scans (gap _) lines scan fits⟩

theorem headComments?_eq_some_iff {before : Text} (gap : ∀ rest, IsGap rest pieces)
    (lines : LinesEnd pieces) (brace : '\x7b' ∉ gapText pieces) :
    headComments? (before ++ '\x7b' :: gapText pieces) = some leading ↔
      AllBlank pieces ∧ leading = commentsIn (triviaOf pieces) := by
  have split : Text.breakOn? ['\x7b'] (before ++ '\x7b' :: gapText pieces).reverse =
      some ((gapText pieces).reverse, before.reverse) := by
    rw [List.reverse_append, List.reverse_cons, List.append_assoc, List.singleton_append]
    exact breakOn?_of_not_mem (by simpa using brace) _
  have scan := scanTrivia_gapText [] gap lines (by simp)
  rw [List.append_nil] at scan
  have comma : (triviaOf pieces).contains .comma = false := by
    simpa using comma_not_mem_triviaOf pieces
  simp only [headComments?, split, List.reverse_reverse]
  constructor
  · intro h
    split at h
    · next found =>
      simp only [Bool.and_eq_true, List.isEmpty_iff] at found
      have fits := allBlank_of_scans (gap []) lines (by
        rw [List.append_nil]
        exact scans_scanTrivia (gapText pieces)) (by simp [found.1])
      rw [scan fits] at h
      exact ⟨fits, (Option.some.inj h).symm⟩
    · cases h
  · rintro ⟨blank, rfl⟩
    rw [scan blank]
    simp only [comma]
    rfl

theorem fullText_item (item : Listed Naming) :
    fullText item.lexemes = spelled item.words ++ textBehind item := by
  rw [Listed.lexemes, fullText_append, fullText_eq item.words, List.append_assoc, textBehind]

theorem slice_behind (tail : Text) {u : Text} (h : text.RestAt offset (fullText item.lexemes ++ (tail ++ u))) :
    text.slice (offset + (spelled item.words).width)
      (offset + (fullText item.lexemes).width + tail.width) = textBehind item ++ tail := by
  rw [fullText_item, List.append_assoc] at h
  have place := h.append
  rw [← List.append_assoc] at place
  have slice := place.slice_eq
  have width : offset + (fullText item.lexemes).width + tail.width =
      offset + (spelled item.words).width + (textBehind item ++ tail).width := by
    rw [fullText_item, Text.width_append, Text.width_append]
    omega
  rw [width, slice]

theorem commentsFrom_last_iff {span : Edit.Span} :
    commentsFrom text stop leading [span] = some attached ↔
      ∃ gap, divideGap false false (scanTrivia (text.slice span.stop stop)).1 = some gap ∧
        (scanTrivia (text.slice span.stop stop)).2.startsWith ['\x7d'] = true ∧ gap.leading = [] ∧
          attached = [⟨leading, gap.trailing⟩] := by
  rw [commentsFrom]
  obtain ⟨trivia, r⟩ := scanTrivia (text.slice span.stop stop)
  cases hgap : divideGap false false trivia with
  | none => simp [hgap]
  | some gap => simp [hgap, and_assoc, eq_comm (a := attached)]

theorem commentsFrom_cons_iff {span next : Edit.Span} {more : List Edit.Span} :
    commentsFrom text stop leading (span :: next :: more) = some attached ↔
      ∃ gap, divideGap false false (scanTrivia (text.slice span.stop next.start)).1 = some gap ∧
        (scanTrivia (text.slice span.stop next.start)).2 = [] ∧ gap.hasComma = true ∧
          ∃ own, commentsFrom text stop gap.leading (next :: more) = some own ∧
            attached = ⟨leading, gap.trailing⟩ :: own := by
  rw [commentsFrom]
  obtain ⟨trivia, r⟩ := scanTrivia (text.slice span.stop next.start)
  cases hgap : divideGap false false trivia with
  | none => simp [hgap]
  | some gap => simp [hgap, and_assoc, eq_comm (a := attached)]

theorem head_of_startsWith {t : Text} {c : Char} (h : t.startsWith [c] = true) :
    ∀ d ∈ t.head?, d = c := by
  obtain ⟨u, opens⟩ := Option.isSome_iff_exists.1 h
  rw [Text.stripHead?_eq_some.1 opens]
  simp

theorem commentsFrom_eq_some_iff {inside u : Text} (scannable : ∀ item ∈ items, Scannable item)
    (inhabited : items ≠ [])
    (place : text.RestAt offset (fullText (items.flatMap Listed.lexemes) ++ ('\x7d' :: inside ++ u))) :
    commentsFrom text (offset + (fullText (items.flatMap Listed.lexemes)).width +
        Text.width ('\x7d' :: inside)) leading (spansAt offset items) = some attached ↔
      (∀ item ∈ items, ∀ gap ∈ gapsOf item, AllBlank gap) ∧ Attaches leading items attached := by
  induction items generalizing offset leading attached with
  | nil => exact absurd rfl inhabited
  | cons item items ih =>
      obtain ⟨own, scannable⟩ := List.forall_mem_cons.1 scannable
      have spans : spansAt offset (item :: items) =
          Edit.Span.ofBounds offset (offset + (spelled item.words).width) ::
            spansAt (offset + (fullText item.lexemes).width) items := rfl
      rw [List.flatMap_cons, fullText_append, List.append_assoc] at place
      cases items with
      | nil =>
          rw [List.flatMap_nil, fullText_nil, List.nil_append] at place
          have slice := slice_behind ('\x7d' :: inside) place
          have scan := scanTrivia_behind ('\x7d' :: inside) own (by simp)
          rw [List.flatMap_singleton, spans]
          change commentsFrom _ _ _ [Edit.Span.ofBounds offset _] = _ ↔ _
          rw [commentsFrom_last_iff, stop_ofBounds_add, slice, List.forall_mem_singleton]
          constructor
          · rintro ⟨gap, divided, ends, nothing, rfl⟩
            have blank := allBlank_behind _ own (head_of_startsWith ends)
            rw [scan blank] at divided
            exact ⟨blank, .last divided nothing⟩
          · rintro ⟨blank, attaches⟩
            obtain ⟨divided, nothing⟩ := attaches
            rw [scan blank]
            exact ⟨_, divided, by simp [Text.startsWith, Text.stripHead?], nothing, rfl⟩
      | cons next more =>
          have slice := slice_behind [] place
          have scan := scanTrivia_behind [] own (by simp)
          have later {leading attached} := @ih _ leading attached scannable (by simp) place.append
          rw [Text.width_nil, Nat.add_zero, List.append_nil] at slice
          rw [List.append_nil] at scan
          have stop : offset + (fullText ((item :: next :: more).flatMap Listed.lexemes)).width =
              offset + (fullText item.lexemes).width +
                (fullText ((next :: more).flatMap Listed.lexemes)).width := by
            rw [List.flatMap_cons, fullText_append, Text.width_append, Nat.add_assoc]
          rw [spans, stop]
          change commentsFrom _ _ _ (_ :: Edit.Span.ofBounds _ _ :: _) = _ ↔ _
          rw [commentsFrom_cons_iff, stop_ofBounds_add, Edit.Span.start_ofBounds, slice,
            List.forall_mem_cons]
          constructor
          · rintro ⟨gap, divided, ends, comma, others, found, rfl⟩
            have blank := allBlank_behind [] own (by rw [List.append_nil, ends]; simp)
            rw [scan blank] at divided
            obtain ⟨blanks, rest⟩ := later.1 found
            exact ⟨⟨blank, blanks⟩, .cons divided comma rest⟩
          · rintro ⟨⟨blank, blanks⟩, attaches⟩
            obtain _ | ⟨divided, comma, rest⟩ := attaches
            rw [scan blank]
            exact ⟨_, divided, rfl, comma, _, later.2 ⟨blanks, rest⟩, rfl⟩

def SpecifierComments.all (own : SpecifierComments) : List Text := own.leading ++ own.trailing

theorem Attaches.flatMap_all (h : Attaches leading items attached) :
    attached.flatMap SpecifierComments.all =
      leading ++ items.flatMap fun item => commentsIn (triviaBehind item) := by
  induction h with
  | @last leading item gap divided nothing =>
      have whole := (divideGap_comments divided).1
      rw [nothing, List.append_nil] at whole
      simp [SpecifierComments.all, whole]
  | @cons leading item next more gap own divided comma rest ih =>
      have whole := (divideGap_comments divided).1
      rw [List.flatMap_cons, ih, SpecifierComments.all, ← List.append_assoc, List.append_assoc leading,
        whole]
      simp

theorem placed_eq (attached : List SpecifierComments) :
    placed attached = (attached.flatMap SpecifierComments.all).length := by
  have general (n : Nat) : attached.foldl
      (fun n comments => n + comments.leading.length + comments.trailing.length) n =
        n + (attached.flatMap SpecifierComments.all).length := by
    induction attached generalizing n with
    | nil => rfl
    | cons own attached ih =>
        rw [List.foldl_cons, ih, List.flatMap_cons, SpecifierComments.all]
        simp only [List.length_append]
        omega
  rw [placed, general, Nat.zero_add]

theorem map_looseAt {tail : Text} (scannable : ∀ item ∈ items, Scannable item)
    (place : text.RestAt offset (fullText (items.flatMap Listed.lexemes) ++ tail)) :
    (looseAt offset items).map (commentText text) =
      items.flatMap fun item => commentsIn (triviaBehind item) := by
  induction items generalizing offset with
  | nil => rfl
  | cons item items ih =>
      obtain ⟨own, scannable⟩ := List.forall_mem_cons.1 scannable
      rw [List.flatMap_cons, fullText_append, List.append_assoc] at place
      have later := ih scannable place.append
      rw [Listed.lexemes, fullText_append, List.append_assoc] at place
      have words := place
      rw [fullText_eq item.words, List.append_assoc] at words
      have behind := map_gapComments words.append
      have comma : (lexemeComments (offset + (fullText item.words).width) item.comma.toList).map
          (commentText text) =
            commentsIn (item.comma.toList.flatMap fun l => .comma :: triviaOf l.gap) := by
        cases hcomma : item.comma with
        | none => rfl
        | some l =>
            have place := place.append
            simp only [hcomma, Option.toList_some, fullText_cons, fullText_nil, List.append_nil,
              Lexeme.full, List.append_assoc] at place
            have inner := map_gapComments place.append
            simpa [lexemeComments, commentsIn] using inner
      rw [looseAt, List.map_append, List.map_append, behind, comma, later, List.flatMap_cons,
        triviaBehind, commentsIn, commentsIn, commentsIn, List.filterMap_append]

theorem not_noGap_lineFeed (t : Text) : ¬NoGap ('\n' :: t) := by
  intro h
  have stays := h 0 false []
  rw [skipGap_blank_cons _ _ _ (by decide), if_pos (by decide)] at stays
  have moved := (skipGap_comments stays (.inl rfl)).1
  have size := Char.utf8Size_pos '\n'
  simp only at moved
  omega

theorem endsLine_of_append {c : Char} {t rest : Text} (stop : NoGap rest)
    (h : EndsLine (c :: t ++ rest)) : EndsLine (c :: t) := by
  obtain ⟨v, hv | hv⟩ := h
  · obtain ⟨rfl, -⟩ := List.cons.inj hv
    exact ⟨t, .inl rfl⟩
  · obtain ⟨rfl, behind⟩ := List.cons.inj hv
    cases t with
    | nil =>
        subst behind
        exact absurd stop (not_noGap_lineFeed v)
    | cons d t =>
        obtain ⟨rfl, -⟩ := List.cons.inj behind
        exact ⟨t, .inr rfl⟩

def EndsWithFeed (text : Text) (c : Edit.Span) : Prop :=
  isLineComment (spanText text c) = true → EndsLine (text.after c.stop)

theorem linesEnd_of_comments {rest : Text} (gap : IsGap rest pieces) (stop : NoGap rest)
    (place : text.RestAt offset (gapText pieces ++ rest))
    (ends : ∀ c ∈ gapComments offset pieces, EndsWithFeed text c) : LinesEnd pieces := by
  induction gap generalizing offset with
  | nil => trivial
  | blank _ _ ih => exact ih place.tail ends
  | @line body c pieces unbroken lineBreak more ih =>
      rw [gapText_cons, List.append_assoc] at place
      have inner : ∀ s ∈ gapComments (offset + (GapPiece.line body).text.width) (.blank c :: pieces),
          EndsWithFeed text s := fun s hs => ends s (List.mem_cons_of_mem _ hs)
      have own := ends _ List.mem_cons_self
      rw [EndsWithFeed, spanText_ofBounds place, stop_ofBounds_add, place.append.after_eq] at own
      exact ⟨endsLine_of_append stop (own rfl), ih place.append.tail inner⟩
  | @last body unbroken atEnd =>
      subst atEnd
      rw [gapText_cons, List.append_assoc] at place
      have own := ends _ List.mem_cons_self
      rw [EndsWithFeed, spanText_ofBounds place, stop_ofBounds_add, place.append.after_eq] at own
      exact absurd (own rfl) not_endsLine_nil
  | @block body pieces closes more ih =>
      rw [gapText_cons, List.append_assoc] at place
      exact ih place.append fun c hc => ends c (List.mem_cons_of_mem _ hc)

end TidyImports.Import
