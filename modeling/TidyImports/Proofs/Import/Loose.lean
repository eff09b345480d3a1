import TidyImports.Proofs.Import.Divided
import TidyImports.Proofs.Import.Trivia

/-! Comments between specifiers. A comment of a declaration either lies inside one of its specifiers or is
loose; the loose comments are those before the first specifier, those between a specifier and the next
one, and those behind the last one, in this order. -/
namespace TidyImports.Import

open Script

variable {text rest : Text} {offset : Nat} {types : Bool} {w : Wording} {ls : List Lexeme}
  {pieces : List GapPiece} {c span : Edit.Span} {named : List Edit.Span} {items : List (Listed Naming)}

def looseSpans (declaration : Edit.Span) (named comments : List Edit.Span) : List Edit.Span :=
  comments.filter fun c => c.within declaration && !named.any fun span => c.within span

def spansAt (offset : Nat) (items : List (Listed Naming)) : List Edit.Span :=
  Listed.valuesAt (fun start stop _ => Edit.Span.ofBounds start stop) offset items

def looseAt (offset : Nat) : List (Listed Naming) → List Edit.Span
  | [] => []
  | item :: items =>
    gapComments (offset + (spelled item.words).width) (lastGap item.words) ++
      lexemeComments (offset + (fullText item.words).width) item.comma.toList ++
      looseAt (offset + (fullText item.lexemes).width) items

/-- The lexemes of a wording around its specifiers in braces. -/
structure Braced (types : Bool) (w : Wording) (pre : List Lexeme) (opening : Lexeme)
    (items : List (Listed Naming)) (closing : Lexeme) (post : List Lexeme) : Prop where
  lexemes : w.lexemes = pre ++ opening :: (items.flatMap Listed.lexemes ++ closing :: post)
  opens : opening.token = .symbol "\x7b"
  list : IsList (Naming.Tokens types w.isType) items
  closes : closing.token = .symbol "\x7d"
  named : ∀ offset, (w.specifiers offset).filterMap namedSpan? =
    spansAt (offset + (fullText (pre ++ [opening])).width) items

theorem looseComments_eq (declaration : Edit.Span) (named comments : List Edit.Span) :
    looseComments declaration named comments = (looseSpans declaration named comments).length :=
  List.countP_eq_length_filter

theorem filterMap_namedSpan_valuesAt (offset : Nat) (items : List (Listed Naming)) :
    (Listed.valuesAt Naming.specifier offset items).filterMap namedSpan? = spansAt offset items := by
  induction items generalizing offset with
  | nil => rfl
  | cons item items ih =>
      change Edit.Span.ofBounds _ _ :: List.filterMap namedSpan? _ = _
      rw [ih]
      rfl

/-- The lexemes of a wording around what stands behind the default name, if there is one. -/
structure Tailed (types : Bool) (w : Wording) (before : List Lexeme) (tail : Tail) (from' : Lexeme) :
    Prop where
  bound : w.bound = before ++ tail.lexemes ++ [from']
  named : ∀ offset, (w.specifiers offset).filterMap namedSpan? =
    (tail.specifiers (offset + (fullText w.opening).width +
      (fullText before).width)).filterMap namedSpan?
  valid : tail.Valid types w.isType

theorem tailed_tail {tail : Tail} {from' : Lexeme} (h : w.binders = some (.tail tail, from'))
    (valid : tail.Valid types w.isType) : Tailed types w [] tail from' where
  bound := by rw [Wording.bound, h, boundBy, Binders.lexemes, List.nil_append]
  named offset := by
    rw [Wording.specifiers, h, specifiersBy]
    rfl
  valid := valid

theorem tailed_both {name comma from' : Lexeme} {tail : Tail}
    (h : w.binders = some (.both name comma tail, from')) (valid : tail.Valid types w.isType) :
    Tailed types w [name, comma] tail from' where
  bound := by
    rw [Wording.bound, h, boundBy, Binders.lexemes]
    rfl
  named offset := by
    rw [Wording.specifiers, h, specifiersBy, Binders.specifiers, Binders.defaultAt,
      List.filterMap_cons_none rfl]
    simp [Text.width_append, Nat.add_assoc]
  valid := valid

theorem Tailed.lexemes {before : List Lexeme} {tail : Tail} {from' : Lexeme}
    (h : Tailed types w before tail from') : w.lexemes =
      (w.opening ++ before) ++ (tail.lexemes ++ from' :: w.source :: (w.attributes ++ w.ending)) := by
  rw [Wording.lexemes, h.bound]
  simp

theorem Tailed.braced {before : List Lexeme} {opening closing from' : Lexeme}
    (h : Tailed types w before (.braces opening items closing) from') :
    Braced types w (w.opening ++ before) opening items closing
      (from' :: w.source :: (w.attributes ++ w.ending)) := by
  obtain ⟨opens, list, closes⟩ : opening.token = .symbol "\x7b" ∧
      IsList (Naming.Tokens types w.isType) items ∧ closing.token = .symbol "\x7d" := by
    obtain _ | ⟨opens, list, closes⟩ := h.valid
    exact ⟨opens, list, closes⟩
  refine ⟨?_, opens, list, closes, fun offset => ?_⟩
  · rw [h.lexemes, Tail.lexemes]
    simp
  · rw [h.named, Tail.specifiers, filterMap_namedSpan_valuesAt]
    simp [Text.width_append, Nat.add_assoc]

theorem exists_braced (valid : w.Valid types)
    (inhabited : (w.specifiers offset).filterMap namedSpan? ≠ []) :
    ∃ pre opening items closing post, Braced types w pre opening items closing post := by
  have braces {before : List Lexeme} {tail : Tail} {from' : Lexeme}
      (tailed : Tailed types w before tail from') :
      ∃ pre opening items closing post, Braced types w pre opening items closing post := by
    cases tail with
    | whole star as name =>
        rw [tailed.named] at inhabited
        exact absurd rfl inhabited
    | braces opening items closing => exact ⟨_, _, _, _, _, tailed.braced⟩
  cases hbinders : w.binders with
  | none => simp [Wording.specifiers, hbinders, specifiersBy] at inhabited
  | some found =>
      obtain ⟨binders, from'⟩ := found
      cases (valid.binders binders from' hbinders).1 with
      | default binding =>
          rw [Wording.specifiers, hbinders, specifiersBy] at inhabited
          exact absurd rfl inhabited
      | tail more => exact braces (tailed_tail hbinders more)
      | both _ _ more _ => exact braces (tailed_both hbinders more)

theorem bounds_of_gapComments (h : c ∈ gapComments offset pieces) :
    offset ≤ c.start ∧ c.start < c.stop ∧ c.stop ≤ offset + (gapText pieces).width := by
  induction pieces generalizing offset with
  | nil => cases h
  | cons piece pieces ih =>
      have later (h : c ∈ gapComments (offset + piece.text.width) pieces) :
          offset ≤ c.start ∧ c.start < c.stop ∧
            c.stop ≤ offset + (gapText (piece :: pieces)).width := by
        have := ih h
        rw [gapText_cons, Text.width_append]
        omega
      rw [gapComments] at h
      split at h
      · next isComment =>
        rcases List.mem_cons.1 h with rfl | h
        · have inhabited : 0 < piece.text.width := by
            have slash := Char.utf8Size_pos '/'
            cases piece with
            | blank c => cases isComment
            | line body =>
                simp only [GapPiece.text, Text.width_cons]
                omega
            | block body =>
                simp only [GapPiece.text, Text.width_cons]
                omega
          rw [Edit.Span.stop_ofBounds, Edit.Span.start_ofBounds, gapText_cons, Text.width_append]
          omega
        · exact later h
      · exact later h

theorem bounds_of_lexemeComments (h : c ∈ lexemeComments offset ls) :
    offset ≤ c.start ∧ c.start < c.stop ∧ c.stop ≤ offset + (fullText ls).width := by
  induction ls generalizing offset with
  | nil => cases h
  | cons l ls ih =>
      rw [fullText_cons, Lexeme.full, Text.width_append, Text.width_append]
      rcases List.mem_append.1 h with own | later
      · have := bounds_of_gapComments own
        omega
      · have := ih later
        rw [Lexeme.full, Text.width_append] at this
        omega

theorem lexemeComments_dropLast (offset : Nat) (h : ls ≠ []) :
    lexemeComments offset ls = lexemeComments offset ls.dropLast ++
      gapComments (offset + (spelled ls).width) (lastGap ls) ∧
    (fullText ls.dropLast).width ≤ (spelled ls).width := by
  obtain ⟨init, l, rfl⟩ := (List.eq_nil_or_concat' ls).resolve_left h
  rw [List.dropLast_concat, spelled_append init (by simp), lexemeComments_append]
  simp [lexemeComments, lastGap, spelled, Text.width_append, Nat.add_assoc]

theorem not_within (inhabited : c.start < c.stop) (apart : span.stop ≤ c.start ∨ c.stop ≤ span.start) :
    c.within span = false := by
  by_contra inside
  simp only [Bool.not_eq_false, Edit.Span.within, Bool.and_eq_true, decide_eq_true_eq] at inside
  omega

theorem start_of_spansAt (h : span ∈ spansAt offset items) : offset ≤ span.start := by
  induction items generalizing offset with
  | nil => cases h
  | cons item items ih =>
      rcases List.mem_cons.1 h with rfl | h
      · exact Nat.le_refl _
      · exact (Nat.le_add_right _ _).trans (ih h)

theorem outside_iff : (!named.any fun span => c.within span) = true ↔
    ∀ span ∈ named, c.within span = false := by
  simp

theorem stop_ofBounds_add (offset width : Nat) :
    (Edit.Span.ofBounds offset (offset + width)).stop = offset + width := by
  rw [Edit.Span.stop_ofBounds]
  omega

theorem filter_outside_item {item : Listed Naming} (offset : Nat) (named : List Edit.Span)
    (inhabited : item.words ≠ [])
    (own : Edit.Span.ofBounds offset (offset + (spelled item.words).width) ∈ named)
    (apart : ∀ span ∈ named, span.stop ≤ offset + (spelled item.words).width ∨
      offset + (fullText item.lexemes).width ≤ span.start) :
    (lexemeComments offset item.lexemes).filter (fun c => !named.any fun span => c.within span) =
      gapComments (offset + (spelled item.words).width) (lastGap item.words) ++
        lexemeComments (offset + (fullText item.words).width) item.comma.toList := by
  obtain ⟨inner, shorter⟩ := lexemeComments_dropLast offset inhabited
  have widths : (fullText item.words).width =
      (spelled item.words).width + (gapText (lastGap item.words)).width := by
    rw [fullText_eq, Text.width_append]
  have itemWidth : (fullText item.lexemes).width =
      (fullText item.words).width + (fullText item.comma.toList).width := by
    rw [Listed.lexemes, fullText_append, Text.width_append]
  have inside : ∀ c ∈ lexemeComments offset item.words.dropLast,
      ¬(!named.any fun span => c.within span) = true := by
    intro c hc outside
    have bounds := bounds_of_lexemeComments hc
    have within : c.within (Edit.Span.ofBounds offset (offset + (spelled item.words).width)) = true := by
      rw [Edit.Span.within, stop_ofBounds_add, Edit.Span.start_ofBounds]
      simp only [Bool.and_eq_true, decide_eq_true_eq]
      omega
    rw [outside_iff.1 outside _ own] at within
    cases within
  have outside : ∀ c ∈ gapComments (offset + (spelled item.words).width) (lastGap item.words) ++
      lexemeComments (offset + (fullText item.words).width) item.comma.toList,
      (!named.any fun span => c.within span) = true := by
    intro c hc
    have bounds : offset + (spelled item.words).width ≤ c.start ∧ c.start < c.stop ∧
        c.stop ≤ offset + (fullText item.lexemes).width := by
      rcases List.mem_append.1 hc with hc | hc
      · have bounds := bounds_of_gapComments hc
        omega
      · have bounds := bounds_of_lexemeComments hc
        omega
    refine outside_iff.2 fun span hspan => not_within bounds.2.1 ?_
    have sides := apart span hspan
    omega
  rw [Listed.lexemes, lexemeComments_append, inner, List.append_assoc, List.filter_append,
    List.filter_eq_nil_iff.2 inside, List.filter_eq_self.2 outside, List.nil_append]

theorem filter_outside_items (offset : Nat) (before : List Edit.Span)
    (hbefore : ∀ s ∈ before, s.stop ≤ offset)
    (inhabited : ∀ item ∈ items, item.words ≠ []) :
    (lexemeComments offset (items.flatMap Listed.lexemes)).filter
      (fun c => !(before ++ spansAt offset items).any fun span => c.within span) =
        looseAt offset items := by
  -- By induction on the specifiers, with the spans of those before at hand.
  induction items generalizing offset before with
  | nil => rfl
  | cons item items ih =>
      obtain ⟨own, inhabited⟩ := List.forall_mem_cons.1 inhabited
      have spans : spansAt offset (item :: items) =
          Edit.Span.ofBounds offset (offset + (spelled item.words).width) ::
            spansAt (offset + (fullText item.lexemes).width) items := rfl
      have longer : (spelled item.words).width ≤ (fullText item.lexemes).width := by
        rw [Listed.lexemes, fullText_append, fullText_eq item.words, Text.width_append,
          Text.width_append]
        omega
      have first := filter_outside_item offset (before ++ spansAt offset (item :: items)) own
        (by simp [spans]) fun span hspan => by
          rw [spans] at hspan
          rcases List.mem_append.1 hspan with hspan | hspan
          · have sides := hbefore span hspan
            omega
          · rcases List.mem_cons.1 hspan with rfl | hspan
            · exact .inl (stop_ofBounds_add _ _).le
            · exact .inr (start_of_spansAt hspan)
      have passed : ∀ s ∈ before ++ [Edit.Span.ofBounds offset (offset + (spelled item.words).width)],
          s.stop ≤ offset + (fullText item.lexemes).width :=
        List.forall_mem_append.2 ⟨fun s hs => (hbefore s hs).trans (Nat.le_add_right _ _),
          by simp only [List.mem_singleton, forall_eq, stop_ofBounds_add]; omega⟩
      have later := ih _ _ passed inhabited
      rw [List.append_assoc, List.singleton_append, ← spans] at later
      rw [List.flatMap_cons, lexemeComments_append, List.filter_append, first, later, looseAt]

theorem stop_of_spansAt (h : span ∈ spansAt offset items) :
    span.stop ≤ offset + (fullText (items.flatMap Listed.lexemes)).width := by
  induction items generalizing offset with
  | nil => cases h
  | cons item items ih =>
      rw [List.flatMap_cons, fullText_append, Text.width_append]
      rcases List.mem_cons.1 h with rfl | h
      · rw [stop_ofBounds_add, Listed.lexemes, fullText_append, fullText_eq item.words,
          Text.width_append, Text.width_append]
        omega
      · have := ih h
        omega

variable {dialect : Dialect} {comments : List Edit.Span} {d : ImportDeclaration}

theorem filter_within (h : Worded dialect text comments d w rest) (inhabited : w.lexemes ≠ []) :
    comments.filter (fun c => c.within d.span) =
      lexemeComments d.span.start w.lexemes.dropLast := by
  obtain ⟨before, behind, split, early, late⟩ := h.comments
  obtain ⟨inner, shorter⟩ := lexemeComments_dropLast d.span.start inhabited
  have stop : d.span.stop = d.span.start + (spelled w.lexemes).width := by
    have declares := congrArg (fun d => d.span.stop) h.declares
    exact declares.trans (stop_ofBounds_add _ _)
  have widths : (fullText w.lexemes).width =
      (spelled w.lexemes).width + (gapText (lastGap w.lexemes)).width := by
    rw [fullText_eq, Text.width_append]
  have outer {c : Edit.Span} (inhabited : c.start < c.stop)
      (sides : c.stop ≤ d.span.start ∨ d.span.stop ≤ c.start) : ¬c.within d.span = true := by
    rw [not_within inhabited sides.symm]
    simp
  have first : ∀ c ∈ before, ¬c.within d.span = true := fun c hc =>
    outer (early c hc).1 (.inl (early c hc).2)
  have kept : ∀ c ∈ lexemeComments d.span.start w.lexemes.dropLast, c.within d.span = true := by
    intro c hc
    have bounds := bounds_of_lexemeComments hc
    simp only [Edit.Span.within, Bool.and_eq_true, decide_eq_true_eq]
    omega
  have last : ∀ c ∈ gapComments (d.span.start + (spelled w.lexemes).width) (lastGap w.lexemes) ++
      behind, ¬c.within d.span = true := by
    intro c hc
    rcases List.mem_append.1 hc with hc | hc
    · have bounds := bounds_of_gapComments hc
      exact outer bounds.2.1 (.inr (by omega))
    · have bounds := late c hc
      exact outer bounds.2 (.inr (by omega))
  rw [split, inner, List.append_assoc, List.filter_append, List.filter_append,
    List.filter_eq_nil_iff.2 first, List.filter_eq_self.2 kept, List.filter_eq_nil_iff.2 last,
    List.nil_append, List.append_nil]

variable {pre post : List Lexeme} {opening closing : Lexeme}

theorem namedSpans_eq (h : Worded dialect text comments d w rest)
    (braced : Braced types w pre opening items closing post) :
    d.specifiers.filterMap namedSpan? =
      spansAt (d.span.start + (fullText (pre ++ [opening])).width) items := by
  rw [← braced.named, h.declares]
  rfl

theorem looseSpans_eq (h : Worded dialect text comments d w rest)
    (braced : Braced types w pre opening items closing post)
    (inhabited : ∀ item ∈ items, item.words ≠ []) :
    looseSpans d.span (d.specifiers.filterMap namedSpan?) comments =
      lexemeComments d.span.start (pre ++ [opening]) ++
        (looseAt (d.span.start + (fullText (pre ++ [opening])).width) items ++
          lexemeComments (d.span.start + (fullText (pre ++ [opening])).width +
            (fullText (items.flatMap Listed.lexemes)).width) (closing :: post).dropLast) := by
  have named := namedSpans_eq h braced
  have shape : w.lexemes.dropLast =
      (pre ++ [opening]) ++ (items.flatMap Listed.lexemes ++ (closing :: post).dropLast) := by
    have whole : w.lexemes =
        ((pre ++ [opening]) ++ items.flatMap Listed.lexemes) ++ (closing :: post) := by
      rw [braced.lexemes]
      simp
    rw [whole, List.dropLast_append_of_ne_nil (by simp), List.append_assoc]
  have within := filter_within h (by rw [braced.lexemes]; simp)
  have first : ∀ c ∈ lexemeComments d.span.start (pre ++ [opening]),
      (!(d.specifiers.filterMap namedSpan?).any fun span => c.within span) = true := by
    intro c hc
    have bounds := bounds_of_lexemeComments hc
    refine outside_iff.2 fun span hspan => not_within bounds.2.1 ?_
    rw [named] at hspan
    have start := start_of_spansAt hspan
    omega
  have last : ∀ c ∈ lexemeComments (d.span.start + (fullText (pre ++ [opening])).width +
      (fullText (items.flatMap Listed.lexemes)).width) (closing :: post).dropLast,
      (!(d.specifiers.filterMap namedSpan?).any fun span => c.within span) = true := by
    intro c hc
    have bounds := bounds_of_lexemeComments hc
    refine outside_iff.2 fun span hspan => not_within bounds.2.1 ?_
    rw [named] at hspan
    have stop := stop_of_spansAt hspan
    omega
  have middle := filter_outside_items (d.span.start + (fullText (pre ++ [opening])).width) []
    (by simp) inhabited
  rw [List.nil_append, ← named] at middle
  rw [looseSpans]
  simp only [Bool.and_comm (Edit.Span.within _ d.span)]
  rw [← List.filter_filter, within, shape, lexemeComments_append _ (pre ++ [opening]),
    lexemeComments_append _ (items.flatMap Listed.lexemes), List.filter_append, List.filter_append,
    List.filter_eq_self.2 first, middle, List.filter_eq_self.2 last]

theorem pairwise_gapComments (offset : Nat) (pieces : List GapPiece) :
    (gapComments offset pieces).Pairwise fun a b => a.stop ≤ b.start := by
  induction pieces generalizing offset with
  | nil => exact .nil
  | cons piece pieces ih =>
      rw [gapComments]
      split
      · refine List.pairwise_cons.2 ⟨fun b hb => ?_, ih _⟩
        rw [stop_ofBounds_add]
        exact (bounds_of_gapComments hb).1
      · exact ih _

theorem pairwise_lexemeComments (offset : Nat) (ls : List Lexeme) :
    (lexemeComments offset ls).Pairwise fun a b => a.stop ≤ b.start := by
  induction ls generalizing offset with
  | nil => exact .nil
  | cons l ls ih =>
      refine List.pairwise_append.2 ⟨pairwise_gapComments _ _, ih _, fun a ha b hb => ?_⟩
      have first := bounds_of_gapComments ha
      have second := bounds_of_lexemeComments hb
      rw [Lexeme.full, Text.width_append] at second
      omega

theorem pairwise_looseSpans (h : Worded dialect text comments d w rest) (inhabited : w.lexemes ≠ [])
    (named : List Edit.Span) :
    (looseSpans d.span named comments).Pairwise fun a b => a.stop ≤ b.start := by
  rw [looseSpans]
  simp only [Bool.and_comm (Edit.Span.within _ d.span)]
  rw [← List.filter_filter, filter_within h inhabited]
  exact (pairwise_lexemeComments _ _).filter _

def commentText (text : Text) (c : Edit.Span) : Text := Text.trimEnd (spanText text c)

theorem map_gapComments (h : text.RestAt offset (gapText pieces ++ rest)) :
    (gapComments offset pieces).map (commentText text) = commentsIn (triviaOf pieces) := by
  induction pieces generalizing offset with
  | nil => rfl
  | cons piece pieces ih =>
      rw [gapText_cons, List.append_assoc] at h
      have later := ih h.append
      have own := spanText_ofBounds h
      cases piece with
      | blank c =>
          by_cases feed : c = '\n' <;>
            simpa [gapComments, GapPiece.isComment, triviaOf, triviaAt, commentsIn, feed] using later
      | line body => simpa [gapComments, GapPiece.isComment, triviaOf, triviaAt, commentsIn,
          commentText, own] using later
      | block body => simpa [gapComments, GapPiece.isComment, triviaOf, triviaAt, commentsIn,
          commentText, own] using later

end TidyImports.Import
