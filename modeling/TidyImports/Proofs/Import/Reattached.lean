import TidyImports.Proofs.Import.Reprinted

/-! Comments of printed imports. The gaps of printed bindings are scanned piece by piece, and what is found
behind a specifier is divided into its own comments and those of the next one; so each comment comes
back to the binding that it was printed with, if there is a line break between comments that belong to
different bindings. -/
namespace TidyImports.Import

open Script

variable {types isType : Bool} {o : Item} {b : NamedBinding} {named rest : List NamedBinding}
  {indent sep newline t text : Text} {comment : Text} {comments : List Text}
  {more gap : List GapPiece} {words : NamedBinding → List Lexeme} {seen : Bool} {trivia : List Trivia}
  {attached : List SpecifierComments}

/-! What the scanner finds in printed gaps. -/

theorem triviaAt_commentPiece (h : IsComment comment) :
    triviaAt (commentPiece comment) = some (.comment comment) := by
  cases h with
  | @line body unbroken trimmed => exact congrArg (some <| Trivia.comment ·) trimmed
  | @block body closes =>
      have trimmed := trimEnd_append_cons (s := '/' :: '*' :: (body ++ ['*'])) (c := '/') (by decide) []
      simp only [List.cons_append, List.append_assoc, List.nil_append] at trimmed
      rw [commentPiece_block]
      exact congrArg (some <| Trivia.comment ·) trimmed

theorem triviaOf_cons_commentPiece (h : IsComment comment) (more : List GapPiece) :
    triviaOf (commentPiece comment :: more) = .comment comment :: triviaOf more := by
  rw [triviaOf, List.filterMap_cons, triviaAt_commentPiece h]
  rfl

theorem triviaOf_newline (h : IsNewline newline) : triviaOf (blanks newline) = [.newline] := by
  obtain rfl | rfl := h <;> rfl

def ownLines (comments : List Text) : List Trivia :=
  comments.flatMap fun comment => [.comment comment, .newline]

theorem triviaOf_leading_lines (h : IsNewline newline) (formed : ∀ comment ∈ comments, IsComment comment) :
    triviaOf (leadingPieces [' ', ' '] newline comments) = ownLines comments := by
  induction comments with
  | nil => rfl
  | cons comment comments ih =>
      obtain ⟨own, formed⟩ := List.forall_mem_cons.1 formed
      rw [leadingPieces, List.flatMap_cons, ← leadingPieces, triviaOf_append, triviaOf_append, ih formed,
        triviaOf_cons_commentPiece own, triviaOf_newline h]
      rfl

theorem triviaOf_leading_inline (formed : ∀ comment ∈ comments, IsComment comment) :
    triviaOf (leadingPieces [] [' '] comments) = comments.map .comment := by
  induction comments with
  | nil => rfl
  | cons comment comments ih =>
      obtain ⟨own, formed⟩ := List.forall_mem_cons.1 formed
      rw [leadingPieces, List.flatMap_cons, ← leadingPieces, triviaOf_append, triviaOf_append, ih formed,
        triviaOf_cons_commentPiece own]
      rfl

theorem commentsIn_map_comment (comments : List Text) : commentsIn (comments.map .comment) = comments := by
  induction comments with
  | nil => rfl
  | cons comment comments ih => exact congrArg (comment :: ·) ih

theorem commentsIn_ownLines (comments : List Text) : commentsIn (ownLines comments) = comments := by
  induction comments with
  | nil => rfl
  | cons comment comments ih => exact congrArg (comment :: ·) ih

def nextLeading : List NamedBinding → List Text
  | [] => []
  | b :: _ => b.leading

theorem forall_mem_nextLeading (formed : ∀ b ∈ named, ∀ comment ∈ b.leading ++ b.trailing, IsComment comment)
    (suffix : rest <:+ named) : ∀ comment ∈ nextLeading rest, IsComment comment := by
  cases rest with
  | nil => simp [nextLeading]
  | cons b rest => exact (List.forall_mem_append.1 (formed b (suffix.subset List.mem_cons_self))).1

theorem triviaOf_gapBefore_lines (h : IsNewline newline)
    (formed : ∀ comment ∈ nextLeading rest, IsComment comment) :
    triviaOf (gapBefore [' ', ' '] newline rest) = .newline :: ownLines (nextLeading rest) := by
  cases rest with
  | nil => exact triviaOf_newline h
  | cons b rest =>
      rw [nextLeading] at formed ⊢
      rw [gapBefore, triviaOf_append, triviaOf_append, triviaOf_newline h, triviaOf_leading_lines h formed]
      exact congrArg (_ :: ·) (List.append_nil _)

theorem triviaOf_gapBefore_inline (formed : ∀ comment ∈ nextLeading rest, IsComment comment) :
    triviaOf (gapBefore [] [' '] rest) = (nextLeading rest).map .comment := by
  cases rest with
  | nil => rfl
  | cons b rest =>
      rw [nextLeading] at formed ⊢
      rw [gapBefore, triviaOf_append, triviaOf_append, triviaOf_leading_inline formed]
      exact List.append_nil _

def LineLast (comments : List Text) : Prop := ∀ comment ∈ comments.dropLast, isLineComment comment = false

instance (comments : List Text) : Decidable (LineLast comments) :=
  inferInstanceAs (Decidable (∀ comment ∈ comments.dropLast, isLineComment comment = false))

theorem LineLast.tail (h : LineLast (comment :: comments)) : LineLast comments := by
  cases comments with
  | nil => simp [LineLast]
  | cons next comments => exact (List.forall_mem_cons.1 h).2

theorem trailingPieces_cons (h : LineLast (comment :: comments)) :
    trailingPieces (comment :: comments) =
      .blank ' ' :: commentPiece comment :: trailingPieces comments := by
  rw [trailingPieces]
  split
  · next line =>
    cases comments with
    | nil =>
        rw [commentPiece, if_pos line]
        simp [trailingPieces]
    | cons next comments =>
        rw [(List.forall_mem_cons.1 h).1] at line
        cases line
  · rfl

theorem triviaOf_trailing (formed : ∀ comment ∈ comments, IsComment comment) (h : LineLast comments) :
    triviaOf (trailingPieces comments) = comments.map .comment := by
  induction comments with
  | nil => rfl
  | cons comment comments ih =>
      obtain ⟨own, formed⟩ := List.forall_mem_cons.1 formed
      rw [trailingPieces_cons h, List.map_cons, ← ih formed h.tail, triviaOf, List.filterMap_cons_none rfl,
        ← triviaOf, triviaOf_cons_commentPiece own]

/-! How what is found is divided. -/

theorem divideGap_comments_append (seen : Bool) (comments : List Text) (trivia : List Trivia) :
    divideGap seen false (comments.map .comment ++ trivia) =
      (divideGap seen false trivia).map fun gap => { gap with trailing := comments ++ gap.trailing } := by
  induction comments with
  | nil =>
      rw [List.map_nil, List.nil_append]
      exact Option.map_id'.symm
  | cons comment comments ih =>
      rw [List.map_cons, List.cons_append, divideGap, ih, Option.map_map]
      rfl

theorem divideGap_ownLines (comments : List Text) :
    divideGap true true (ownLines comments) = some ⟨[], comments, true⟩ := by
  induction comments with
  | nil => rfl
  | cons comment comments ih =>
      change (divideGap true true (ownLines comments)).map _ = _
      rw [ih]
      rfl

/-- What stands behind a specifier is divided as the comments of its binding and those of the next one. -/
def DividesInto (b : NamedBinding) (rest : List NamedBinding) (item : Listed Naming) : Prop :=
  ∃ comma, divideGap false false (triviaBehind item) = some ⟨b.trailing, nextLeading rest, comma⟩ ∧
    (rest ≠ [] → comma = true)

def commentsOf (b : NamedBinding) : SpecifierComments := ⟨b.leading, b.trailing⟩

theorem attaches_row {item : NamedBinding → List NamedBinding → Listed Naming}
    (divides : ∀ b rest, b :: rest <:+ named → DividesInto b rest (item b rest)) (inhabited : named ≠ []) :
    Attaches (nextLeading named) (row item named) (named.map commentsOf) := by
  induction named with
  | nil => exact absurd rfl inhabited
  | cons b rest ih =>
      obtain ⟨comma, divided, seen⟩ := divides b rest List.suffix_rfl
      cases rest with
      | nil => exact .last divided rfl
      | cons next rest =>
          exact .cons divided (seen (by simp)) (ih (fun b' rest' suffix =>
            divides b' rest' (suffix.trans (List.suffix_cons b _))) (by simp))

section Divides

variable (formed : ∀ b ∈ named, ∀ comment ∈ b.leading ++ b.trailing, IsComment comment)
  (own : ∀ b ∈ named, Words types isType b (words b)) (last : ∀ b ∈ named, LineLast b.trailing)
include formed own last

theorem dividesInto_lineItem (hnewline : IsNewline newline) (suffix : b :: rest <:+ named) :
    DividesInto b rest (lineItem newline words b rest) := by
  have hb := suffix.subset List.mem_cons_self
  have trailing := (List.forall_mem_append.1 (formed b hb)).2
  have before := triviaOf_gapBefore_lines hnewline
    (forall_mem_nextLeading formed ((List.suffix_cons b rest).trans suffix))
  have behind : triviaBehind (lineItem newline words b rest) =
      .comma :: (b.trailing.map .comment ++ .newline :: ownLines (nextLeading rest)) := by
    have nothing : triviaOf [] = [] := rfl
    rw [triviaBehind, lineItem, lastGap_withLastGap _ (own b hb).ne_nil, nothing]
    simp [commaBefore, triviaOf_append, triviaOf_trailing trailing (last b hb), before]
  refine ⟨true, ?_, fun _ => rfl⟩
  rw [behind]
  change divideGap true false _ = _
  rw [divideGap_comments_append]
  change (divideGap true true (ownLines (nextLeading rest))).map _ = _
  rw [divideGap_ownLines, Option.map_some, List.append_nil]

theorem dividesInto_inlineItem (none : ∀ b ∈ named.tail, b.leading = []) (suffix : b :: rest <:+ named) :
    DividesInto b rest (inlineItem words b rest) := by
  have hb := suffix.subset List.mem_cons_self
  have trailing := (List.forall_mem_append.1 (formed b hb)).2
  have inhabited := (own b hb).ne_nil
  have found := triviaOf_trailing trailing (last b hb)
  have alone (seen : Bool) : divideGap seen false (b.trailing.map .comment) = some ⟨b.trailing, [], seen⟩ := by
    have divided := divideGap_comments_append seen b.trailing []
    rw [List.append_nil] at divided
    rw [divided]
    simp [divideGap]
  cases rest with
  | nil =>
      have behind : triviaBehind (inlineItem words b []) = b.trailing.map .comment := by
        rw [triviaBehind, inlineItem, lastGap_withLastGap _ inhabited, triviaOf_append, found]
        simp [gapBefore, blanks, triviaOf, triviaAt]
      refine ⟨false, ?_, fun other => absurd rfl other⟩
      rw [behind, alone]
      rfl
  | cons next rest =>
      have nextNone : next.leading = [] := by
        refine none next ?_
        obtain ⟨before, rfl⟩ := suffix
        cases before <;> simp
      have behind : triviaBehind (inlineItem words b (next :: rest)) =
          b.trailing.map .comment ++ [.comma] := by
        rw [triviaBehind, inlineItem, lastGap_withLastGap _ inhabited, found]
        simp [commaBefore, gapBefore, nextNone, leadingPieces, blanks, triviaOf, triviaAt]
      refine ⟨true, ?_, fun _ => rfl⟩
      rw [behind, divideGap_comments_append]
      simp [divideGap, nextLeading, nextNone]

end Divides

/-! Printed gaps can be scanned piece by piece. -/

/-- Where a line comment is printed, a line ends behind it. -/
structure EndsLines (indent sep : Text) (named : List NamedBinding) : Prop where
  indentBlank : ∀ c ∈ indent, Text.isBlank c = true
  sepBlank : ∀ c ∈ sep, Text.isBlank c = true
  lines : ∀ b ∈ named, b.hasLineComment = true → IsNewline sep

theorem endsLine_newline (h : IsNewline newline) (t : Text) : EndsLine (newline ++ t) := by
  obtain rfl | rfl := h
  · exact ⟨t, .inl rfl⟩
  · exact ⟨t, .inr rfl⟩

theorem linesEnd_blanks_append (t : Text) (h : LinesEnd more) : LinesEnd (blanks t ++ more) := by
  induction t with
  | nil => exact h
  | cons c t ih => exact ih

theorem linesEnd_comment (h : IsComment comment) (ends : isLineComment comment = true → EndsLine (gapText more))
    (others : LinesEnd more) : LinesEnd (commentPiece comment :: more) := by
  cases h with
  | line => exact ⟨ends rfl, others⟩
  | block =>
      rw [commentPiece_block]
      exact others

theorem allBlank_append_iff {before behind : List GapPiece} :
    AllBlank (before ++ behind) ↔ AllBlank before ∧ AllBlank behind := by
  simp only [AllBlank, List.mem_append, or_imp, forall_and]

theorem allBlank_blanks (h : ∀ c ∈ t, Text.isBlank c = true) : AllBlank (blanks t) := by
  intro c hc
  obtain ⟨d, hd, same⟩ := List.mem_map.1 hc
  cases same
  exact h c hd

theorem allBlank_cons_commentPiece (h : AllBlank more) : AllBlank (commentPiece comment :: more) := by
  intro c hc
  rcases List.mem_cons.1 hc with same | hc
  · rw [commentPiece] at same
    split at same <;> cases same
  · exact h c hc

theorem allBlank_trailing (h : LineLast comments) : AllBlank (trailingPieces comments) := by
  induction comments with
  | nil => simp [trailingPieces, AllBlank]
  | cons comment comments ih =>
      rw [trailingPieces_cons h]
      intro c hc
      rcases List.mem_cons.1 hc with same | hc
      · cases same
        decide
      · exact allBlank_cons_commentPiece (ih h.tail) c hc

theorem linesEnd_trailing (formed : ∀ comment ∈ comments, IsComment comment) (last : LineLast comments)
    (ends : (∃ comment ∈ comments, isLineComment comment = true) → EndsLine (gapText more))
    (others : LinesEnd more) : LinesEnd (trailingPieces comments ++ more) := by
  induction comments with
  | nil => exact others
  | cons comment comments ih =>
      obtain ⟨own, formed⟩ := List.forall_mem_cons.1 formed
      rw [trailingPieces_cons last]
      refine linesEnd_comment own (fun line => ?_) (ih formed last.tail fun ⟨other, mem, line⟩ =>
        ends ⟨other, List.mem_cons_of_mem _ mem, line⟩)
      cases comments with
      | nil => exact ends ⟨comment, List.mem_cons_self, line⟩
      | cons next comments =>
          rw [(List.forall_mem_cons.1 last).1] at line
          cases line

section Scanned

variable (ends : EndsLines indent sep named)
  (formed : ∀ b ∈ named, ∀ comment ∈ b.leading ++ b.trailing, IsComment comment)
include ends formed

theorem linesEnd_gapBefore (suffix : rest <:+ named) : LinesEnd (gapBefore indent sep rest) := by
  cases rest with
  | nil =>
      have alone : LinesEnd (blanks sep ++ []) := linesEnd_blanks_append sep trivial
      rwa [List.append_nil] at alone
  | cons b rest =>
      have hb := suffix.subset List.mem_cons_self
      have leading := (List.forall_mem_append.1 (formed b hb)).1
      have lines : ∀ comment ∈ b.leading, isLineComment comment = true → IsNewline sep :=
        fun comment hcomment line => ends.lines b hb
          (List.any_eq_true.2 ⟨comment, List.mem_append_left _ hcomment, line⟩)
      refine linesEnd_blanks_append sep ?_
      generalize b.leading = comments at leading lines
      induction comments with
      | nil =>
          have alone : LinesEnd (blanks indent ++ []) := linesEnd_blanks_append indent trivial
          rwa [List.append_nil] at alone
      | cons comment comments ih =>
          obtain ⟨own, leading⟩ := List.forall_mem_cons.1 leading
          obtain ⟨line, lines⟩ := List.forall_mem_cons.1 lines
          rw [leadingPieces, List.flatMap_cons, ← leadingPieces, List.append_assoc, List.append_assoc,
            List.cons_append]
          refine linesEnd_blanks_append indent (linesEnd_comment own (fun isLine => ?_)
            (linesEnd_blanks_append sep (ih leading lines)))
          rw [gapText_append, gapText_blanks]
          exact endsLine_newline (line isLine) _

theorem linesEnd_trailing_gapBefore (last : ∀ b ∈ named, LineLast b.trailing)
    (suffix : b :: rest <:+ named) :
    LinesEnd (trailingPieces b.trailing ++ gapBefore indent sep rest) := by
  have hb := suffix.subset List.mem_cons_self
  refine linesEnd_trailing (List.forall_mem_append.1 (formed b hb)).2 (last b hb) ?_
    (linesEnd_gapBefore ends formed ((List.suffix_cons b rest).trans suffix))
  rintro ⟨comment, hcomment, line⟩
  have newline := ends.lines b hb (List.any_eq_true.2 ⟨comment, List.mem_append_right _ hcomment, line⟩)
  cases rest with
  | nil =>
      rw [gapBefore, gapText_blanks, ← List.append_nil sep]
      exact endsLine_newline newline []
  | cons next rest =>
      rw [gapBefore, gapText_append, gapText_blanks]
      exact endsLine_newline newline _

omit formed in
theorem allBlank_gapBefore (rest : List NamedBinding) : AllBlank (gapBefore indent sep rest) := by
  cases rest with
  | nil => exact allBlank_blanks ends.sepBlank
  | cons b rest =>
      refine allBlank_append_iff.2 ⟨allBlank_blanks ends.sepBlank, allBlank_append_iff.2
        ⟨?_, allBlank_blanks ends.indentBlank⟩⟩
      induction b.leading with
      | nil => simp [leadingPieces, AllBlank]
      | cons comment comments ih =>
          rw [leadingPieces, List.flatMap_cons, ← leadingPieces]
          exact allBlank_append_iff.2 ⟨allBlank_append_iff.2 ⟨allBlank_blanks ends.indentBlank,
            allBlank_cons_commentPiece (allBlank_blanks ends.sepBlank)⟩, ih⟩

end Scanned

/-- Comments that come back to the bindings that they are printed with: a line comment is the last one of
its line, only the first binding of a line has comments before it, and these hold no opening brace. -/
structure Attachable (named : List NamedBinding) : Prop where
  unbroken : ∀ b ∈ named, ∀ comment ∈ b.leading ++ b.trailing,
    isLineComment comment = true → Unbroken comment
  last : ∀ b ∈ named, LineLast b.trailing
  apart : named.any NamedBinding.hasLineComment = true ∨ ∀ b ∈ named.tail, b.leading = []
  braces : ∀ b ∈ named.head?, ∀ comment ∈ b.leading, '\x7b' ∉ comment

theorem LineLast.pairwise (h : LineLast comments) :
    comments.Pairwise fun line comment => isLineComment line = true → Unbroken comment := by
  induction comments with
  | nil => exact .nil
  | cons comment comments ih =>
      refine List.pairwise_cons.2 ⟨fun other hother line => ?_, ih h.tail⟩
      obtain ⟨next, more, rfl⟩ := List.exists_cons_of_ne_nil (List.ne_nil_of_mem hother)
      rw [(List.forall_mem_cons.1 h).1] at line
      cases line

theorem Attachable.printable (h : Attachable named) : ∀ b ∈ named, b.Printable :=
  fun b hb => ⟨h.unbroken b hb, (h.last b hb).pairwise⟩

/-- Printed bindings that can be scanned for the comments that they are printed with. -/
structure Rescanned (named : List NamedBinding) (gap : List GapPiece) (items : List (Listed Naming)) :
    Prop where
  scannable : ∀ item ∈ items, Scannable item
  blanks : ∀ item ∈ items, ∀ gap ∈ gapsOf item, AllBlank gap
  lines : LinesEnd gap
  blank : AllBlank gap
  brace : '\x7b' ∉ gapText gap
  attaches : Attaches (commentsIn (triviaOf gap)) items (named.map commentsOf)

theorem forall_mem_row {item : NamedBinding → List NamedBinding → Listed Naming} {P : Listed Naming → Prop}
    (h : ∀ b rest, b :: rest <:+ named → P (item b rest)) : ∀ i ∈ row item named, P i := by
  induction named with
  | nil => simp [row]
  | cons b rest ih =>
      exact List.forall_mem_cons.2 ⟨h b rest List.suffix_rfl, ih fun b' rest' suffix =>
        h b' rest' (suffix.trans (List.suffix_cons b rest))⟩

theorem scannable_of_prints {item : Listed Naming} (h : Prints types isType b rest item)
    (lines : ∀ gap ∈ gapsOf item, LinesEnd gap) : Scannable item where
  inhabited := h.words.ne_nil
  comma := by
    obtain ⟨none, -⟩ | ⟨gap, some, -⟩ := h.comma
    · simp [none]
    · simp [some, commaBefore]
  gaps := by
    intro gap hgap
    refine ⟨?_, lines gap hgap⟩
    rw [gapsOf] at hgap
    obtain ⟨none, -⟩ | ⟨behind, some, steady⟩ := h.comma
    · rw [none] at hgap
      rw [List.mem_singleton.1 hgap]
      exact h.gap
    · rw [some] at hgap
      simp only [Option.toList_some, List.map_singleton, List.mem_cons, List.not_mem_nil, or_false] at hgap
      obtain rfl | rfl := hgap
      · exact h.gap
      · exact steady

theorem brace_not_mem_gapBefore (formed : ∀ comment ∈ b.leading, IsComment comment)
    (braces : ∀ comment ∈ b.leading, '\x7b' ∉ comment) (before : '\x7b' ∉ indent) (behind : '\x7b' ∉ sep) :
    '\x7b' ∉ gapText (gapBefore indent sep (b :: rest)) := by
  rw [gapText_gapBefore_cons formed]
  intro mem
  simp only [List.mem_append, List.mem_flatMap, before, behind, or_false, false_or] at mem
  obtain ⟨comment, hcomment, mem⟩ := mem
  exact braces comment hcomment mem

section Rescanned

variable (formed : ∀ b ∈ named, ∀ comment ∈ b.leading ++ b.trailing, IsComment comment)
  (own : ∀ b ∈ named, Words types isType b (words b)) (attachable : Attachable named)
include formed own attachable

omit own in
theorem rescanned_row {item : NamedBinding → List NamedBinding → Listed Naming}
    (ends : EndsLines indent sep named)
    (prints : ∀ b rest, b :: rest <:+ named → Prints types isType b rest (item b rest))
    (clear : ∀ b rest, b :: rest <:+ named → ∀ gap ∈ gapsOf (item b rest), LinesEnd gap ∧ AllBlank gap)
    (divides : ∀ b rest, b :: rest <:+ named → DividesInto b rest (item b rest))
    (found : commentsIn (triviaOf (gapBefore indent sep named)) = nextLeading named)
    (inhabited : named ≠ []) : Rescanned named (gapBefore indent sep named) (row item named) where
  scannable := forall_mem_row fun b rest suffix =>
    scannable_of_prints (prints b rest suffix) fun gap hgap => (clear b rest suffix gap hgap).1
  blanks := forall_mem_row fun b rest suffix gap hgap => (clear b rest suffix gap hgap).2
  lines := linesEnd_gapBefore ends formed List.suffix_rfl
  blank := allBlank_gapBefore ends named
  brace := by
    obtain ⟨first, more, rfl⟩ := List.exists_cons_of_ne_nil inhabited
    have apart {t : Text} (blank : ∀ c ∈ t, Text.isBlank c = true) : '\x7b' ∉ t := fun mem =>
      absurd (blank _ mem) (by decide)
    exact brace_not_mem_gapBefore (forall_mem_nextLeading formed List.suffix_rfl)
      (attachable.braces first rfl) (apart ends.indentBlank) (apart ends.sepBlank)
  attaches := by
    rw [found]
    exact attaches_row divides inhabited

theorem rescanned_lines (inhabited : named ≠ []) (hnewline : IsNewline newline) :
    Rescanned named (gapBefore [' ', ' '] newline named) (row (lineItem newline words) named) := by
  have ends : EndsLines [' ', ' '] newline named :=
    ⟨List.all_eq_true.1 rfl, by obtain rfl | rfl := hnewline <;> exact List.all_eq_true.1 rfl,
      fun _ _ _ => hnewline⟩
  refine rescanned_row formed attachable ends
    (fun b rest suffix => prints_lineItem formed own attachable.printable hnewline suffix)
    (fun b rest suffix => ?_)
    (fun b rest suffix => dividesInto_lineItem formed own attachable.last hnewline suffix) ?_ inhabited
  · have hb := suffix.subset List.mem_cons_self
    have first : LinesEnd [] ∧ AllBlank [] := ⟨trivial, by simp [AllBlank]⟩
    have second : LinesEnd (trailingPieces b.trailing ++ gapBefore [' ', ' '] newline rest) ∧
        AllBlank (trailingPieces b.trailing ++ gapBefore [' ', ' '] newline rest) :=
      ⟨linesEnd_trailing_gapBefore ends formed attachable.last suffix, allBlank_append_iff.2
        ⟨allBlank_trailing (attachable.last b hb), allBlank_gapBefore ends rest⟩⟩
    rw [gapsOf, lineItem, lastGap_withLastGap _ (own b hb).ne_nil]
    exact List.forall_mem_cons.2 ⟨first, List.forall_mem_singleton.2 second⟩
  · rw [triviaOf_gapBefore_lines hnewline (forall_mem_nextLeading formed List.suffix_rfl)]
    exact commentsIn_ownLines _

omit own in
theorem linesEnd_trailing_of_plain (plain : ∀ b ∈ named, b.hasLineComment = false) (hb : b ∈ named) :
    LinesEnd (trailingPieces b.trailing) := by
  have alone : LinesEnd (trailingPieces b.trailing ++ []) := by
    refine linesEnd_trailing (List.forall_mem_append.1 (formed b hb)).2 (attachable.last b hb) ?_ trivial
    rintro ⟨comment, hcomment, line⟩
    have some : b.hasLineComment = true :=
      List.any_eq_true.2 ⟨comment, List.mem_append_right _ hcomment, line⟩
    rw [plain b hb] at some
    cases some
  rwa [List.append_nil] at alone

theorem rescanned_inline (inhabited : named ≠ []) (plain : ∀ b ∈ named, b.hasLineComment = false) :
    Rescanned named (gapBefore [] [' '] named) (row (inlineItem words) named) := by
  have none : ∀ b ∈ named.tail, b.leading = [] := by
    refine attachable.apart.resolve_left fun lines => ?_
    obtain ⟨b, hb, line⟩ := List.any_eq_true.1 lines
    rw [plain b hb] at line
    cases line
  have ends : EndsLines [] [' '] named := ⟨by simp, List.all_eq_true.1 rfl, fun b hb line => by
    rw [plain b hb] at line
    cases line⟩
  refine rescanned_row formed attachable ends
    (fun b rest suffix => prints_inlineItem formed own plain suffix) (fun b rest suffix => ?_)
    (fun b rest suffix => dividesInto_inlineItem formed own attachable.last none suffix) ?_ inhabited
  · have hb := suffix.subset List.mem_cons_self
    have trailing := allBlank_trailing (attachable.last b hb)
    have behind := (List.suffix_cons b rest).trans suffix
    cases rest with
    | nil =>
        rw [gapsOf, inlineItem, lastGap_withLastGap _ (own b hb).ne_nil]
        exact List.forall_mem_singleton.2
          ⟨linesEnd_trailing_gapBefore ends formed attachable.last suffix,
            allBlank_append_iff.2 ⟨trailing, allBlank_gapBefore ends []⟩⟩
    | cons next rest =>
        have first := linesEnd_trailing_of_plain formed attachable plain hb
        rw [gapsOf, inlineItem, lastGap_withLastGap _ (own b hb).ne_nil]
        exact List.forall_mem_cons.2 ⟨⟨first, trailing⟩, List.forall_mem_singleton.2
          ⟨linesEnd_gapBefore ends formed behind, allBlank_gapBefore ends (next :: rest)⟩⟩
  · rw [triviaOf_gapBefore_inline (forall_mem_nextLeading formed List.suffix_rfl)]
    exact commentsIn_map_comment _

theorem rescanned_printed (inhabited : named ≠ []) (hnewline : IsNewline newline) :
    Rescanned named (printedGap newline named) (printedItems newline words named) := by
  by_cases lines : named.any NamedBinding.hasLineComment = true
  · rw [printedGap, printedItems, if_pos lines, if_pos lines]
    exact rescanned_lines formed own attachable inhabited hnewline
  · rw [printedGap, printedItems, if_neg lines, if_neg lines]
    exact rescanned_inline formed own attachable inhabited (by simpa using lines)

end Rescanned

/-! Comments of printed imports. -/

section Attached

variable {dialect : Dialect} {spans : List Edit.Span} {d : ImportDeclaration} {w : Wording} {u : Text}
  {pre post : List Lexeme} {opening closing : Lexeme} {items : List (Listed Naming)} {binders : Binders}

theorem attachedComments?_of_attaches (h : Worded dialect text spans d w u)
    (braced : Braced types w pre opening items closing post) (inhabited : items ≠ [])
    (scannable : ∀ item ∈ items, Scannable item)
    (blanks : ∀ item ∈ items, ∀ gap ∈ gapsOf item, AllBlank gap) (steady : Steady opening.gap)
    (lines : LinesEnd opening.gap) (blank : AllBlank opening.gap) (brace : '\x7b' ∉ gapText opening.gap)
    (attaches : Attaches (commentsIn (triviaOf opening.gap)) items attached)
    (before : ∀ l ∈ pre, ∀ piece ∈ l.gap, piece.isComment = false)
    (behind : ∀ l ∈ (closing :: post).dropLast, ∀ piece ∈ l.gap, piece.isComment = false) :
    attachedComments? text d.span (d.specifiers.filterMap namedSpan?) spans = some attached := by
  have split := looseSpans_split h braced (words_ne_nil_of_list braced.list)
  rw [lexemeComments_eq_nil_iff.2 before, lexemeComments_eq_nil_iff.2 behind, List.nil_append,
    List.append_nil] at split
  have whole := attaches.flatMap_all.trans (map_inner_comments h braced scannable).symm
  rw [← split] at whole
  by_cases loose : looseSpans d.span (d.specifiers.filterMap namedSpan?) spans = []
  · rw [attachedComments?_of_looseSpans loose, namedSpans_eq h braced, List.map_const', length_spansAt,
      ← attaches.length_eq]
    rw [loose, List.map_nil, List.flatMap_eq_nil_iff] at whole
    refine congrArg some (List.eq_replicate_iff.2 ⟨rfl, fun own hown => ?_⟩).symm
    obtain ⟨leading, trailing⟩ := List.append_eq_nil_iff.1 (whole own hown)
    cases own
    simp_all
  · exact (attachedComments?_eq_some_iff h braced scannable inhabited steady lines brace loose).2
      ⟨blank, blanks, attaches, by rw [whole, List.length_map]⟩

def Uncommented (ls : List Lexeme) : Prop := ∀ l ∈ ls, ∀ piece ∈ l.gap, piece.isComment = false

theorem uncommented_opening (o : Item) (binders : Binders) :
    Uncommented (printedWording o binders).opening := by
  rw [printedWording]
  cases o.isType <;> simp [Uncommented, spacedWord, space, GapPiece.isComment]

theorem uncommented_rest (o : Item) (binders : Binders) : Uncommented (spacedWord "from" ::
    (printedWording o binders).source :: ([] ++ (printedWording o binders).ending)) := by
  rw [printedWording]
  cases o.semicolon <;> simp [Uncommented, printedEnding, spacedWord, space, GapPiece.isComment]

theorem uncommented_closing (o : Item) (binders : Binders) : Uncommented (closingBrace ::
    spacedWord "from" :: (printedWording o binders).source ::
      ([] ++ (printedWording o binders).ending)).dropLast := by
  intro l hl
  rcases List.mem_cons.1 (List.dropLast_subset _ hl) with rfl | hl
  · simp [closingBrace, space, GapPiece.isComment]
  · exact uncommented_rest o binders l hl

theorem namedSpans_of_bare {specifiers : List ImportSpecifier}
    (h : (specifiers.map (said text)).filterMap Said.named? = []) : specifiers.filterMap namedSpan? = [] := by
  rw [List.filterMap_map, List.filterMap_eq_nil_iff] at h
  refine List.filterMap_eq_nil_iff.2 fun specifier hspecifier => ?_
  have none := h specifier hspecifier
  cases specifier with
  | named => cases none
  | _ => rfl

theorem attachedComments?_printed (h : WellWritten types o) (attachable : Attachable o.named)
    (hnewline : IsNewline newline) (printed : PrintedBinders types newline o binders)
    (braces : CommentsInBraces types newline o binders)
    (worded : Worded dialect text spans d (printedWording o binders) u) :
    attachedComments? text d.span (d.specifiers.filterMap namedSpan?) spans =
      some (o.named.map commentsOf) := by
  have formed : ∀ b ∈ o.named, ∀ comment ∈ b.leading ++ b.trailing, IsComment comment :=
    fun b hb => (h.named b hb).comments
  have within {words : NamedBinding → List Lexeme} {before : List Lexeme} (inhabited : o.named ≠ [])
      (own : ∀ b ∈ o.named, Words types o.isType b (words b))
      (tailed : Tailed types (printedWording o binders) before (bracesTail newline words o.named)
        (spacedWord "from")) (blank : Uncommented before) :
      attachedComments? text d.span (d.specifiers.filterMap namedSpan?) spans =
        some (o.named.map commentsOf) := by
    have rescanned := rescanned_printed formed own attachable inhabited hnewline
    have items : printedItems newline words o.named ≠ [] := by
      have count := rescanned.attaches.length_eq
      rw [List.length_map] at count
      refine List.ne_nil_of_length_pos ?_
      rw [← count]
      exact List.length_pos_of_ne_nil inhabited
    have steady := (printed_printedItems inhabited hnewline formed own attachable.printable).steady
    exact attachedComments?_of_attaches worded tailed.braced items rescanned.scannable rescanned.blanks
      steady rescanned.lines rescanned.blank rescanned.brace rescanned.attaches
      (List.forall_mem_append.2 ⟨uncommented_opening o binders, blank⟩) (uncommented_closing o binders)
  cases braces with
  | bare named blank =>
      have binds : d.specifiers.map (said text) = saidByBinders binders := by
        rw [worded.declares]
        exact map_said_specifiers worded.place
      have bare : (d.specifiers.map (said text)).filterMap Said.named? = [] := by
        rw [binds, printed.binds.named, named, List.map_nil]
      have none := namedSpans_of_bare bare
      have all : Uncommented (printedWording o binders).lexemes := by
        rw [Wording.lexemes, Wording.bound]
        refine List.forall_mem_append.2 ⟨uncommented_opening o binders, ?_⟩
        rw [show (printedWording o binders).binders = some (binders, spacedWord "from") from rfl, boundBy,
          List.append_assoc]
        exact List.forall_mem_append.2 ⟨blank, uncommented_rest o binders⟩
      have loose : looseSpans d.span [] spans = [] := by
        have kept := filter_within worded (by simp [Wording.lexemes])
        rw [lexemeComments_eq_nil_iff.2 fun l hl => all l (List.dropLast_subset _ hl)] at kept
        simpa [looseSpans] using kept
      rw [none, attachedComments?_of_looseSpans loose, named]
      rfl
  | alone inhabited own =>
      obtain _ | ⟨more⟩ | _ := printed.valid
      exact within inhabited own (tailed_tail rfl more) (by simp [Uncommented])
  | @behind words name inhabited own blank =>
      obtain _ | _ | ⟨-, -, more, -⟩ := printed.valid
      refine within inhabited own (tailed_both rfl more) ?_
      simp [Uncommented, blank, commaBefore, space, GapPiece.isComment]

theorem usedBindings_attached {specifiers : List ImportSpecifier}
    (h : (specifiers.map (said text)).filterMap Said.named? = named.map NamedBinding.bare) :
    usedBindings text (fun _ => true) specifiers (named.map commentsOf) = named := by
  induction specifiers generalizing named with
  | nil => exact (List.map_eq_nil_iff.1 h.symm).symm
  | cons specifier rest ih =>
      cases specifier with
      | defaultName | namespaceName => exact ih h
      | named imported name isType span =>
          cases named with
          | nil => cases h
          | cons b named =>
              obtain ⟨own, others⟩ := List.cons.inj h
              have same : NamedBinding.mk (spanText text span) imported name isType b.leading b.trailing =
                  b := by
                cases b
                cases own
                rfl
              exact congrArg₂ List.cons same (ih others)

end Attached

theorem ofDeclaration?_printed {d : ImportDeclaration} {spans : List Edit.Span} (h : WellWritten types o)
    (thawed : o.frozen = false) (whole : spanText (o.render newline) d.span = o.render newline)
    (restates : Restates (o.render newline) d o)
    (attached : attachedComments? (o.render newline) d.span (d.specifiers.filterMap namedSpan?) spans =
      some (o.named.map commentsOf)) :
    Item.ofDeclaration? (o.render newline) spans (fun _ => true) d = some (o.printed newline) := by
  have all : ∀ specifier ∈ d.specifiers, (fun _ : Text => true) specifier.name = true := fun _ _ => rfl
  have named : usedBindings (o.render newline) (fun _ => true) d.specifiers (o.named.map commentsOf) =
      o.named :=
    usedBindings_attached ((usedBindings_of_all all (o.render newline) []).symm.trans (restates.named []))
  have same : wholeImport (o.render newline) (fun _ => true) d (o.named.map commentsOf) =
      o.printed newline := by
    have unmodified : (d.specifiers.any fun _ => !true) = false := by simp
    rw [wholeImport, Item.bare, whole, restates.module, restates.source, restates.attributes,
      restates.isType, restates.noPhase, restates.default, restates.whole, named, unmodified,
      Item.printed, ← thawed]
    have semicolon := restates.semicolon
    rw [whole] at semicolon
    rw [semicolon]
  have inhabited : (o.printed newline).isEmpty = false := h.inhabited
  have thawed' : isFrozen (o.render newline) spans d = false := by
    have specifiers : d.specifiers ≠ [] := by
      intro none
      have empty := h.inhabited
      rw [Item.isEmpty, ← restates.default, ← restates.whole, ← named, none] at empty
      cases empty
    simp [isFrozen, ownComments?, attached, restates.noPhase, specifiers]
  obtain ⟨found, own, -, read⟩ := ofDeclaration?_thawed (fun _ => true) thawed'
  rw [ownComments?, attached, Option.some.injEq] at own
  rw [read, ← own, same, if_neg (by simp [inhabited])]

variable {dialect : Dialect} {program : Program} {order : TypeOrder} {ins : List Item}

/-- A modified import without attributes is read again from its own print, with each comment at the binding
that it was printed with, if its comments come back to their bindings. -/
theorem reattached_render (h : parse dialect text = .ok program)
    (read : ∀ i ∈ ins, IsRead text program i) (ho : o ∈ organizeGroup order ins)
    (thawed : o.frozen = false) (modified : o.modified = true) (attributes : o.attributes = none)
    (attachable : Attachable o.named) (hnewline : IsNewline newline) :
    ∃ again d, parse dialect (o.render newline) = .ok again ∧
      again.statements = [⟨d.span, .importing d⟩] ∧
      attachedComments? (o.render newline) d.span (d.specifiers.filterMap namedSpan?) again.comments =
        some (o.named.map commentsOf) ∧
      Item.ofDeclaration? (o.render newline) again.comments (fun _ => true) d =
        some (o.printed newline) := by
  have written := (organized_of_mem_organizeGroup h read ho thawed).written
  obtain ⟨again, d, binders, parsed, statements, whole, printed, braces, worded, restates⟩ :=
    exists_worded_render written modified attributes hnewline attachable.printable
  have attached := attachedComments?_printed written attachable hnewline printed braces worded
  exact ⟨again, d, parsed, statements, attached,
    ofDeclaration?_printed written thawed whole restates attached⟩

instance (named : List NamedBinding) : Decidable (Attachable named) :=
  decidable_of_iff (_ ∧ _ ∧ _ ∧ _) ⟨fun h => ⟨h.1, h.2.1, h.2.2.1, h.2.2.2⟩,
    fun h => ⟨h.unbroken, h.last, h.apart, h.braces⟩⟩

def linedScript : Text :=
  "import \x7b a, // of a\n  /* of b */ b, c \x7d from 'x';\n".toList

theorem linedScript_reattached : ∃ o ∈ organizeGroup .last (importsWithoutC linedScript),
    o.frozen = false ∧ o.modified = true ∧ o.attributes = none ∧ Attachable o.named ∧
    o.named.map commentsOf = [⟨[], ["// of a".toList]⟩, ⟨["/* of b */".toList], []⟩] ∧
    ∃ again d, parse ⟨false, false⟩ (o.render ['\n']) = .ok again ∧
      again.statements = [⟨d.span, .importing d⟩] ∧
      attachedComments? (o.render ['\n']) d.span (d.specifiers.filterMap namedSpan?) again.comments =
        some (o.named.map commentsOf) ∧
      Item.ofDeclaration? (o.render ['\n']) again.comments (fun _ => true) d =
        some (o.printed ['\n']) := by
  have kept : organizeGroup .last (importsWithoutC linedScript) = importsWithoutC linedScript := by
    rw [organizeGroup_eq_organizeSegment _ (by decide +kernel),
      organizeSegment_eq_self ⟨by decide +kernel, by decide +kernel, by decide +kernel, by decide +kernel⟩]
  have found : (importsWithoutC linedScript).map (fun o => decide (o.frozen = false ∧ o.modified = true ∧
      o.attributes = none ∧ Attachable o.named ∧
      o.named.map commentsOf = [⟨[], ["// of a".toList]⟩, ⟨["/* of b */".toList], []⟩])) = [true] := by
    decide +kernel
  obtain ⟨o, ho, same⟩ := List.map_eq_singleton_iff.1 found
  obtain ⟨thawed, modified, attributes, attachable, own⟩ := of_decide_eq_true same
  have mem : o ∈ organizeGroup .last (importsWithoutC linedScript) := by
    rw [kept, ho]
    exact List.mem_singleton_self o
  refine ⟨o, mem, thawed, modified, attributes, attachable, own, ?_⟩
  exact reattached_render (parse_eq_parsed (by decide +kernel)) (fun i hi => isRead_of_mem_importsOf hi) mem
    thawed modified attributes attachable (.inl rfl)

def inlineScript : Text := "import \x7b a,\n  /* of b */ b, c \x7d from 'x';\n".toList

/-- Printed on one line, the comment of the second binding is given to the first one. -/
theorem inlineScript_not_reattached : ¬ ∀ o ∈ organizeGroup .last (importsWithoutC inlineScript),
    o.frozen = false → o.modified = true →
    ∃ again d, parse ⟨false, false⟩ (o.render ['\n']) = .ok again ∧
      again.statements = [⟨d.span, .importing d⟩] ∧
      attachedComments? (o.render ['\n']) d.span (d.specifiers.filterMap namedSpan?) again.comments =
        some (o.named.map commentsOf) := by
  intro reattached
  have kept : organizeGroup .last (importsWithoutC inlineScript) = importsWithoutC inlineScript := by
    rw [organizeGroup_eq_organizeSegment _ (by decide +kernel),
      organizeSegment_eq_self ⟨by decide +kernel, by decide +kernel, by decide +kernel, by decide +kernel⟩]
  have found : (importsWithoutC inlineScript).map (fun o => decide (o.frozen = false ∧ o.modified = true ∧
      o.named.map commentsOf = [⟨[], []⟩, ⟨["/* of b */".toList], []⟩] ∧
      ((parse ⟨false, false⟩ (o.render ['\n'])).toOption.map fun again =>
        (declarations again.statements).map fun d => attachedComments? (o.render ['\n']) d.span
          (d.specifiers.filterMap namedSpan?) again.comments) =
        some [some [⟨[], ["/* of b */".toList]⟩, ⟨[], []⟩]])) = [true] := by
    decide +kernel
  obtain ⟨o, ho, same⟩ := List.map_eq_singleton_iff.1 found
  obtain ⟨thawed, modified, own, given⟩ := of_decide_eq_true same
  have mem : o ∈ organizeGroup .last (importsWithoutC inlineScript) := by
    rw [kept, ho]
    exact List.mem_singleton_self o
  obtain ⟨again, d, parsed, statements, attached⟩ := reattached o mem thawed modified
  have alone : declarations again.statements = [d] := by
    rw [statements]
    rfl
  have read : (parse ⟨false, false⟩ (o.render ['\n'])).toOption = some again := by
    rw [parsed]
    rfl
  rw [read, Option.map_some, alone, List.map_singleton, attached, own] at given
  exact absurd given (by decide)

end TidyImports.Import
