import TidyImports.Proofs.Import.Written
import TidyImports.Proofs.Script.Spacing

/-! Printed bindings as lexemes. The comments and blanks of printed bindings are gaps between the tokens
of their specifiers, on one line or on lines of their own. A line comment ends with its line, so the gaps
are gaps whatever follows them, and the lexemes with these gaps are spelled as the bindings are printed. -/
namespace TidyImports.Import

open Script

variable {types isType : Bool} {b : NamedBinding} {named rest : List NamedBinding}
  {indent sep newline t : Text} {comment : Text} {comments : List Text} {c : Char}
  {gap more : List GapPiece} {words : NamedBinding → List Lexeme}

/-! Comments as pieces of gaps. -/

def Unbroken (comment : Text) : Prop := comment.any isLineBreak = false

instance (comment : Text) : Decidable (Unbroken comment) := inferInstanceAs (Decidable (_ = false))

def commentPiece (comment : Text) : GapPiece :=
  if isLineComment comment then .line (comment.drop 2) else .block (comment.drop 2).dropLast.dropLast

theorem commentPiece_line (body : Text) : commentPiece ('/' :: '/' :: body) = .line body := rfl

theorem commentPiece_block (body : Text) :
    commentPiece ('/' :: '*' :: (body ++ ['*', '/'])) = .block body := by
  have inner : (body ++ ['*', '/']).dropLast.dropLast = body := by
    rw [List.append_cons, List.dropLast_concat, List.dropLast_concat]
  exact congrArg GapPiece.block inner

theorem text_commentPiece (h : IsComment comment) : (commentPiece comment).text = comment := by
  cases h with
  | line => rfl
  | block => rw [commentPiece_block, GapPiece.text]

def IsPassed (c : Char) : Prop := (isLineBreak c || isGap c) = true

instance (c : Char) : Decidable (IsPassed c) := inferInstanceAs (Decidable (_ = true))

theorem steady_comment (h : IsComment comment) (passed : IsPassed c)
    (line : isLineComment comment = true → Unbroken comment ∧ isLineBreak c = true)
    (steady : Steady more) : Steady (commentPiece comment :: .blank c :: more) := by
  intro rest
  cases h with
  | @line body =>
      obtain ⟨unbroken, lineBreak⟩ := line rfl
      rw [commentPiece_line]
      have inner : body.any isLineBreak = false := by
        simp only [Unbroken, List.any_cons, Bool.or_eq_false_iff] at unbroken
        exact unbroken.2.2
      exact .line inner lineBreak (steady rest)
  | block closes =>
      rw [commentPiece_block]
      exact .block closes (.blank passed (steady rest))

def blanks (t : Text) : List GapPiece := t.map GapPiece.blank

@[simp] theorem gapText_blanks (t : Text) : gapText (blanks t) = t := by
  induction t with
  | nil => rfl
  | cons c t ih => exact congrArg (c :: ·) ih

theorem steady_blanks_append (h : ∀ c ∈ t, IsPassed c) (steady : Steady more) :
    Steady (blanks t ++ more) := by
  induction t with
  | nil => exact steady
  | cons c t ih =>
      obtain ⟨first, others⟩ := List.forall_mem_cons.1 h
      exact .blank first (ih others)

def IsNewline (newline : Text) : Prop := newline = ['\n'] ∨ newline = ['\r', '\n']

instance (newline : Text) : Decidable (IsNewline newline) := inferInstanceAs (Decidable (_ ∨ _))

/-- A binding whose comments can be printed: a line ends in no line comment, and in no comment behind a
line comment on the line of the specifier. -/
structure NamedBinding.Printable (b : NamedBinding) : Prop where
  unbroken : ∀ comment ∈ b.leading ++ b.trailing, isLineComment comment = true → Unbroken comment
  behind : b.trailing.Pairwise fun line comment => isLineComment line = true → Unbroken comment

/-- The blanks around the comments before bindings: they stand before the comment and behind it, and a
line ends behind a line comment. -/
structure Sets (indent sep : Text) (named : List NamedBinding) : Prop where
  indent : ∀ c ∈ indent, IsPassed c
  sep : ∃ c more, sep = c :: more ∧ IsPassed c ∧ (∀ d ∈ more, IsPassed d) ∧
    ∀ b ∈ named, b.hasLineComment = true → isLineBreak c = true

def leadingPieces (indent sep : Text) (comments : List Text) : List GapPiece :=
  comments.flatMap fun comment => blanks indent ++ commentPiece comment :: blanks sep

/-- The pieces of comments that are printed behind a specifier. A line comment takes the comments behind it
in. -/
def trailingPieces : List Text → List GapPiece
  | [] => []
  | comment :: rest =>
    if isLineComment comment then [.blank ' ', .line (comment.drop 2 ++ rest.flatMap (' ' :: ·))]
    else .blank ' ' :: commentPiece comment :: trailingPieces rest

def gapBefore (indent sep : Text) : List NamedBinding → List GapPiece
  | [] => blanks sep
  | b :: _ => blanks sep ++ (leadingPieces indent sep b.leading ++ blanks indent)

theorem gapText_leadingPieces (h : ∀ comment ∈ comments, IsComment comment) :
    gapText (leadingPieces indent sep comments) =
      comments.flatMap fun comment => indent ++ comment ++ sep := by
  induction comments with
  | nil => rfl
  | cons comment comments ih =>
      obtain ⟨own, others⟩ := List.forall_mem_cons.1 h
      rw [leadingPieces, List.flatMap_cons, gapText_append, ← leadingPieces, ih others,
        List.flatMap_cons, gapText_append, gapText_cons, text_commentPiece own, gapText_blanks,
        gapText_blanks]
      simp only [List.append_assoc]

theorem gapText_trailingPieces (h : ∀ comment ∈ comments, IsComment comment) :
    gapText (trailingPieces comments) = comments.flatMap (' ' :: ·) := by
  induction comments with
  | nil => rfl
  | cons comment comments ih =>
      obtain ⟨own, others⟩ := List.forall_mem_cons.1 h
      rw [trailingPieces, List.flatMap_cons]
      split
      · next line =>
        cases own with
        | line => simp [GapPiece.text]
        | block => simp [isLineComment, Text.startsWith, Text.stripHead?] at line
      · rw [gapText_cons, gapText_cons, text_commentPiece own, ih others]
        rfl

theorem steady_leading (sets : Sets indent sep named) (hb : b ∈ named) (printable : b.Printable)
    (h : ∀ comment ∈ b.leading, IsComment comment) (steady : Steady more) :
    Steady (leadingPieces indent sep b.leading ++ more) := by
  obtain ⟨c, blank, rfl, passed, others, lines⟩ := sets.sep
  have own : ∀ comment ∈ b.leading,
      isLineComment comment = true → Unbroken comment ∧ isLineBreak c = true := by
    intro comment hcomment line
    refine ⟨printable.unbroken comment (List.mem_append_left _ hcomment) line, lines b hb ?_⟩
    exact List.any_eq_true.2 ⟨comment, List.mem_append_left _ hcomment, line⟩
  clear lines
  generalize b.leading = comments at h own
  induction comments with
  | nil => exact steady
  | cons comment comments ih =>
      obtain ⟨isComment, h⟩ := List.forall_mem_cons.1 h
      obtain ⟨line, own⟩ := List.forall_mem_cons.1 own
      have tail : Steady (commentPiece comment :: .blank c ::
          (blanks blank ++ (leadingPieces indent (c :: blank) comments ++ more))) :=
        steady_comment isComment passed line (steady_blanks_append others (ih h own))
      have whole := steady_blanks_append sets.indent tail
      rw [leadingPieces, List.flatMap_cons, ← leadingPieces]
      simpa [blanks] using whole

theorem steady_trailing (h : ∀ comment ∈ comments, IsComment comment)
    (unbroken : ∀ comment ∈ comments, isLineComment comment = true → Unbroken comment)
    (behind : comments.Pairwise fun line comment => isLineComment line = true → Unbroken comment)
    (steady : Steady more)
    (lines : (∃ comment ∈ comments, isLineComment comment = true) →
      ∃ c pieces, more = .blank c :: pieces ∧ isLineBreak c = true) :
    Steady (trailingPieces comments ++ more) := by
  induction comments with
  | nil => exact steady
  | cons comment comments ih =>
      obtain ⟨own, others⟩ := List.forall_mem_cons.1 h
      obtain ⟨ownUnbroken, othersUnbroken⟩ := List.forall_mem_cons.1 unbroken
      obtain ⟨ownBehind, othersBehind⟩ := List.pairwise_cons.1 behind
      rw [trailingPieces]
      split
      · next line =>
        obtain ⟨c, pieces, rfl, lineBreak⟩ := lines ⟨comment, List.mem_cons_self, line⟩
        have inner : (comment.drop 2 ++ comments.flatMap (' ' :: ·)).any isLineBreak = false := by
          rw [List.any_append, Bool.or_eq_false_iff, List.any_eq_false, List.any_eq_false]
          constructor
          · intro d hd
            exact List.any_eq_false.1 (ownUnbroken line) d (List.mem_of_mem_drop hd)
          · intro d hd
            obtain ⟨other, hother, mem⟩ := List.mem_flatMap.1 hd
            rcases List.mem_cons.1 mem with rfl | mem
            · decide
            · exact List.any_eq_false.1 (ownBehind other hother line) d mem
        intro rest
        cases steady rest with
        | blank _ tail => exact .blank (by decide) (.line inner lineBreak tail)
      · next block =>
        have tail : Steady (trailingPieces comments ++ more) :=
          ih others othersUnbroken othersBehind fun ⟨other, hother, line⟩ =>
            lines ⟨other, List.mem_cons_of_mem _ hother, line⟩
        cases own with
        | line => exact absurd rfl block
        | block closes =>
            rw [commentPiece_block]
            exact fun rest => .blank (by decide) (.block closes (tail rest))

section Gaps

variable (sets : Sets indent sep named) (printable : ∀ b ∈ named, b.Printable)
  (formed : ∀ b ∈ named, ∀ comment ∈ b.leading ++ b.trailing, IsComment comment)
include sets printable formed

theorem steady_gapBefore (suffix : rest <:+ named) : Steady (gapBefore indent sep rest) := by
  obtain ⟨c, blank, rfl, passed, others, -⟩ := sets.sep
  have between {more : List GapPiece} (steady : Steady more) : Steady (blanks (c :: blank) ++ more) :=
    .blank passed (steady_blanks_append others steady)
  cases rest with
  | nil =>
      have alone := between Steady.nil
      rwa [List.append_nil] at alone
  | cons b rest =>
      have hb := suffix.subset List.mem_cons_self
      have own := steady_blanks_append sets.indent Steady.nil
      rw [List.append_nil] at own
      exact between (steady_leading sets hb (printable b hb)
        (fun comment hcomment => formed b hb comment (List.mem_append_left _ hcomment)) own)

theorem steady_trailing_gapBefore (suffix : b :: rest <:+ named) :
    Steady (trailingPieces b.trailing ++ gapBefore indent sep rest) := by
  have hb := suffix.subset List.mem_cons_self
  have behind : b.trailing ⊆ b.leading ++ b.trailing := List.subset_append_right _ _
  have steady := steady_gapBefore sets printable formed ((List.suffix_cons b rest).trans suffix)
  refine steady_trailing (fun comment hcomment => formed b hb comment (behind hcomment))
    (fun comment hcomment => (printable b hb).unbroken comment (behind hcomment))
    (printable b hb).behind steady ?_
  rintro ⟨comment, hcomment, line⟩
  obtain ⟨c, blank, rfl, -, -, lines⟩ := sets.sep
  have lineBreak := lines b hb (List.any_eq_true.2 ⟨comment, behind hcomment, line⟩)
  cases rest with
  | nil => exact ⟨c, _, rfl, lineBreak⟩
  | cons next rest => exact ⟨c, _, rfl, lineBreak⟩

end Gaps

/-! Bindings as lists of specifiers. -/

/-- The lexemes of a specifier that says what a binding says. -/
structure Words (types isType : Bool) (b : NamedBinding) (ls : List Lexeme) : Prop where
  phrase : Phrase ls
  spells : spelled ls = b.text
  tokens : b.naming.Tokens types isType (ls.map Lexeme.token)

theorem NamedBinding.WellWritten.exists_words (h : b.WellWritten types isType) :
    ∃ ls, Words types isType b ls := by
  obtain _ | _ | ⟨phrase, spells, tokens⟩ := h.naming
  exact ⟨_, phrase, spells, tokens⟩

namespace Words

variable {ls : List Lexeme}

theorem ne_nil (h : Words types isType b ls) : ls ≠ [] := by
  rintro rfl
  obtain ⟨_, _, empty, -⟩ := h.tokens.opens
  cases empty

theorem withLastGap (gap : List GapPiece) (h : Words types isType b ls) :
    Words types isType b (withLastGap gap ls) where
  phrase := phrase_withLastGap_iff.2 h.phrase
  spells := (spelled_withLastGap gap ls).trans h.spells
  tokens := (map_token_withLastGap gap ls).symm ▸ h.tokens

end Words

def commaBefore (gap : List GapPiece) : Lexeme := ⟨.symbol ",", [','], gap⟩

def inlineItem (words : NamedBinding → List Lexeme) (b : NamedBinding) :
    List NamedBinding → Listed Naming
  | [] => ⟨b.naming, withLastGap (trailingPieces b.trailing ++ gapBefore [] [' '] []) (words b), none⟩
  | next :: rest => ⟨b.naming, withLastGap (trailingPieces b.trailing) (words b),
      some (commaBefore (gapBefore [] [' '] (next :: rest)))⟩

def lineItem (newline : Text) (words : NamedBinding → List Lexeme) (b : NamedBinding)
    (rest : List NamedBinding) : Listed Naming :=
  ⟨b.naming, withLastGap [] (words b),
    some (commaBefore (trailingPieces b.trailing ++ gapBefore [' ', ' '] newline rest))⟩

def row (item : NamedBinding → List NamedBinding → Listed Naming) :
    List NamedBinding → List (Listed Naming)
  | [] => []
  | b :: rest => item b rest :: row item rest

def printedGap (newline : Text) (named : List NamedBinding) : List GapPiece :=
  if named.any NamedBinding.hasLineComment then gapBefore [' ', ' '] newline named
  else gapBefore [] [' '] named

def printedItems (newline : Text) (words : NamedBinding → List Lexeme) (named : List NamedBinding) :
    List (Listed Naming) :=
  if named.any NamedBinding.hasLineComment then row (lineItem newline words) named
  else row (inlineItem words) named

/-- A specifier says what a binding says, and ends before what follows; only behind the last one no comma
is needed. -/
structure Prints (types isType : Bool) (b : NamedBinding) (rest : List NamedBinding)
    (item : Listed Naming) : Prop where
  value : item.value = b.naming
  words : Words types isType b item.words
  gap : Steady (lastGap item.words)
  ends : ∀ t, EndsAll t → EndsAll (gapText (lastGap item.words) ++ t)
  comma : item.comma = none ∧ rest = [] ∨ ∃ gap, item.comma = some (commaBefore gap) ∧ Steady gap

section Row

variable {item : NamedBinding → List NamedBinding → Listed Naming}

theorem isList_row (prints : ∀ b rest, b :: rest <:+ named → Prints types isType b rest (item b rest)) :
    IsList (Naming.Tokens types isType) (row item named) := by
  induction named with
  | nil => exact .nil
  | cons b rest ih =>
      have own := prints b rest List.suffix_rfl
      have tokens := own.words.tokens
      rw [← own.value] at tokens
      obtain ⟨none, rfl⟩ | ⟨gap, some, -⟩ := own.comma
      · exact .last tokens none
      · exact .cons tokens some rfl (ih fun b' rest' suffix =>
          prints b' rest' (suffix.trans (List.suffix_cons b rest)))

theorem said_row (prints : ∀ b rest, b :: rest <:+ named → Prints types isType b rest (item b rest)) :
    (row item named).map (fun item => Said.named item.value (spelled item.words)) =
      named.map fun b => Said.named b.naming b.text := by
  induction named with
  | nil => rfl
  | cons b rest ih =>
      have own := prints b rest List.suffix_rfl
      have later := ih fun b' rest' suffix => prints b' rest' (suffix.trans (List.suffix_cons b rest))
      rw [row, List.map_cons, List.map_cons, later, own.value, own.words.spells]

theorem phrase_row (prints : ∀ b rest, b :: rest <:+ named → Prints types isType b rest (item b rest))
    {closing : Lexeme} {post : List Lexeme} (behind : Phrase (closing :: post))
    (closes : EndsAll closing.text) :
    Phrase ((row item named).flatMap Listed.lexemes ++ closing :: post) := by
  induction named with
  | nil => exact behind
  | cons b rest ih =>
      have own := prints b rest List.suffix_rfl
      have later := ih fun b' rest' suffix => prints b' rest' (suffix.trans (List.suffix_cons b rest))
      rw [row, List.flatMap_cons, List.append_assoc, Listed.lexemes, List.append_assoc]
      obtain ⟨none, rfl⟩ | ⟨gap, some, steady⟩ := own.comma
      · rw [none, Option.toList_none, List.nil_append]
        refine own.words.phrase.append later own.gap fun m hm => own.ends _ ?_
        cases Option.some.inj hm
        exact closes
      · rw [some, Option.toList_some]
        have comma : Phrase (commaBefore gap :: ((row item rest).flatMap Listed.lexemes ++ closing :: post)) :=
          .cons_mark rfl (by decide) (by decide) rfl steady later
        refine own.words.phrase.append comma own.gap fun m hm => own.ends _ ?_
        cases Option.some.inj hm
        exact .of_head (by decide) (by decide) []

end Row

theorem endsAll_space (t : Text) : EndsAll (' ' :: t) := .of_head (by decide) (by decide) t

theorem endsAll_trailing (ends : EndsAll (gapText more ++ t)) :
    EndsAll (gapText (trailingPieces comments ++ more) ++ t) := by
  cases comments with
  | nil => exact ends
  | cons comment comments =>
      rw [trailingPieces]
      split <;> exact endsAll_space _

theorem sets_inline (plain : ∀ b ∈ named, b.hasLineComment = false) : Sets [] [' '] named where
  indent := by simp
  sep := ⟨' ', [], rfl, by decide, by simp, fun b hb line => by simp [plain b hb] at line⟩

theorem sets_lines (h : IsNewline newline) (named : List NamedBinding) :
    Sets [' ', ' '] newline named where
  indent := List.forall_mem_cons.2 ⟨by decide, List.forall_mem_singleton.2 (by decide)⟩
  sep := by
    obtain rfl | rfl := h
    · exact ⟨'\n', [], rfl, by decide, by simp, fun _ _ _ => by decide⟩
    · exact ⟨'\r', ['\n'], rfl, by decide, List.forall_mem_singleton.2 (by decide), fun _ _ _ => by decide⟩

theorem printable_of_plain (h : b.hasLineComment = false) : b.Printable := by
  have none : ∀ comment ∈ b.leading ++ b.trailing, isLineComment comment ≠ true :=
    List.any_eq_false.1 h
  refine ⟨fun comment hcomment line => absurd line (none comment hcomment), ?_⟩
  refine List.pairwise_iff_forall_sublist.2 fun sub line => absurd line (none _ ?_)
  exact List.mem_append_right _ (sub.subset List.mem_cons_self)

section Prints

variable (formed : ∀ b ∈ named, ∀ comment ∈ b.leading ++ b.trailing, IsComment comment)
  (own : ∀ b ∈ named, Words types isType b (words b))
include formed own

theorem prints_inlineItem (plain : ∀ b ∈ named, b.hasLineComment = false)
    (suffix : b :: rest <:+ named) : Prints types isType b rest (inlineItem words b rest) := by
  have hb := suffix.subset List.mem_cons_self
  have printable : ∀ b ∈ named, b.Printable := fun b hb => printable_of_plain (plain b hb)
  have inhabited := (own b hb).ne_nil
  have sets := sets_inline plain
  cases rest with
  | nil =>
      refine ⟨rfl, (own b hb).withLastGap _, ?_, ?_, .inl ⟨rfl, rfl⟩⟩ <;>
        rw [inlineItem, lastGap_withLastGap _ inhabited]
      · exact steady_trailing_gapBefore sets printable formed suffix
      · exact fun t _ => endsAll_trailing (endsAll_space t)
  | cons next rest =>
      refine ⟨rfl, (own b hb).withLastGap _, ?_, ?_, .inr ⟨_, rfl, ?_⟩⟩
      · rw [inlineItem, lastGap_withLastGap _ inhabited, ← List.append_nil (trailingPieces _)]
        have block : ∀ comment ∈ b.trailing, isLineComment comment ≠ true := fun comment hcomment =>
          List.any_eq_false.1 (plain b hb) comment (List.mem_append_right _ hcomment)
        exact steady_trailing
          (fun comment hcomment => formed b hb comment (List.mem_append_right _ hcomment))
          (fun comment hcomment line => absurd line (block comment hcomment))
          (printable b hb).behind .nil
          fun ⟨comment, hcomment, line⟩ => absurd line (block comment hcomment)
      · intro t ends
        rw [inlineItem, lastGap_withLastGap _ inhabited, ← List.append_nil (trailingPieces _)]
        exact endsAll_trailing ends
      · exact steady_gapBefore sets printable formed ((List.suffix_cons b _).trans suffix)

theorem prints_lineItem (printable : ∀ b ∈ named, b.Printable) (hnewline : IsNewline newline)
    (suffix : b :: rest <:+ named) : Prints types isType b rest (lineItem newline words b rest) := by
  have hb := suffix.subset List.mem_cons_self
  have inhabited := (own b hb).ne_nil
  refine ⟨rfl, (own b hb).withLastGap _, ?_, ?_, .inr ⟨_, rfl, ?_⟩⟩
  · rw [lineItem, lastGap_withLastGap _ inhabited]
    exact .nil
  · rw [lineItem, lastGap_withLastGap _ inhabited]
    exact fun t ends => ends
  · exact steady_trailing_gapBefore (sets_lines hnewline named) printable formed suffix

end Prints

/-! The text of printed bindings. -/

theorem glue_spaces (leading trailing : List Text) (own : Text) :
    Text.glue [' '] (leading ++ own :: trailing) =
      (leading.flatMap (· ++ [' '])) ++ own ++ trailing.flatMap (' ' :: ·) := by
  have behind (own : Text) : Text.glue [' '] (own :: trailing) = own ++ trailing.flatMap (' ' :: ·) := by
    induction trailing generalizing own with
    | nil => simp [Text.glue]
    | cons comment trailing ih => rw [Text.glue, ih]; simp
  induction leading with
  | nil => exact behind own
  | cons comment leading ih =>
      obtain ⟨next, more, split⟩ := List.exists_cons_of_ne_nil
        (List.append_ne_nil_of_right_ne_nil leading (List.cons_ne_nil own trailing))
      rw [List.cons_append, split, Text.glue, ← split, ih]
      simp

theorem fullText_words (b : NamedBinding) (gap : List GapPiece) (comma : Option Lexeme)
    (h : Words types isType b (words b)) :
    fullText (Listed.lexemes (α := Naming) ⟨b.naming, withLastGap gap (words b), comma⟩) =
      b.text ++ (gapText gap ++ fullText comma.toList) := by
  rw [fullText_item, textBehind, spelled_withLastGap, lastGap_withLastGap _ h.ne_nil, h.spells]

theorem gapText_gapBefore_cons (formed : ∀ comment ∈ b.leading, IsComment comment) :
    gapText (gapBefore indent sep (b :: rest)) =
      sep ++ ((b.leading.flatMap fun comment => indent ++ comment ++ sep) ++ indent) := by
  rw [gapBefore, gapText_append, gapText_append, gapText_blanks, gapText_blanks,
    gapText_leadingPieces formed]

section Text

variable (formed : ∀ b ∈ named, ∀ comment ∈ b.leading ++ b.trailing, IsComment comment)
  (own : ∀ b ∈ named, Words types isType b (words b))
include formed own

theorem fullText_inline (inhabited : named ≠ []) :
    gapText (gapBefore [] [' '] named) ++ fullText ((row (inlineItem words) named).flatMap Listed.lexemes) =
      ' ' :: (Text.glue [',', ' '] (named.map NamedBinding.inline) ++ [' ']) := by
  induction named with
  | nil => exact absurd rfl inhabited
  | cons b rest ih =>
      obtain ⟨words, others⟩ := List.forall_mem_cons.1 own
      obtain ⟨comments, formed⟩ := List.forall_mem_cons.1 formed
      obtain ⟨leading, trailing⟩ := List.forall_mem_append.1 comments
      rw [gapText_gapBefore_cons leading, row, List.flatMap_cons, fullText_append, List.map_cons,
        NamedBinding.inline, glue_spaces]
      cases rest with
      | nil =>
          rw [inlineItem, fullText_words _ _ _ words, gapText_append, gapText_trailingPieces trailing]
          simp [row, Text.glue, gapBefore]
      | cons next rest =>
          have later := ih formed others (by simp)
          rw [inlineItem, fullText_words _ _ _ words, gapText_trailingPieces trailing]
          rw [List.map_cons, Text.glue, ← List.map_cons]
          simp [commaBefore, Lexeme.full, later]

theorem fullText_lines :
    gapText (gapBefore [' ', ' '] newline named) ++
        fullText ((row (lineItem newline words) named).flatMap Listed.lexemes) =
      newline ++ (named.map (NamedBinding.lines newline)).flatten := by
  induction named with
  | nil => simp [gapBefore, row]
  | cons b rest ih =>
      obtain ⟨words, others⟩ := List.forall_mem_cons.1 own
      obtain ⟨comments, formed⟩ := List.forall_mem_cons.1 formed
      obtain ⟨leading, trailing⟩ := List.forall_mem_append.1 comments
      have later := ih formed others
      rw [gapText_gapBefore_cons leading, row, List.flatMap_cons, fullText_append, lineItem,
        fullText_words _ _ _ words, List.map_cons, List.flatten_cons, NamedBinding.lines]
      simpa [commaBefore, Lexeme.full, gapText_trailingPieces trailing, List.flatMap_def] using later

end Text

/-- Bindings as they are printed between braces: a list of specifiers that says them, spelled as it is
printed and a phrase with what follows. -/
structure Printed (types isType : Bool) (newline : Text) (named : List NamedBinding)
    (gap : List GapPiece) (items : List (Listed Naming)) : Prop where
  steady : Steady gap
  list : IsList (Naming.Tokens types isType) items
  said : items.map (fun item => Said.named item.value (spelled item.words)) =
    named.map fun b => Said.named b.naming b.text
  phrase : ∀ {closing post}, Phrase (closing :: post) → EndsAll closing.text →
    Phrase (items.flatMap Listed.lexemes ++ closing :: post)
  text : '\x7b' :: (gapText gap ++ fullText (items.flatMap Listed.lexemes)) ++ ['\x7d'] =
    renderNamed newline named

theorem printed_printedItems (inhabited : named ≠ []) (hnewline : IsNewline newline)
    (formed : ∀ b ∈ named, ∀ comment ∈ b.leading ++ b.trailing, IsComment comment)
    (own : ∀ b ∈ named, Words types isType b (words b)) (printable : ∀ b ∈ named, b.Printable) :
    Printed types isType newline named (printedGap newline named) (printedItems newline words named) := by
  by_cases lines : named.any NamedBinding.hasLineComment = true
  · have prints (b : NamedBinding) (rest : List NamedBinding) (suffix : b :: rest <:+ named) :=
      prints_lineItem formed own printable hnewline suffix
    rw [printedGap, printedItems, if_pos lines, if_pos lines]
    refine ⟨steady_gapBefore (sets_lines hnewline named) printable formed List.suffix_rfl,
      isList_row prints, said_row prints, phrase_row prints, ?_⟩
    rw [fullText_lines formed own, renderNamed, if_pos lines]
    simp
  · have plain : ∀ b ∈ named, b.hasLineComment = false := by simpa using lines
    have prints (b : NamedBinding) (rest : List NamedBinding) (suffix : b :: rest <:+ named) :=
      prints_inlineItem formed own plain suffix
    rw [printedGap, printedItems, if_neg lines, if_neg lines]
    refine ⟨steady_gapBefore (sets_inline plain) printable formed List.suffix_rfl,
      isList_row prints, said_row prints, phrase_row prints, ?_⟩
    rw [fullText_inline formed own inhabited, renderNamed, if_neg lines]
    simp

end TidyImports.Import
