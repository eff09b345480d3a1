import TidyImports.Proofs.Import.Trivia

/-! What the scanner takes of a gap. A gap is cut into pieces, each a comma, a blank or a whole comment,
and a rest at the start of which there is no such piece; the scanner notes the commas, the line feeds and
the comments in order. Made at byte offsets, its cuts fall between two characters. -/
namespace TidyImports.Text

def offsetOf? (needle t : Text) : Option Nat := (breakOn? needle t).map fun (before, _) => width before

variable {needle head s t r : Text} {c d : Char} {n : Nat}

theorem startsWith_cons_iff :
    startsWith (c :: t) (d :: head) = true ↔ c = d ∧ ∃ r, t = head ++ r := by
  rw [startsWith, Option.isSome_iff_exists]
  simp [stripHead?_eq_some]

theorem splitAt?_of_width (h : n = width s) : splitAt? (s ++ r) n = some (s, r) :=
  h ▸ splitAt?_width s r

theorem exists_breakOn? (h : needle <:+: t) :
    ∃ before behind, breakOn? needle t = some (before, behind) := by
  induction t with
  | nil => exact ⟨[], [], by simp [breakOn?, List.infix_nil.1 h]⟩
  | cons c t ih =>
      rw [breakOn?]
      split
      · exact ⟨_, _, rfl⟩
      · next none =>
        rcases List.infix_cons_iff.1 h with ⟨r, here⟩ | later
        · rw [stripHead?_eq_some.2 here.symm] at none
          cases none
        · obtain ⟨before, behind, found⟩ := ih later
          exact ⟨_, _, by rw [found]; rfl⟩

theorem offsetOf?_getD (c : Char) (t : Text) :
    (offsetOf? [c] t).getD (width t) = width (t.takeWhile (· != c)) := by
  induction t with
  | nil => rfl
  | cons d t ih =>
      by_cases same : c = d
      · subst same
        simp [offsetOf?, breakOn?, stripHead?]
      · have other : (d != c) = true := bne_iff_ne.2 (Ne.symm same)
        have goesOn : breakOn? [c] (d :: t) = (breakOn? [c] t).map fun (s, r) => (d :: s, r) := by
          rw [breakOn?, stripHead?, if_neg same]
        rw [List.takeWhile_cons, if_pos other, width_cons, width_cons, ← ih, offsetOf?, offsetOf?,
          goesOn]
        cases breakOn? [c] t <;> rfl

end TidyImports.Text

namespace TidyImports.Import

open Script

/-- A piece of what stands between specifiers: a comma, or a blank or a comment. -/
inductive TriviaPiece
  | comma
  | gap (piece : GapPiece)

namespace TriviaPiece

def text : TriviaPiece → Text
  | comma => [',']
  | gap piece => piece.text

def note : TriviaPiece → Option Trivia
  | comma => some .comma
  | gap piece => triviaAt piece

/-- What a piece is before the text behind it: a line comment goes on to the next line feed or to the end
of the text, and a block comment to its first end. -/
inductive StandsBefore (behind : Text) : TriviaPiece → Prop
  | comma : StandsBefore behind .comma
  | blank {c : Char} (blank : Text.isBlank c = true) : StandsBefore behind (.gap (.blank c))
  | line {body : Text} (unbroken : '\n' ∉ body) (ends : ∀ c ∈ behind.head?, c = '\n') :
    StandsBefore behind (.gap (.line body))
  | block {body : Text} (closes : ¬ ['*', '/'] <:+: body) : StandsBefore behind (.gap (.block body))

end TriviaPiece

def triviaText (pieces : List TriviaPiece) : Text := pieces.flatMap TriviaPiece.text

@[simp] theorem triviaText_cons (piece : TriviaPiece) (pieces : List TriviaPiece) :
    triviaText (piece :: pieces) = piece.text ++ triviaText pieces := rfl

def notesOf (pieces : List TriviaPiece) : List Trivia := pieces.filterMap TriviaPiece.note

@[simp] theorem notesOf_cons (piece : TriviaPiece) (pieces : List TriviaPiece) :
    notesOf (piece :: pieces) = piece.note.toList ++ notesOf pieces := by
  cases hnote : piece.note <;> simp [notesOf, hnote]

def ArePieces (rest : Text) : List TriviaPiece → Prop
  | [] => True
  | piece :: pieces => piece.StandsBefore (triviaText pieces ++ rest) ∧ ArePieces rest pieces

/-- No piece stands at the start of a text: it is empty or starts with a character that is no blank and
no comma and opens neither a line comment nor a block comment that ends. -/
def NoTrivia (t : Text) : Prop :=
  t = [] ∨ ∃ c u, t = c :: u ∧ Text.isBlank c = false ∧ c ≠ ',' ∧ ¬ ['/', '/'] <+: t ∧
    ¬ ∃ body behind, t = (GapPiece.block body).text ++ behind

/-- One step of the scanner with each cut made at a byte offset. It fails where an offset is beyond the
end of the text or inside of a character. -/
def stepByOffset? (t : Text) : Option (Option (Option Trivia × Text)) := do
  if t.startsWith [','] then
    let (_, rest) ← t.splitAt? 1
    return some (some .comma, rest)
  else if t.startsWith ['\n'] then
    let (_, rest) ← t.splitAt? 1
    return some (some .newline, rest)
  else if t.startsWith ['/', '/'] then
    let (line, rest) ← t.splitAt? ((Text.offsetOf? ['\n'] t).getD (Text.width t))
    return some (some (.comment (Text.trimEnd line)), rest)
  else if t.startsWith ['/', '*'] then
    let (_, inside) ← t.splitAt? 2
    match Text.offsetOf? ['*', '/'] inside with
    | none => return none
    | some close =>
      let (comment, rest) ← t.splitAt? (close + 4)
      return some (some (.comment comment), rest)
  else
    match t with
    | [] => return none
    | c :: _ =>
      if Text.isBlank c then
        let (_, rest) ← t.splitAt? c.utf8Size
        return some (none, rest)
      else return none

/-- The scanner by byte offsets, which fails where a step fails or a number of steps is not enough. -/
def scanByOffset? : Nat → Text → Option (List Trivia × Text)
  | 0, _ => none
  | steps + 1, t => do
    match ← stepByOffset? t with
    | none => return ([], t)
    | some (found, rest) =>
      let (more, rest) ← scanByOffset? steps rest
      return (found.toList ++ more, rest)

variable {t u rest : Text} {found : Option Trivia} {trivia : List Trivia} {piece : TriviaPiece}
  {pieces : List TriviaPiece} {body : Text} {c : Char} {steps : Nat}

theorem closesEarly_eq_false_iff : closesEarly false body = false ↔ ¬ ['*', '/'] <:+: body := by
  induction body with
  | nil => simp [closesEarly]
  | cons c body ih =>
      rw [List.infix_cons_iff, not_or, ← ih, List.cons_prefix_cons, closesEarly, Bool.false_and,
        Bool.false_or]
      cases body with
      | nil => simp [closesEarly]
      | cons d body => grind [closesEarly]

theorem cut_at_lineFeed (unbroken : '\n' ∉ body) (ends : ∀ c ∈ u.head?, c = '\n') :
    (body ++ u).takeWhile (· != '\n') = body ∧ (body ++ u).dropWhile (· != '\n') = u := by
  have all : ∀ c ∈ body, (c != '\n') = true := fun c hc => by
    rw [bne_iff_ne]
    rintro rfl
    exact unbroken hc
  rw [List.takeWhile_append_of_pos all, List.dropWhile_append_of_pos all]
  cases u with
  | nil => exact ⟨List.append_nil body, rfl⟩
  | cons c u =>
      obtain rfl := ends c rfl
      exact ⟨List.append_nil body, rfl⟩

theorem triviaStep_of_standsBefore (h : piece.StandsBefore u) :
    triviaStep (piece.text ++ u) = some (piece.note, u) := by
  cases h with
  | comma => rfl
  | blank blank => exact triviaStep_blank blank u
  | line unbroken ends =>
      obtain ⟨taken, left⟩ := cut_at_lineFeed unbroken ends
      simp only [TriviaPiece.text, TriviaPiece.note, triviaAt, GapPiece.text, List.cons_append,
        triviaStep_slashSlash, taken, left]
  | block closes => exact triviaStep_block (closesEarly_eq_false_iff.2 closes) u

theorem triviaStep_of_noTrivia (h : NoTrivia t) : triviaStep t = none := by
  obtain rfl | ⟨c, u, rfl, blank, comma, line, block⟩ := h
  · rfl
  · rw [triviaStep.eq_def]
    split
    · rfl
    · next whole => exact absurd (List.cons.inj whole).1 comma
    · next whole =>
      rw [(List.cons.inj whole).1] at blank
      exact absurd blank (by decide)
    · next t whole => exact absurd ⟨t, whole.symm⟩ line
    · next t whole =>
      rw [Option.map_eq_none_iff, blockComment?, Option.map_eq_none_iff]
      by_contra found
      obtain ⟨⟨body, behind⟩, found⟩ := Option.ne_none_iff_exists'.1 found
      obtain ⟨-, rfl⟩ := breakOn?_close_iff.1 found
      exact block ⟨body, behind, by rw [whole]; simp [GapPiece.text]⟩
    · next whole =>
      rw [← (List.cons.inj whole).1, blank]
      rfl

theorem noTrivia_or_exists_piece (t : Text) :
    NoTrivia t ∨ ∃ piece u, TriviaPiece.StandsBefore u piece ∧ t = piece.text ++ u := by
  cases t with
  | nil => exact .inl (.inl rfl)
  | cons c t =>
      by_cases blank : Text.isBlank c = true
      · exact .inr ⟨.gap (.blank c), t, .blank blank, rfl⟩
      by_cases comma : c = ','
      · exact .inr ⟨.comma, t, .comma, by rw [comma]; rfl⟩
      by_cases line : ['/', '/'] <+: c :: t
      · obtain ⟨body, whole⟩ := line
        refine .inr ⟨.gap (.line (body.takeWhile (· != '\n'))), body.dropWhile (· != '\n'),
          .line (fun feed => ?_) (fun d hd => ?_), ?_⟩
        · simpa using List.mem_takeWhile_imp feed
        · have stops := List.head?_dropWhile_not (· != '\n') body
          rw [Option.mem_def.1 hd] at stops
          simpa using stops
        · rw [← whole]
          simp [TriviaPiece.text, GapPiece.text]
      by_cases block : ∃ body behind, c :: t = (GapPiece.block body).text ++ behind
      · -- A block comment that ends has a first end.
        obtain ⟨body, behind, whole⟩ := block
        obtain ⟨first, behind', found⟩ := Text.exists_breakOn? (t := body ++ ['*', '/'] ++ behind)
          (List.infix_append body ['*', '/'] behind)
        obtain ⟨closes, same⟩ := breakOn?_close_iff.1 found
        refine .inr ⟨.gap (.block first), behind', .block (closesEarly_eq_false_iff.1 closes), ?_⟩
        rw [whole]
        simp [TriviaPiece.text, GapPiece.text, same]
      · exact .inl (.inr ⟨c, t, rfl, eq_false_of_ne_true blank, comma, line, block⟩)

theorem exists_pieces_of_scans (h : Scans t trivia rest) : ∃ pieces, ArePieces rest pieces ∧
    t = triviaText pieces ++ rest ∧ trivia = notesOf pieces ∧ NoTrivia rest := by
  induction h with
  | @stop t stops =>
      rcases noTrivia_or_exists_piece t with none | ⟨piece, u, stands, rfl⟩
      · exact ⟨[], trivial, rfl, rfl, none⟩
      · rw [triviaStep_of_standsBefore stands] at stops
        cases stops
  | @step t u rest found more step _ ih =>
      obtain ⟨pieces, arePieces, rfl, rfl, ends⟩ := ih
      rcases noTrivia_or_exists_piece t with none | ⟨piece, behind, stands, rfl⟩
      · rw [triviaStep_of_noTrivia none] at step
        cases step
      · rw [triviaStep_of_standsBefore stands] at step
        cases step
        exact ⟨piece :: pieces, ⟨stands, arePieces⟩, by simp, by simp, ends⟩

theorem scans_of_pieces (h : ArePieces rest pieces) (ends : NoTrivia rest) :
    Scans (triviaText pieces ++ rest) (notesOf pieces) rest := by
  induction pieces with
  | nil => exact .stop (triviaStep_of_noTrivia ends)
  | cons piece pieces ih =>
      obtain ⟨stands, arePieces⟩ := h
      rw [triviaText_cons, notesOf_cons, List.append_assoc]
      exact .step (triviaStep_of_standsBefore stands) (ih arePieces)

theorem splitAt?_blockComment (body behind : Text) :
    Text.splitAt? ((GapPiece.block body).text ++ behind) (Text.width body + 4) =
      some ((GapPiece.block body).text, behind) := by
  have slash : '/'.utf8Size = 1 := rfl
  have star : '*'.utf8Size = 1 := rfl
  refine Text.splitAt?_of_width ?_
  simp only [GapPiece.text, Text.width_cons, Text.width_append, Text.width_nil, slash, star]
  omega

theorem stepByOffset?_eq (t : Text) : stepByOffset? t = some (triviaStep t) := by
  rw [triviaStep.eq_def]
  split
  · rfl
  · next u =>
    have cut : Text.splitAt? (',' :: u) 1 = some ([','], u) := Text.splitAt?_of_width (s := [',']) rfl
    simp [stepByOffset?, Text.startsWith_cons_iff, cut]
  · next u =>
    have cut : Text.splitAt? ('\n' :: u) 1 = some (['\n'], u) := Text.splitAt?_of_width (s := ['\n']) rfl
    simp [stepByOffset?, Text.startsWith_cons_iff, cut]
  · next u =>
    have slash : ('/' != '\n') = true := by decide
    have cut := Text.splitAt?_width (('/' :: '/' :: u).takeWhile (· != '\n'))
      (('/' :: '/' :: u).dropWhile (· != '\n'))
    rw [List.takeWhile_append_dropWhile, ← Text.offsetOf?_getD] at cut
    rw [stepByOffset?, if_neg (by simp [Text.startsWith_cons_iff]),
      if_neg (by simp [Text.startsWith_cons_iff]), if_pos (by simp [Text.startsWith_cons_iff]), cut]
    simp [slash]
  · next u =>
    have opening : Text.splitAt? ('/' :: '*' :: u) 2 = some (['/', '*'], u) :=
      Text.splitAt?_of_width (s := ['/', '*']) rfl
    rw [blockComment?]
    cases found : Text.breakOn? ['*', '/'] u with
    | none => simp [stepByOffset?, Text.startsWith_cons_iff, Text.offsetOf?, opening, found]
    | some parts =>
        obtain ⟨body, behind⟩ := parts
        have closing := splitAt?_blockComment body behind
        obtain ⟨-, rfl⟩ := breakOn?_close_iff.1 found
        simp only [GapPiece.text, List.cons_append, List.append_assoc, List.nil_append] at closing
        simp [stepByOffset?, Text.startsWith_cons_iff, Text.offsetOf?, opening, found, closing]
  · next c u comma feed line block =>
    have cut : Text.splitAt? (c :: u) c.utf8Size = some ([c], u) := Text.splitAt?_of_width (s := [c]) rfl
    have noLine : ¬ Text.startsWith (c :: u) ['/', '/'] = true := fun h => by
      obtain ⟨slash, t, rest⟩ := Text.startsWith_cons_iff.1 h
      exact line t slash rest
    have noBlock : ¬ Text.startsWith (c :: u) ['/', '*'] = true := fun h => by
      obtain ⟨slash, t, rest⟩ := Text.startsWith_cons_iff.1 h
      exact block t slash rest
    rw [stepByOffset?, if_neg fun h => comma (Text.startsWith_cons_iff.1 h).1,
      if_neg fun h => feed (Text.startsWith_cons_iff.1 h).1, if_neg noLine, if_neg noBlock, cut]
    split <;> rfl

theorem scanByOffset?_eq (h : t.length < steps) : scanByOffset? steps t = some (scanTrivia t) := by
  induction steps generalizing t with
  | zero => cases h
  | succ steps ih =>
      rw [scanByOffset?, stepByOffset?_eq]
      cases step : triviaStep t with
      | none =>
          rw [scanTrivia_eq_iff.2 (.stop step)]
          rfl
      | some result =>
          obtain ⟨found, u⟩ := result
          have shorter := length_lt_of_triviaStep step
          rw [scanTrivia_eq_iff.2 (.step step (scans_scanTrivia u))]
          change ((scanByOffset? steps u).bind _) = _
          rw [ih (by omega)]
          rfl

/-- The scanner comes to an end on every gap, and no cut of it falls inside of a character. It takes a
list of pieces, of which it notes the commas, line feeds and comments in order, and leaves a rest at the
start of which no piece stands; no other notes and rest are of this kind. -/
theorem scanTrivia_exact (gap rest : Text) (trivia : List Trivia) :
    (∀ extra, scanByOffset? (gap.length + 1 + extra) gap = some (scanTrivia gap)) ∧
    (scanTrivia gap = (trivia, rest) ↔
      ∃ pieces, ArePieces rest pieces ∧ gap = triviaText pieces ++ rest ∧
        trivia = notesOf pieces ∧ NoTrivia rest) := by
  refine ⟨fun extra => scanByOffset?_eq (by omega), scanTrivia_eq_iff.trans ⟨?_, ?_⟩⟩
  · exact exists_pieces_of_scans
  · rintro ⟨pieces, arePieces, rfl, rfl, ends⟩
    exact scans_of_pieces arePieces ends

example : scanTrivia ", /*/ é */ // b \n\t/*/".toList =
    ([.comma, .comment "/*/ é */".toList, .comment "// b".toList, .newline], "/*/".toList) := by
  decide

end TidyImports.Import
