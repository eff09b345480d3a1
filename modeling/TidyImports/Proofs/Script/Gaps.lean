import TidyImports.Script.Scanner

/-! What lies between two tokens, as a list of pieces: blanks, line breaks and comments. The scanner
skips exactly the texts of such lists, so what it finds in a gap depends on nothing but the pieces:
the gap of one text may be put into another one. -/
namespace TidyImports.Script

/-- A blank or a line break, or a comment, given by what stands behind its opening. -/
inductive GapPiece
  | blank (c : Char)
  | line (body : Text)
  | block (body : Text)
  deriving DecidableEq, Repr

namespace GapPiece

def text : GapPiece → Text
  | .blank c => [c]
  | .line body => '/' :: '/' :: body
  | .block body => '/' :: '*' :: (body ++ ['*', '/'])

def isComment : GapPiece → Bool
  | .blank _ => false
  | _ => true

def breaks : GapPiece → Bool
  | .blank c => isLineBreak c
  | .line _ => false
  | .block body => body.any isLineBreak

end GapPiece

def gapText (pieces : List GapPiece) : Text := pieces.flatMap GapPiece.text

@[simp] theorem gapText_nil : gapText [] = [] := rfl

@[simp] theorem gapText_cons (piece : GapPiece) (pieces : List GapPiece) :
    gapText (piece :: pieces) = piece.text ++ gapText pieces := rfl

@[simp] theorem gapText_append (before behind : List GapPiece) :
    gapText (before ++ behind) = gapText before ++ gapText behind := List.flatMap_append

theorem GapPiece.text_ne_nil (piece : GapPiece) : piece.text ≠ [] := by
  cases piece <;> simp [GapPiece.text]

theorem gapText_eq_nil {pieces : List GapPiece} (h : gapText pieces = []) : pieces = [] := by
  cases pieces with
  | nil => rfl
  | cons piece pieces => exact absurd (List.append_eq_nil_iff.1 h).1 piece.text_ne_nil

def gapComments (offset : Nat) : List GapPiece → List Edit.Span
  | [] => []
  | piece :: pieces =>
    let rest := gapComments (offset + piece.text.width) pieces
    if piece.isComment then Edit.Span.ofBounds offset (offset + piece.text.width) :: rest else rest

def closesEarly (star : Bool) : Text → Bool
  | [] => false
  | c :: t => (star && c == '/') || closesEarly (c == '*') t

/-- A list of pieces is what is skipped before `rest`: a line comment goes on to the next line break,
or to the end of the text. -/
inductive IsGap (rest : Text) : List GapPiece → Prop
  | nil : IsGap rest []
  | blank {c : Char} {pieces : List GapPiece} (blank : (isLineBreak c || isGap c) = true)
    (more : IsGap rest pieces) : IsGap rest (.blank c :: pieces)
  | line {body : Text} {c : Char} {pieces : List GapPiece} (unbroken : body.any isLineBreak = false)
    (lineBreak : isLineBreak c = true) (more : IsGap rest pieces) :
    IsGap rest (.line body :: .blank c :: pieces)
  | last {body : Text} (unbroken : body.any isLineBreak = false) (atEnd : rest = []) :
    IsGap rest [.line body]
  | block {body : Text} {pieces : List GapPiece} (closes : closesEarly false body = false)
    (more : IsGap rest pieces) : IsGap rest (.block body :: pieces)

theorem IsGap.append {rest : Text} {before behind : List GapPiece}
    (h : IsGap (gapText behind ++ rest) before) (k : IsGap rest behind) : IsGap rest (before ++ behind) := by
  induction h with
  | nil => exact k
  | blank blank _ ih => exact .blank blank ih
  | line unbroken lineBreak _ ih => exact .line unbroken lineBreak ih
  | last unbroken atEnd =>
      obtain ⟨none, empty⟩ := List.append_eq_nil_iff.1 atEnd
      rw [gapText_eq_nil none]
      exact .last unbroken empty
  | block closes _ ih => exact .block closes ih

def NoGap (t : Text) : Prop :=
  ∀ offset lineBreak comments,
    skipGap .blank offset lineBreak comments t = some ⟨t, offset, lineBreak, comments⟩

variable {t rest : Text} {c : Char} {pieces : List GapPiece} {offset : Nat} {lineBreak : Bool}
  {comments : List Edit.Span} {gap : Gap}

theorem noGap_nil : NoGap [] := fun _ _ _ => rfl

theorem skipGap_blank_cons (offset : Nat) (lineBreak : Bool) (comments : List Edit.Span)
    (slash : c ≠ '/') (t : Text) :
    skipGap .blank offset lineBreak comments (c :: t) =
      if isLineBreak c then skipGap .blank (offset + c.utf8Size) true comments t
      else if isGap c then skipGap .blank (offset + c.utf8Size) lineBreak comments t
      else some ⟨c :: t, offset, lineBreak, comments⟩ := by
  rw [skipGap]
  · rintro _ rfl
    exact absurd rfl slash
  · rintro _ rfl
    exact absurd rfl slash

theorem noGap_cons (slash : c ≠ '/') (blank : (isLineBreak c || isGap c) = false) (t : Text) :
    NoGap (c :: t) := by
  intro offset lineBreak comments
  obtain ⟨noBreak, noGap⟩ := Bool.or_eq_false_iff.1 blank
  rw [skipGap_blank_cons _ _ _ slash, noBreak, noGap]
  simp

theorem NoGap.not_blank (h : NoGap (c :: t)) (slash : c ≠ '/') : (isLineBreak c || isGap c) = false := by
  have stays := h 0 false []
  rw [skipGap_blank_cons _ _ _ slash] at stays
  -- A blank that is passed moves the offset.
  have size := c.utf8Size_pos
  rw [Bool.or_eq_false_iff]
  split at stays
  · have moved : 0 + c.utf8Size ≤ 0 := (skipGap_comments stays (.inl rfl)).1
    omega
  · split at stays
    · have moved : 0 + c.utf8Size ≤ 0 := (skipGap_comments stays (.inl rfl)).1
      omega
    · next noBreak noGap => exact ⟨eq_false_of_ne_true noBreak, eq_false_of_ne_true noGap⟩

theorem NoGap.cons (h : NoGap (c :: t)) (slash : c ≠ '/') (u : Text) : NoGap (c :: u) :=
  noGap_cons slash (h.not_blank slash) u

theorem skipGap_line {body : Text} (unbroken : body.any isLineBreak = false) (start offset : Nat)
    (t : Text) :
    skipGap (.lineComment start) offset lineBreak comments (body ++ t) =
      skipGap (.lineComment start) (offset + body.width) lineBreak comments t := by
  induction body generalizing offset with
  | nil => rfl
  | cons d body ih =>
      obtain ⟨first, others⟩ := by simpa only [List.any_cons, Bool.or_eq_false_iff] using unbroken
      rw [List.cons_append, skipGap, first]
      simp only [Bool.false_eq_true, if_false]
      rw [ih others, Text.width_cons, Nat.add_assoc]

theorem skipGap_block {body : Text} {star : Bool} (closes : closesEarly star body = false)
    (start : Nat) :
    skipGap (.blockComment start star) offset lineBreak comments (body ++ '*' :: '/' :: t) =
      skipGap .blank (offset + body.width + 2) (lineBreak || body.any isLineBreak)
        (Edit.Span.ofBounds start (offset + body.width + 2) :: comments) t := by
  induction body generalizing star offset lineBreak with
  | nil =>
      have noBreak : isLineBreak '*' = false := by decide
      have starSize : ('*' : Char).utf8Size = 1 := rfl
      simp [skipGap, noBreak, starSize, Nat.add_assoc]
  | cons d body ih =>
      obtain ⟨first, others⟩ := Bool.or_eq_false_iff.1 closes
      rw [List.cons_append, skipGap, first]
      simp only [Bool.false_eq_true, if_false]
      rw [ih others, Text.width_cons, List.any_cons, Bool.or_assoc, Nat.add_assoc offset]

/-- The pieces of a gap are skipped, and nothing else is. -/
theorem skipGap_gapText (h : IsGap rest pieces) (stop : NoGap rest) (offset : Nat)
    (lineBreak : Bool) (comments : List Edit.Span) :
    skipGap .blank offset lineBreak comments (gapText pieces ++ rest) =
      some ⟨rest, offset + (gapText pieces).width, lineBreak || pieces.any GapPiece.breaks,
        (gapComments offset pieces).reverse ++ comments⟩ := by
  induction h generalizing offset lineBreak comments with
  | nil => simpa [gapComments] using stop offset lineBreak comments
  | @blank c pieces blank more ih =>
      have slash : c ≠ '/' := by
        rintro rfl
        exact absurd blank (by decide)
      simp only [gapText_cons, GapPiece.text, List.cons_append, List.nil_append]
      rw [skipGap_blank_cons _ _ _ slash]
      split
      · next broken => rw [ih]; simp [gapComments, GapPiece.isComment, GapPiece.breaks, broken,
          GapPiece.text, Nat.add_assoc]
      · next unbroken =>
        rw [if_pos (by simpa [unbroken] using blank), ih]
        simp [gapComments, GapPiece.isComment, GapPiece.breaks, unbroken, GapPiece.text,
          Nat.add_assoc]
  | @line body c pieces unbroken broken more ih =>
      have size : ('/' : Char).utf8Size = 1 := rfl
      have width : offset + 2 + body.width = offset + (1 + (1 + body.width)) := by omega
      simp only [gapText_cons, GapPiece.text, List.cons_append, List.nil_append, List.append_assoc]
      rw [skipGap, skipGap_line unbroken, skipGap, broken, if_pos rfl, ih, width]
      simp [gapComments, GapPiece.isComment, GapPiece.breaks, broken, GapPiece.text, size,
        Text.width_append, Nat.add_assoc]
  | @last body unbroken atEnd =>
      subst atEnd
      have size : ('/' : Char).utf8Size = 1 := rfl
      have width : offset + 2 + body.width = offset + (1 + (1 + body.width)) := by omega
      simp only [gapText_cons, gapText_nil, GapPiece.text, List.append_nil]
      rw [skipGap, ← List.append_nil body, skipGap_line unbroken, skipGap, width]
      simp [gapComments, GapPiece.isComment, GapPiece.breaks, GapPiece.text, size]
  | @block body pieces closes more ih =>
      have size : ('/' : Char).utf8Size = 1 ∧ ('*' : Char).utf8Size = 1 := ⟨rfl, rfl⟩
      have width : offset + 2 + body.width + 2 = offset + (1 + (1 + (body.width + (1 + 1)))) := by
        omega
      simp only [gapText_cons, GapPiece.text, List.cons_append, List.nil_append, List.append_assoc]
      rw [skipGap, skipGap_block closes, ih, width]
      simp only [gapComments, GapPiece.isComment, GapPiece.breaks, GapPiece.text, size,
        Text.width_append, Text.width_cons, Text.width_nil, if_true, List.any_cons,
        List.reverse_cons, List.append_assoc, List.singleton_append, Bool.or_assoc, Nat.add_assoc,
        Nat.add_zero]

def GapState.Leaves (state : GapState) (t rest : Text) : Prop :=
  match state with
  | .blank => ∃ pieces, IsGap rest pieces ∧ t = gapText pieces ++ rest
  | .lineComment _ => ∃ body pieces, IsGap rest (.line body :: pieces) ∧
      t = body ++ gapText pieces ++ rest
  | .blockComment _ star => ∃ pieces, IsGap rest pieces ∧
      (star = true ∧ t = '/' :: (gapText pieces ++ rest) ∨
        ∃ body, closesEarly star body = false ∧ t = body ++ '*' :: '/' :: (gapText pieces ++ rest))

theorem skipGap_leaves {state : GapState}
    (h : skipGap state offset lineBreak comments t = some gap) :
    state.Leaves t gap.rest ∧ NoGap gap.rest := by
  fun_induction skipGap state offset lineBreak comments t with
  | case1 =>
    cases h
    exact ⟨⟨[], .nil, rfl⟩, noGap_nil⟩
  | case2 =>
    cases h
    exact ⟨⟨[], [], .last rfl rfl, rfl⟩, noGap_nil⟩
  | case3 => cases h
  | case4 _ _ _ t ih =>
    obtain ⟨⟨body, pieces, isGap, rfl⟩, stop⟩ := ih h
    exact ⟨⟨.line body :: pieces, isGap, by simp [GapPiece.text]⟩, stop⟩
  | case5 _ _ _ t ih =>
    obtain ⟨⟨pieces, isGap, ended | ⟨body, closes, rfl⟩⟩, stop⟩ := ih h
    · exact absurd ended.1 Bool.false_ne_true
    · exact ⟨⟨.block body :: pieces, .block closes isGap, by simp [GapPiece.text]⟩, stop⟩
  | case6 offset lineBreak comments c t _ _ broken ih =>
    obtain ⟨⟨pieces, isGap, rfl⟩, stop⟩ := ih h
    exact ⟨⟨.blank c :: pieces, .blank (by simp [broken]) isGap, rfl⟩, stop⟩
  | case7 offset lineBreak comments c t _ _ unbroken blank ih =>
    obtain ⟨⟨pieces, isGap, rfl⟩, stop⟩ := ih h
    exact ⟨⟨.blank c :: pieces, .blank (by simp [blank]) isGap, rfl⟩, stop⟩
  | case8 offset lineBreak comments c t notLine notBlock unbroken notBlank =>
    cases h
    refine ⟨⟨[], .nil, rfl⟩, fun offset lineBreak comments => ?_⟩
    rw [skipGap, if_neg unbroken, if_neg notBlank]
    · exact notLine
    · exact notBlock
  | case9 start offset lineBreak comments c t broken ih =>
    obtain ⟨⟨pieces, isGap, rfl⟩, stop⟩ := ih h
    exact ⟨⟨[], .blank c :: pieces, .line rfl broken isGap, rfl⟩, stop⟩
  | case10 start offset lineBreak comments c t unbroken ih =>
    obtain ⟨⟨body, pieces, isGap, rfl⟩, stop⟩ := ih h
    refine ⟨⟨c :: body, pieces, ?_, rfl⟩, stop⟩
    have first : isLineBreak c = false := eq_false_of_ne_true unbroken
    cases isGap with
    | line unbroken lineBreak more => exact .line (by simp [first, unbroken]) lineBreak more
    | last unbroken atEnd => exact .last (by simp [first, unbroken]) atEnd
  | case11 start star offset lineBreak comments c t closes ih =>
    obtain ⟨⟨pieces, isGap, rfl⟩, stop⟩ := ih h
    obtain ⟨starred, slash⟩ := Bool.and_eq_true_iff.1 closes
    exact ⟨⟨pieces, isGap, .inl ⟨starred, by rw [beq_iff_eq.1 slash]⟩⟩, stop⟩
  | case12 start star offset lineBreak comments c t goesOn ih =>
    obtain ⟨⟨pieces, isGap, ⟨star, rfl⟩ | ⟨body, closes, rfl⟩⟩, stop⟩ := ih h
    · exact ⟨⟨pieces, isGap, .inr ⟨[], rfl, by rw [beq_iff_eq.1 star]; rfl⟩⟩, stop⟩
    · refine ⟨⟨pieces, isGap, .inr ⟨c :: body, ?_, rfl⟩⟩, stop⟩
      rw [closesEarly, closes, Bool.or_false]
      exact eq_false_of_ne_true goesOn

theorem exists_pieces (h : skipGap .blank offset lineBreak comments t = some gap) :
    ∃ pieces, IsGap gap.rest pieces ∧ t = gapText pieces ++ gap.rest ∧ NoGap gap.rest ∧
      gap.offset = offset + (gapText pieces).width ∧
      gap.lineBreak = (lineBreak || pieces.any GapPiece.breaks) ∧
      gap.comments = (gapComments offset pieces).reverse ++ comments := by
  obtain ⟨⟨pieces, isGap, rfl⟩, stop⟩ := skipGap_leaves h
  have skipped := (skipGap_gapText isGap stop _ _ _).symm.trans h
  obtain ⟨rest, _, _, _⟩ := gap
  cases skipped
  exact ⟨pieces, isGap, rfl, stop, rfl, rfl, rfl⟩

end TidyImports.Script
