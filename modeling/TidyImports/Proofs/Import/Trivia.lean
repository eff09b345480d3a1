import Mathlib.Data.List.DropRight
import TidyImports.Import.Comments
import TidyImports.Proofs.Script.Gaps

/-! Scanning gaps for the second time. What stands between specifiers is scanned step by step; where each
line comment ends at a line feed, a gap is scanned piece by piece, and the scanner finds the comments
of the gap. The comments that it finds are well formed, wherever it finds them. -/
namespace TidyImports.Import

open Script

variable {t u r rest : Text} {found : Option Trivia} {trivia more : List Trivia}
  {pieces : List GapPiece} {body : Text} {c : Char}

/-- A text is scanned step by step, until no step can be made. -/
inductive Scans : Text → List Trivia → Text → Prop
  | stop {t : Text} (h : triviaStep t = none) : Scans t [] t
  | step {t u r : Text} {found : Option Trivia} {more : List Trivia}
    (h : triviaStep t = some (found, u)) (hmore : Scans u more r) :
    Scans t (found.toList ++ more) r

/-- A comment as the scanner finds it: a line without the blanks at its end, or a block. -/
inductive IsComment : Text → Prop
  | line {body : Text} (unbroken : '\n' ∉ body)
    (trimmed : Text.trimEnd ('/' :: '/' :: body) = '/' :: '/' :: body) : IsComment ('/' :: '/' :: body)
  | block {body : Text} (closes : closesEarly false body = false) :
    IsComment ('/' :: '*' :: (body ++ ['*', '/']))

def triviaAt : GapPiece → Option Trivia
  | .blank c => if c = '\n' then some .newline else none
  | piece => some (.comment (Text.trimEnd piece.text))

def triviaOf (pieces : List GapPiece) : List Trivia := pieces.filterMap triviaAt

def commentsIn (trivia : List Trivia) : List Text :=
  trivia.filterMap fun
    | .comment text => some text
    | _ => none

def EndsLine (t : Text) : Prop := ∃ u, t = '\n' :: u ∨ t = '\r' :: '\n' :: u

def LinesEnd : List GapPiece → Prop
  | [] => True
  | .line _ :: pieces => EndsLine (gapText pieces) ∧ LinesEnd pieces
  | _ :: pieces => LinesEnd pieces

def AllBlank (pieces : List GapPiece) : Prop := ∀ c, .blank c ∈ pieces → Text.isBlank c = true

theorem trimEnd_append_cons {s : Text} (h : Text.isBlank c = false) (t : Text) :
    Text.trimEnd (s ++ c :: t) = s ++ c :: Text.trimEnd t := by
  have last : (s ++ c :: t).reverse = t.reverse ++ (c :: s.reverse) := by simp
  rw [Text.trimEnd, last, List.dropWhile_append]
  split
  · next empty =>
    rw [List.dropWhile_cons_of_neg (by simp [h]), Text.trimEnd, List.isEmpty_iff.1 empty]
    simp
  · simp [Text.trimEnd]

theorem trimEnd_trimEnd (t : Text) : Text.trimEnd (Text.trimEnd t) = Text.trimEnd t := by
  rw [Text.trimEnd, Text.trimEnd, List.reverse_reverse, List.dropWhile_idempotent]

theorem trimEnd_isPrefix (t : Text) : Text.trimEnd t <+: t := by
  have kept := (List.dropWhile_suffix (l := t.reverse) Text.isBlank)
  rw [← List.reverse_prefix] at kept
  rwa [List.reverse_reverse] at kept

theorem closesEarly_star (star : Bool) (closes : closesEarly false body = false)
    (slash : star = true → body.head? ≠ some '/') : closesEarly star body = false := by
  cases body with
  | nil => rfl
  | cons c body =>
      obtain ⟨-, later⟩ := Bool.or_eq_false_iff.1 closes
      rw [closesEarly, later, Bool.or_false, Bool.and_eq_false_imp]
      exact fun h => by simpa using slash h

theorem breakOn?_close_iff :
    Text.breakOn? ['*', '/'] t = some (body, u) ↔
      closesEarly false body = false ∧ t = body ++ '*' :: '/' :: u := by
  constructor
  · intro h
    induction t generalizing body with
    | nil => cases h
    | cons c t ih =>
        rw [Text.breakOn?] at h
        split at h
        · next r opens =>
          cases h
          have whole := Text.stripHead?_eq_some.1 opens
          exact ⟨rfl, whole⟩
        · next goesOn =>
          obtain ⟨⟨s, _⟩, hs, same⟩ := Option.map_eq_some_iff.1 h
          cases same
          obtain ⟨closes, rfl⟩ := ih hs
          refine ⟨closesEarly_star (c == '*') closes fun star slash => ?_, rfl⟩
          rw [beq_iff_eq.1 star] at goesOn
          cases s with
          | nil => cases slash
          | cons d s =>
              cases slash
              simp [Text.stripHead?] at goesOn
  · rintro ⟨closes, rfl⟩
    have general {body : Text} (star : Bool) (closes : closesEarly star body = false) :
        Text.breakOn? ['*', '/'] (body ++ '*' :: '/' :: u) = some (body, u) := by
      induction body generalizing star with
      | nil => simp [Text.breakOn?, Text.stripHead?]
      | cons c body ih =>
          obtain ⟨-, later⟩ := Bool.or_eq_false_iff.1 closes
          have goesOn : Text.stripHead? ['*', '/'] (c :: (body ++ '*' :: '/' :: u)) = none := by
            by_contra ends
            obtain ⟨r, hr⟩ := Option.ne_none_iff_exists'.1 ends
            have same := Text.stripHead?_eq_some.1 hr
            cases body <;> simp_all [closesEarly]
          rw [List.cons_append, Text.breakOn?, goesOn, ih _ later]
          rfl
    exact general false closes

theorem exists_of_triviaStep (h : triviaStep t = some (found, u)) :
    ∃ piece : Text, t = piece ++ u ∧ piece ≠ [] ∧ ∀ comment, found = some (.comment comment) →
      IsComment comment := by
  unfold triviaStep at h
  split at h
  · cases h
  · cases h
    exact ⟨[','], rfl, by simp, by simp⟩
  · cases h
    exact ⟨['\n'], rfl, by simp, by simp⟩
  · next t =>
    cases h
    refine ⟨'/' :: '/' :: t.takeWhile (· != '\n'), by simp, by simp, ?_⟩
    rintro comment ⟨⟩
    have opens := trimEnd_append_cons (s := ['/']) (c := '/') (by decide) (t.takeWhile (· != '\n'))
    have trimmed := trimEnd_trimEnd ('/' :: '/' :: t.takeWhile (· != '\n'))
    rw [List.singleton_append] at opens
    rw [opens] at trimmed ⊢
    refine .line (fun feed => ?_) trimmed
    have inside := List.mem_takeWhile_imp ((trimEnd_isPrefix _).subset feed)
    simp at inside
  · next t =>
    obtain ⟨⟨comment, _⟩, hcomment, same⟩ := Option.map_eq_some_iff.1 h
    cases same
    obtain ⟨⟨body, _⟩, hbody, same⟩ := Option.map_eq_some_iff.1 hcomment
    cases same
    obtain ⟨closes, rfl⟩ := breakOn?_close_iff.1 hbody
    refine ⟨'/' :: '*' :: (body ++ ['*', '/']), by simp, by simp, ?_⟩
    rintro comment ⟨⟩
    exact .block closes
  · next c t _ _ _ _ =>
    split at h
    · cases h
      exact ⟨[c], rfl, by simp, by simp⟩
    · cases h

theorem length_lt_of_triviaStep (h : triviaStep t = some (found, u)) : u.length < t.length := by
  obtain ⟨piece, rfl, inhabited, -⟩ := exists_of_triviaStep h
  have := List.length_pos_of_ne_nil inhabited
  simp only [List.length_append]
  omega

theorem scans_triviaFrom {bound : Nat} (h : t.length ≤ bound) :
    Scans t (triviaFrom bound t).1 (triviaFrom bound t).2 := by
  induction bound generalizing t with
  | zero =>
      obtain rfl := List.eq_nil_of_length_eq_zero (Nat.le_zero.1 h)
      exact .stop rfl
  | succ bound ih =>
      rw [triviaFrom]
      split
      · next stops => exact .stop stops
      · next found u step =>
        have shorter := length_lt_of_triviaStep step
        exact .step step (ih (by omega))

theorem scans_scanTrivia (t : Text) : Scans t (scanTrivia t).1 (scanTrivia t).2 :=
  scans_triviaFrom (Nat.le_refl _)

theorem scans_iff_of_step (h : triviaStep t = some (found, u)) :
    Scans t trivia r ↔ ∃ more, trivia = found.toList ++ more ∧ Scans u more r := by
  constructor
  · rintro (stops | ⟨step, hmore⟩)
    · rw [stops] at h
      cases h
    · rw [h] at step
      cases step
      exact ⟨_, rfl, hmore⟩
  · rintro ⟨more, rfl, hmore⟩
    exact .step h hmore

theorem scans_iff_of_stop (h : triviaStep t = none) : Scans t trivia r ↔ trivia = [] ∧ r = t := by
  constructor
  · rintro (- | ⟨step, -⟩)
    · exact ⟨rfl, rfl⟩
    · rw [h] at step
      cases step
  · rintro ⟨rfl, rfl⟩
    exact .stop h

theorem Scans.unique (h : Scans t trivia r) (k : Scans t more u) : trivia = more ∧ r = u := by
  induction h generalizing more with
  | stop stops =>
      obtain ⟨rfl, rfl⟩ := (scans_iff_of_stop stops).1 k
      exact ⟨rfl, rfl⟩
  | step step _ ih =>
      obtain ⟨others, rfl, behind⟩ := (scans_iff_of_step step).1 k
      obtain ⟨rfl, rfl⟩ := ih behind
      exact ⟨rfl, rfl⟩

theorem scanTrivia_eq_iff : scanTrivia t = (trivia, r) ↔ Scans t trivia r := by
  constructor
  · intro h
    have scan := scans_scanTrivia t
    rwa [h] at scan
  · intro h
    obtain ⟨first, second⟩ := (scans_scanTrivia t).unique h
    exact Prod.ext first second

theorem triviaStep_blank (h : Text.isBlank c = true) (u : Text) :
    triviaStep (c :: u) = some (triviaAt (.blank c), u) := by
  by_cases feed : c = '\n'
  · subst feed
    rfl
  · have comma : c ≠ ',' := by rintro rfl; exact absurd h (by decide)
    have slash : c ≠ '/' := by rintro rfl; exact absurd h (by decide)
    rw [triviaStep.eq_def]
    split <;> simp_all [triviaAt]

theorem triviaStep_stuck (gap : (isLineBreak c || isGap c) = true) (h : Text.isBlank c = false)
    (u : Text) : triviaStep (c :: u) = none := by
  have comma : c ≠ ',' := by rintro rfl; exact absurd gap (by decide)
  have slash : c ≠ '/' := by rintro rfl; exact absurd gap (by decide)
  have feed : c ≠ '\n' := by rintro rfl; exact absurd h (by decide)
  rw [triviaStep.eq_def]
  split <;> simp_all

theorem triviaStep_slashStar (t : Text) : triviaStep ('/' :: '*' :: t) =
    (blockComment? t).map fun (comment, rest) => (some (.comment comment), rest) := rfl

theorem triviaStep_slashSlash (t : Text) : triviaStep ('/' :: '/' :: t) =
    some (some (.comment (Text.trimEnd ('/' :: '/' :: t.takeWhile (· != '\n')))),
      t.dropWhile (· != '\n')) := rfl

theorem triviaStep_block (closes : closesEarly false body = false) (u : Text) :
    triviaStep ((GapPiece.block body).text ++ u) = some (triviaAt (.block body), u) := by
  have whole : Text.breakOn? ['*', '/'] (body ++ '*' :: '/' :: u) = some (body, u) :=
    breakOn?_close_iff.2 ⟨closes, rfl⟩
  have trimmed := trimEnd_append_cons (s := '/' :: '*' :: (body ++ ['*'])) (c := '/') (by decide) []
  simp only [List.cons_append, List.append_assoc, List.nil_append] at trimmed
  simp only [GapPiece.text, List.cons_append, List.append_assoc, List.nil_append,
    triviaStep_slashStar, blockComment?, whole, triviaAt, trimmed]
  rfl

theorem feed_not_mem (unbroken : body.any isLineBreak = false) : ∀ c ∈ body, (c != '\n') = true := by
  intro c hc
  have inside := List.any_eq_false.1 unbroken c hc
  rw [bne_iff_ne]
  rintro rfl
  exact inside (by decide)

theorem triviaStep_line (unbroken : body.any isLineBreak = false) (u : Text) :
    triviaStep ((GapPiece.line body).text ++ '\n' :: u) =
      some (triviaAt (.line body), '\n' :: u) := by
  have all := feed_not_mem unbroken
  simp only [GapPiece.text, List.cons_append, triviaStep_slashSlash, List.takeWhile_append_of_pos all,
    List.dropWhile_append_of_pos all, triviaAt]
  simp

theorem triviaStep_line_return (unbroken : body.any isLineBreak = false) (u : Text) :
    triviaStep ((GapPiece.line body).text ++ '\r' :: '\n' :: u) =
      some (triviaAt (.line body), '\n' :: u) := by
  have all := feed_not_mem unbroken
  have trimmed : Text.trimEnd ('/' :: '/' :: (body ++ ['\r'])) = Text.trimEnd ('/' :: '/' :: body) := by
    have blank : Text.isBlank '\r' = true := by decide
    simp [Text.trimEnd, blank]
  simp only [GapPiece.text, List.cons_append, triviaStep_slashSlash, List.takeWhile_append_of_pos all,
    List.dropWhile_append_of_pos all, triviaAt]
  simp [trimmed]

theorem AllBlank.tail {piece : GapPiece} (h : AllBlank (piece :: pieces)) : AllBlank pieces :=
  fun c hc => h c (List.mem_cons_of_mem _ hc)

theorem triviaOf_append (before behind : List GapPiece) :
    triviaOf (before ++ behind) = triviaOf before ++ triviaOf behind := List.filterMap_append

theorem scans_piece_iff {piece : GapPiece} (step : triviaStep t = some (triviaAt piece, u)) :
    Scans t trivia r ↔ ∃ more, trivia = triviaOf [piece] ++ more ∧ Scans u more r := by
  have alone : triviaOf [piece] = (triviaAt piece).toList := by
    rw [triviaOf, List.filterMap_cons]
    cases triviaAt piece <;> rfl
  rw [scans_iff_of_step step, alone]

theorem scans_line_iff (unbroken : body.any isLineBreak = false) (ends : EndsLine (c :: u)) :
    Scans ((GapPiece.line body).text ++ c :: u) trivia r ↔
      ∃ more, trivia = triviaOf [.line body, .blank c] ++ more ∧ Scans u more r := by
  obtain ⟨v, ends | ends⟩ := ends
  · obtain ⟨rfl, rfl⟩ := List.cons.inj ends
    simp only [scans_piece_iff (triviaStep_line unbroken u),
      scans_piece_iff (triviaStep_blank (c := '\n') (by decide) u)]
    constructor
    · rintro ⟨_, rfl, more, rfl, behind⟩
      exact ⟨more, rfl, behind⟩
    · rintro ⟨more, rfl, behind⟩
      exact ⟨_, rfl, more, rfl, behind⟩
  · obtain ⟨rfl, rfl⟩ := List.cons.inj ends
    exact scans_piece_iff (triviaStep_line_return unbroken v)

theorem EndsLine.append (h : EndsLine t) (u : Text) : EndsLine (t ++ u) := by
  obtain ⟨v, rfl | rfl⟩ := h
  · exact ⟨v ++ u, .inl rfl⟩
  · exact ⟨v ++ u, .inr rfl⟩

theorem not_endsLine_nil : ¬EndsLine [] := by
  rintro ⟨v, h | h⟩ <;> cases h

theorem scans_gapText_iff (gap : IsGap rest pieces) (blank : AllBlank pieces)
    (lines : LinesEnd pieces) : Scans (gapText pieces ++ rest) trivia r ↔
      ∃ more, trivia = triviaOf pieces ++ more ∧ Scans rest more r := by
  have step {first pieces : List GapPiece} {t : Text} {trivia : List Trivia}
      (h : Scans t trivia r ↔
        ∃ more, trivia = triviaOf first ++ more ∧ Scans (gapText pieces ++ rest) more r)
      (others : ∀ {trivia}, Scans (gapText pieces ++ rest) trivia r ↔
        ∃ more, trivia = triviaOf pieces ++ more ∧ Scans rest more r) :
      Scans t trivia r ↔ ∃ more, trivia = triviaOf (first ++ pieces) ++ more ∧ Scans rest more r := by
    simp only [h, others, triviaOf_append, List.append_assoc]
    constructor
    · rintro ⟨_, rfl, more, rfl, behind⟩
      exact ⟨more, rfl, behind⟩
    · rintro ⟨more, rfl, behind⟩
      exact ⟨_, rfl, more, rfl, behind⟩
  induction gap generalizing trivia with
  | nil => simp [triviaOf]
  | @blank c _ _ _ ih =>
      have own := blank c List.mem_cons_self
      exact step (scans_piece_iff (triviaStep_blank own _)) (ih blank.tail lines)
  | line unbroken _ _ ih =>
      rw [gapText_cons, List.append_assoc]
      exact step (scans_line_iff unbroken (lines.1.append rest)) (ih blank.tail.tail lines.2)
  | last => exact absurd lines.1 not_endsLine_nil
  | block closes _ ih =>
      rw [gapText_cons, List.append_assoc]
      exact step (scans_piece_iff (triviaStep_block closes _)) (ih blank.tail lines)

theorem allBlank_of_scans (gap : IsGap rest pieces) (lines : LinesEnd pieces)
    (scan : Scans (gapText pieces ++ rest) trivia r) (fits : ∀ c ∈ r.head?, c = '\x7d') :
    AllBlank pieces := by
  have cons {piece : GapPiece} {pieces : List GapPiece} (others : AllBlank pieces)
      (own : ∀ c, piece = .blank c → Text.isBlank c = true) : AllBlank (piece :: pieces) := by
    intro c hc
    rcases List.mem_cons.1 hc with rfl | hc
    · exact own c rfl
    · exact others c hc
  induction gap generalizing trivia with
  | nil => exact fun c hc => by cases hc
  | @blank c pieces gap _ ih =>
      have isBlank : Text.isBlank c = true := by
        by_contra stuck
        obtain ⟨-, rfl⟩ :=
          (scans_iff_of_stop (triviaStep_stuck gap (eq_false_of_ne_true stuck) _)).1 scan
        rw [fits c rfl] at gap
        exact absurd gap (by decide)
      obtain ⟨_, -, behind⟩ := (scans_piece_iff (triviaStep_blank isBlank _)).1 scan
      exact cons (ih lines behind) (by rintro _ ⟨⟩; exact isBlank)
  | @line body c pieces unbroken lineBreak more ih =>
      rw [gapText_cons, List.append_assoc] at scan
      obtain ⟨_, -, behind⟩ := (scans_line_iff unbroken (lines.1.append rest)).1 scan
      have isBlank : Text.isBlank c = true := by
        simp only [isLineBreak, Bool.or_eq_true, beq_iff_eq] at lineBreak
        rcases lineBreak with ((rfl | rfl) | rfl) | rfl <;> decide
      exact cons (cons (ih lines.2 behind) (by rintro _ ⟨⟩; exact isBlank)) (by simp)
  | last => exact absurd lines.1 not_endsLine_nil
  | @block body pieces closes _ ih =>
      rw [gapText_cons, List.append_assoc] at scan
      obtain ⟨_, -, behind⟩ := (scans_piece_iff (triviaStep_block closes _)).1 scan
      exact cons (ih lines behind) (by simp)

theorem divideGap_comments {seenComma nextLine : Bool} {gap : GapComments}
    (h : divideGap seenComma nextLine trivia = some gap) :
    gap.trailing ++ gap.leading = commentsIn trivia ∧ (nextLine = true → gap.trailing = []) := by
  fun_induction divideGap seenComma nextLine trivia generalizing gap with
  | case1 =>
    cases h
    simp [commentsIn]
  | case2 => cases h
  | case3 _ _ _ _ ih => exact ih h
  | case4 seenComma nextLine rest ih =>
    obtain ⟨whole, none⟩ := ih h
    exact ⟨whole, fun next => none (by simp [next])⟩
  | case5 seenComma nextLine text rest ih =>
    obtain ⟨inner, found, rfl⟩ := Option.map_eq_some_iff.1 h
    obtain ⟨whole, none⟩ := ih found
    have comments : commentsIn (.comment text :: rest) = text :: commentsIn rest := rfl
    rw [comments, ← whole]
    cases nextLine with
    | true => simp [none rfl]
    | false => simp

theorem Scans.isComment (h : Scans t trivia r) : ∀ comment ∈ commentsIn trivia, IsComment comment := by
  induction h with
  | stop => simp [commentsIn]
  | @step t u r found more step _ ih =>
      intro comment hcomment
      rw [commentsIn, List.filterMap_append] at hcomment
      rcases List.mem_append.1 hcomment with own | later
      · obtain ⟨_, -, _, noted⟩ := exists_of_triviaStep step
        refine noted comment ?_
        rcases found with _ | _ | _ | text <;> simp_all
      · exact ih comment later

end TidyImports.Import
