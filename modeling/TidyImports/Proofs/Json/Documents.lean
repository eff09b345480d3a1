import TidyImports.Json.Value
import TidyImports.Proofs.Json.TrailingCommas

/-! Documents with comments and trailing commas. A document is a list of tokens with gaps between them;
the reduction keeps the tokens but the trailing commas, and leaves only the blanks of the gaps and the
line feeds of their comments. -/
namespace TidyImports.Json

variable {c : Char} {t front body gap : Text} {loose plain toks rest : List Text}

/-- What stands between the quotes of a string literal, and its code units. -/
inductive IsBody : Text → List Nat → Prop
  | nil : IsBody [] []
  | plain {c : Char} {body : Text} {units : List Nat} (unquoted : c ≠ '"') (unescaped : c ≠ '\\')
    (printable : ¬c.toNat < 0x20) (rest : IsBody body units) : IsBody (c :: body) (c.toNat :: units)
  | short {e d : Char} {body : Text} {units : List Nat} (means : shortEscape? e = some d)
    (rest : IsBody body units) : IsBody ('\\' :: e :: body) (d.toNat :: units)
  | unit {digits body : Text} {unit : Nat} {units : List Nat}
    (means : codeUnit? digits = some (unit, [])) (rest : IsBody body units) :
    IsBody ('\\' :: 'u' :: (digits ++ body)) (unit :: units)

def quoted (body : Text) : Text := '"' :: (body ++ ['"'])

def IsDigits (t : Text) : Prop := t ≠ [] ∧ ∀ c ∈ t, c.isDigit

/-- The whole part of a number: a zero, or digits that do not start with one. -/
inductive IsWhole : Text → Prop
  | zero : IsWhole ['0']
  | digits {c : Char} {more : Text} (nonzero : c ≠ '0') (h : IsDigits (c :: more)) :
    IsWhole (c :: more)

inductive IsFraction : Text → Prop
  | none : IsFraction []
  | point {digits : Text} (h : IsDigits digits) : IsFraction ('.' :: digits)

inductive IsExponent : Text → Prop
  | none : IsExponent []
  | unsigned {c : Char} {digits : Text} (letter : c = 'e' ∨ c = 'E') (h : IsDigits digits) :
    IsExponent (c :: digits)
  | signed {c s : Char} {digits : Text} (letter : c = 'e' ∨ c = 'E') (sign : s = '+' ∨ s = '-')
    (h : IsDigits digits) : IsExponent (c :: s :: digits)

inductive IsUnsigned : Text → Prop
  | parts {whole fraction exponent : Text} (hwhole : IsWhole whole) (hfraction : IsFraction fraction)
    (hexponent : IsExponent exponent) : IsUnsigned (whole ++ fraction ++ exponent)

inductive IsNumber : Text → Prop
  | unsigned {s : Text} (h : IsUnsigned s) : IsNumber s
  | negative {s : Text} (h : IsUnsigned s) : IsNumber ('-' :: s)

/-- A part of a document: a value, or the items of an array or the fields of an object, of which there is
at least one. -/
inductive Part
  | value (v : Json)
  | items (vs : List Json)
  | fields (fs : List (Option Text × Json))

def IsExtra (extra : List Text) : Prop := extra = [] ∨ extra = [[',']]

/-- The tokens of a part, with trailing commas and without them. -/
inductive Written : Part → (loose plain : List Text) → Prop
  | null : Written (.value .null) ["null".toList] ["null".toList]
  | yes : Written (.value (.bool true)) ["true".toList] ["true".toList]
  | no : Written (.value (.bool false)) ["false".toList] ["false".toList]
  | number {s : Text} (h : IsNumber s) : Written (.value (.number s)) [s] [s]
  | string {body : Text} {units : List Nat} (h : IsBody body units) :
    Written (.value (.string (textOfUnits units))) [quoted body] [quoted body]
  | noItems : Written (.value (.array [])) [['['], [']']] [['['], [']']]
  | array {vs : List Json} {loose plain extra : List Text} (h : Written (.items vs) loose plain)
    (hextra : IsExtra extra) : Written (.value (.array vs)) (['['] :: (loose ++ (extra ++ [[']']])))
      (['['] :: (plain ++ [[']']]))
  | noFields : Written (.value (.object [])) [['\x7b'], ['\x7d']] [['\x7b'], ['\x7d']]
  | object {fs : List (Option Text × Json)} {loose plain extra : List Text}
    (h : Written (.fields fs) loose plain) (hextra : IsExtra extra) :
    Written (.value (.object fs)) (['\x7b'] :: (loose ++ (extra ++ [['\x7d']])))
      (['\x7b'] :: (plain ++ [['\x7d']]))
  | item {v : Json} {loose plain : List Text} (h : Written (.value v) loose plain) :
    Written (.items [v]) loose plain
  | items {v : Json} {vs : List Json} {first firstPlain loose plain : List Text}
    (h : Written (.value v) first firstPlain) (more : Written (.items vs) loose plain) :
    Written (.items (v :: vs)) (first ++ [','] :: loose) (firstPlain ++ [','] :: plain)
  | field {body : Text} {units : List Nat} {v : Json} {loose plain : List Text}
    (key : IsBody body units) (h : Written (.value v) loose plain) :
    Written (.fields [(textOfUnits units, v)]) (quoted body :: [':'] :: loose)
      (quoted body :: [':'] :: plain)
  | fields {body : Text} {units : List Nat} {v : Json} {fs : List (Option Text × Json)}
    {first firstPlain loose plain : List Text} (key : IsBody body units)
    (h : Written (.value v) first firstPlain) (more : Written (.fields fs) loose plain) :
    Written (.fields ((textOfUnits units, v) :: fs))
      (quoted body :: [':'] :: (first ++ [','] :: loose))
      (quoted body :: [':'] :: (firstPlain ++ [','] :: plain))

def AllSpace (t : Text) : Prop := ∀ c ∈ t, isSpace c

/-- A gap between tokens: blanks, comments between slashes and stars that end, and comments up to a line
feed. -/
inductive IsGap : Text → Prop
  | nil : IsGap []
  | space {c : Char} {gap : Text} (h : isSpace c) (more : IsGap gap) : IsGap (c :: gap)
  | block {body gap : Text} (ends : ¬['*', '/'] <:+: body) (more : IsGap gap) :
    IsGap ('/' :: '*' :: (body ++ '*' :: '/' :: gap))
  | line {body gap : Text} (single : '\n' ∉ body) (more : IsGap gap) :
    IsGap ('/' :: '/' :: (body ++ '\n' :: gap))

/-- The gap behind the last token, in which the last comment may go on to the end of the text. -/
inductive IsLastGap : Text → Prop
  | closed {gap : Text} (h : IsGap gap) : IsLastGap gap
  | line {gap body : Text} (h : IsGap gap) (single : '\n' ∉ body) :
    IsLastGap (gap ++ '/' :: '/' :: body)

/-- A text that consists of tokens with a gap in front of each and one behind them. -/
inductive Spread (gap last : Text → Prop) : List Text → Text → Prop
  | last {t : Text} (h : last t) : Spread gap last [] t
  | token {g tok t : Text} {toks : List Text} (h : gap g) (more : Spread gap last toks t) :
    Spread gap last (tok :: toks) (g ++ (tok ++ t))

abbrev Commented : List Text → Text → Prop := Spread IsGap IsLastGap

abbrev Spaced : List Text → Text → Prop := Spread AllSpace AllSpace

/-- A character that is a token by itself, or part of a number or a word. -/
structure IsPlain (c : Char) : Prop where
  slash : c ≠ '/'
  quote : c ≠ '"'
  comma : c ≠ ','
  closer : ¬IsCloser c
  blank : ¬Text.isBlank c

inductive IsToken : Text → Prop
  | comma : IsToken [',']
  | closer {c : Char} (h : IsCloser c) : IsToken [c]
  | plain {c : Char} {more : Text} (h : ∀ d ∈ c :: more, IsPlain d) : IsToken (c :: more)
  | literal {body : Text} {units : List Nat} (h : IsBody body units) : IsToken (quoted body)

instance (c : Char) : Decidable (IsCloser c) := inferInstanceAs (Decidable (_ ∨ _))

theorem isPlain_iff : IsPlain c ↔
    c ≠ '/' ∧ c ≠ '"' ∧ c ≠ ',' ∧ ¬IsCloser c ∧ ¬Text.isBlank c :=
  ⟨fun h => ⟨h.slash, h.quote, h.comma, h.closer, h.blank⟩, fun ⟨a, b, d, e, f⟩ => ⟨a, b, d, e, f⟩⟩

instance (c : Char) : Decidable (IsPlain c) := decidable_of_iff _ isPlain_iff.symm

theorem isPlain_of_isDigit (h : c.isDigit) : IsPlain c := by
  have range : 48 ≤ c.toNat ∧ c.toNat ≤ 57 := by
    simpa [Char.isDigit, UInt32.le_iff_toNat_le] using h
  have apart {d : Char} (hd : d.toNat < 48 ∨ 57 < d.toNat) : c ≠ d := by
    rintro rfl
    omega
  refine ⟨apart (by decide), apart (by decide), apart (by decide), ?_, ?_⟩
  · rintro (rfl | rfl) <;> simp at range
  · simp only [Text.isBlank, Bool.or_eq_true, Bool.and_eq_true, decide_eq_true_eq, beq_iff_eq]
    omega

theorem IsDigits.isPlain (h : IsDigits t) : ∀ d ∈ t, IsPlain d :=
  fun d hd => isPlain_of_isDigit (h.2 d hd)

theorem IsUnsigned.isPlain (h : IsUnsigned t) : ∀ d ∈ t, IsPlain d := by
  obtain ⟨hwhole, hfraction, hexponent⟩ := h
  refine List.forall_mem_append.2 ⟨List.forall_mem_append.2 ⟨?_, ?_⟩, ?_⟩
  · cases hwhole with
    | zero => exact List.forall_mem_singleton.2 (by decide)
    | digits _ h => exact h.isPlain
  · cases hfraction with
    | none => simp
    | point h => exact List.forall_mem_cons.2 ⟨by decide, h.isPlain⟩
  · cases hexponent with
    | none => simp
    | unsigned letter h =>
        refine List.forall_mem_cons.2 ⟨?_, h.isPlain⟩
        obtain rfl | rfl := letter <;> decide
    | signed letter sign h =>
        refine List.forall_mem_cons.2 ⟨?_, List.forall_mem_cons.2 ⟨?_, h.isPlain⟩⟩
        · obtain rfl | rfl := letter <;> decide
        · obtain rfl | rfl := sign <;> decide

theorem IsUnsigned.exists_digit (h : IsUnsigned t) : ∃ c more, t = c :: more ∧ c.isDigit := by
  obtain ⟨hwhole, -, -⟩ := h
  cases hwhole with
  | zero => exact ⟨'0', _, rfl, by decide⟩
  | @digits c more _ h => exact ⟨c, _, rfl, h.2 c List.mem_cons_self⟩

theorem IsNumber.exists_cons (h : IsNumber t) : ∃ c more, t = c :: more ∧ (c.isDigit ∨ c = '-') ∧
    ∀ d ∈ c :: more, IsPlain d := by
  cases h with
  | unsigned h =>
      obtain ⟨c, more, rfl, digit⟩ := h.exists_digit
      exact ⟨c, more, rfl, .inl digit, h.isPlain⟩
  | negative h => exact ⟨'-', _, rfl, .inr rfl, List.forall_mem_cons.2 ⟨by decide, h.isPlain⟩⟩

theorem IsToken.mark (h : IsPlain c) : IsToken [c] :=
  .plain (List.forall_mem_singleton.2 h)

theorem IsToken.word {more : Text} (h : (c :: more).all fun d => decide (IsPlain d)) :
    IsToken (c :: more) :=
  .plain fun d hd => of_decide_eq_true (List.all_eq_true.1 h d hd)

theorem IsToken.number (h : IsNumber t) : IsToken t := by
  obtain ⟨c, more, rfl, -, plain⟩ := h.exists_cons
  exact .plain plain

theorem IsExtra.isToken {extra : List Text} (h : IsExtra extra) : ∀ tok ∈ extra, IsToken tok := by
  obtain rfl | rfl := h
  · simp
  · exact List.forall_mem_singleton.2 .comma

theorem Written.isToken {part : Part} (h : Written part loose plain) : ∀ tok ∈ loose, IsToken tok := by
  induction h with
  | null | yes | no => exact List.forall_mem_singleton.2 (.word (by decide))
  | number h => exact List.forall_mem_singleton.2 (.number h)
  | string h => exact List.forall_mem_singleton.2 (.literal h)
  | noItems | noFields =>
      exact List.forall_mem_cons.2 ⟨.mark (by decide),
        List.forall_mem_singleton.2 (.closer (by decide))⟩
  | array _ hextra ih | object _ hextra ih =>
      exact List.forall_mem_cons.2 ⟨.mark (by decide), List.forall_mem_append.2 ⟨ih,
        List.forall_mem_append.2 ⟨hextra.isToken, List.forall_mem_singleton.2 (.closer (by decide))⟩⟩⟩
  | item _ ih => exact ih
  | items _ _ ih more => exact List.forall_mem_append.2 ⟨ih, List.forall_mem_cons.2 ⟨.comma, more⟩⟩
  | field key _ ih =>
      exact List.forall_mem_cons.2 ⟨.literal key, List.forall_mem_cons.2 ⟨.mark (by decide), ih⟩⟩
  | fields key _ _ ih more =>
      exact List.forall_mem_cons.2 ⟨.literal key, List.forall_mem_cons.2 ⟨.mark (by decide),
        List.forall_mem_append.2 ⟨ih, List.forall_mem_cons.2 ⟨.comma, more⟩⟩⟩⟩

/-! The first pass. -/

theorem stripCommentsIn_plain (plain : c ≠ '/' ∧ c ≠ '"') (t : Text) :
    stripCommentsIn .code (c :: t) = c :: stripCommentsIn .code t := by
  rw [stripCommentsIn, if_neg plain.1, if_neg plain.2]

theorem stripCommentsIn_all_plain (h : ∀ c ∈ front, c ≠ '/' ∧ c ≠ '"') (t : Text) :
    stripCommentsIn .code (front ++ t) = front ++ stripCommentsIn .code t := by
  induction front with
  | nil => rfl
  | cons c front ih =>
      obtain ⟨plain, rest⟩ := List.forall_mem_cons.1 h
      rw [List.cons_append, stripCommentsIn_plain plain, ih rest, List.cons_append]

theorem hexDigit?_plain {n : Nat} (h : hexDigit? c = some n) : c ≠ '"' ∧ c ≠ '\\' := by
  constructor <;> rintro rfl <;> simp [hexDigit?] at h

theorem codeUnit?_digits {digits : Text} {unit : Nat} (h : codeUnit? digits = some (unit, [])) :
    (∀ c ∈ digits, c ≠ '"' ∧ c ≠ '\\') ∧ ∀ t, codeUnit? (digits ++ t) = some (unit, t) := by
  match digits with
  | [] | [_] | [_, _] | [_, _, _] => simp [codeUnit?] at h
  | a :: b :: c :: d :: more =>
    simp only [codeUnit?, Option.bind_eq_bind, Option.bind_eq_some_iff, Option.some.injEq,
      Prod.mk.injEq] at h
    obtain ⟨m, ha, n, hb, o, hc, q, hd, hunit, rfl⟩ := h
    refine ⟨?_, fun t => by simp [codeUnit?, ha, hb, hc, hd, hunit]⟩
    simp [hexDigit?_plain ha, hexDigit?_plain hb, hexDigit?_plain hc, hexDigit?_plain hd]

theorem stripCommentsIn_literal (h : ∀ c ∈ front, c ≠ '"' ∧ c ≠ '\\') (t : Text) :
    stripCommentsIn .literal (front ++ t) = front ++ stripCommentsIn .literal t := by
  induction front with
  | nil => rfl
  | cons c front ih =>
      obtain ⟨⟨unquoted, unescaped⟩, rest⟩ := List.forall_mem_cons.1 h
      simp [stripCommentsIn, unquoted, unescaped, ih rest]

theorem stripCommentsIn_body {units : List Nat} (h : IsBody body units) (t : Text) :
    stripCommentsIn .literal (body ++ '"' :: t) = body ++ '"' :: stripCommentsIn .code t := by
  induction h with
  | nil => rfl
  | plain unquoted unescaped _ _ ih => simp [stripCommentsIn, unquoted, unescaped, ih]
  | short _ _ ih => simp [stripCommentsIn, ih]
  | unit means _ ih =>
      have digits := stripCommentsIn_literal (codeUnit?_digits means).1
      simp [stripCommentsIn, digits, ih]

theorem IsToken.stripCommentsIn {tok : Text} (h : IsToken tok) (t : Text) :
    Json.stripCommentsIn .code (tok ++ t) = tok ++ Json.stripCommentsIn .code t := by
  cases h with
  | comma => rfl
  | closer h => obtain rfl | rfl := h <;> rfl
  | plain h => exact stripCommentsIn_all_plain (fun c hc => ⟨(h c hc).slash, (h c hc).quote⟩) t
  | literal h =>
      have body := stripCommentsIn_body h t
      simp [quoted, Json.stripCommentsIn, body]

theorem isSpace_iff : isSpace c ↔ c = ' ' ∨ c = '\t' ∨ c = '\n' ∨ c = '\r' := by
  simp [isSpace, or_assoc]

theorem stripCommentsIn_space (h : isSpace c) (t : Text) :
    stripCommentsIn .code (c :: t) = c :: stripCommentsIn .code t := by
  obtain rfl | rfl | rfl | rfl := isSpace_iff.1 h <;> rfl

theorem AllSpace.stripCommentsIn (h : AllSpace gap) (t : Text) :
    Json.stripCommentsIn .code (gap ++ t) = gap ++ Json.stripCommentsIn .code t := by
  induction gap with
  | nil => rfl
  | cons c gap ih =>
      obtain ⟨space, rest⟩ := List.forall_mem_cons.1 h
      rw [List.cons_append, stripCommentsIn_space space, ih rest, List.cons_append]

theorem stripCommentsIn_line (single : '\n' ∉ body) (t : Text) :
    stripCommentsIn .lineComment (body ++ '\n' :: t) = '\n' :: stripCommentsIn .code t := by
  induction body with
  | nil => rfl
  | cons c body ih =>
      obtain ⟨other, rest⟩ : c ≠ '\n' ∧ '\n' ∉ body := by simpa [eq_comm] using single
      rw [List.cons_append, stripCommentsIn, if_neg other, ih rest]

theorem stripCommentsIn_open (single : '\n' ∉ body) : stripCommentsIn .lineComment body = [] := by
  induction body with
  | nil => rfl
  | cons c body ih =>
      obtain ⟨other, rest⟩ : c ≠ '\n' ∧ '\n' ∉ body := by simpa [eq_comm] using single
      rw [stripCommentsIn, if_neg other, ih rest]

theorem stripCommentsIn_block (star : Bool)
    (ends : ¬['*', '/'] <:+: (if star then '*' :: body else body)) (t : Text) :
    stripCommentsIn (.blockComment star) (body ++ '*' :: '/' :: t) =
      body.filter (· == '\n') ++ stripCommentsIn .code t := by
  induction body generalizing star with
  | nil => simp [stripCommentsIn]
  | cons c body ih =>
      have inner : ¬['*', '/'] <:+: c :: body := by
        intro h
        cases star with
        | false => exact ends h
        | true => exact ends (h.trans (List.suffix_cons '*' _).isInfix)
      have closed : ¬(star = true ∧ c = '/') := by
        rintro ⟨rfl, rfl⟩
        exact ends ⟨[], body, rfl⟩
      rw [List.cons_append, stripCommentsIn, if_neg closed]
      by_cases feed : c = '\n'
      · subst feed
        have rest := ih false (fun h => inner (h.trans (List.suffix_cons '\n' _).isInfix))
        rw [if_pos rfl, rest]
        rfl
      · have rest : ¬['*', '/'] <:+: (if c == '*' then '*' :: body else body) := by
          by_cases isStar : c = '*'
          · subst isStar
            exact inner
          · rw [if_neg (by simpa using isStar)]
            exact fun h => inner (h.trans (List.suffix_cons c _).isInfix)
        rw [if_neg feed, ih _ rest, List.filter_cons_of_neg (by simpa using feed)]

theorem IsGap.exists_allSpace (h : IsGap gap) : ∃ blank, AllSpace blank ∧
    ∀ t, Json.stripCommentsIn .code (gap ++ t) = blank ++ Json.stripCommentsIn .code t := by
  induction h with
  | nil => exact ⟨[], by simp [AllSpace], fun _ => rfl⟩
  | @space c gap hc _ ih =>
      obtain ⟨blank, hblank, strip⟩ := ih
      refine ⟨c :: blank, List.forall_mem_cons.2 ⟨hc, hblank⟩, fun t => ?_⟩
      rw [List.cons_append, stripCommentsIn_space hc, strip, List.cons_append]
  | @block body gap ends _ ih =>
      obtain ⟨blank, hblank, strip⟩ := ih
      refine ⟨body.filter (· == '\n') ++ blank, ?_, fun t => ?_⟩
      · refine List.forall_mem_append.2 ⟨fun c hc => ?_, hblank⟩
        exact isSpace_iff.2 (.inr (.inr (.inl (by simpa using (List.mem_filter.1 hc).2))))
      · have comment := stripCommentsIn_block false ends (gap ++ t)
        rw [strip] at comment
        simpa [Json.stripCommentsIn] using comment
  | @line body gap single _ ih =>
      obtain ⟨blank, hblank, strip⟩ := ih
      refine ⟨'\n' :: blank, List.forall_mem_cons.2 ⟨by decide, hblank⟩, fun t => ?_⟩
      have comment := stripCommentsIn_line single (gap ++ t)
      rw [strip] at comment
      simpa [Json.stripCommentsIn] using comment

theorem IsLastGap.allSpace_strip (h : IsLastGap gap) : AllSpace (stripComments gap) := by
  cases h with
  | closed h =>
      obtain ⟨blank, hblank, strip⟩ := h.exists_allSpace
      have all := strip []
      rw [List.append_nil] at all
      simpa [stripComments, all, Json.stripCommentsIn] using hblank
  | @line gap body h single =>
      obtain ⟨blank, hblank, strip⟩ := h.exists_allSpace
      simpa [stripComments, strip, Json.stripCommentsIn, stripCommentsIn_open single] using hblank

theorem Spread.stripComments (h : Commented toks t) (tokens : ∀ tok ∈ toks, IsToken tok) :
    Spaced toks (Json.stripComments t) := by
  induction h with
  | last h => exact .last h.allSpace_strip
  | token h _ ih =>
      obtain ⟨tok, rest⟩ := List.forall_mem_cons.1 tokens
      obtain ⟨blank, hblank, strip⟩ := h.exists_allSpace
      rw [Json.stripComments, strip, tok.stripCommentsIn]
      exact .token hblank (ih rest)

theorem Spread.stripComments_eq (h : Spaced toks t) (tokens : ∀ tok ∈ toks, IsToken tok) :
    Json.stripComments t = t := by
  induction h with
  | last h => simpa [Json.stripComments, Json.stripCommentsIn] using h.stripCommentsIn []
  | token h _ ih =>
      obtain ⟨tok, rest⟩ := List.forall_mem_cons.1 tokens
      rw [Json.stripComments, h.stripCommentsIn, tok.stripCommentsIn, ← Json.stripComments, ih rest]

end TidyImports.Json
