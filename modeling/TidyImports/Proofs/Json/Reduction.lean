import TidyImports.Proofs.Json.Documents

/-! The reduction of documents. The second pass drops the commas in front of closing brackets, which are the
trailing commas of the grammar; what contains neither comments nor trailing commas stays as it is. -/
namespace TidyImports.Json

variable {c : Char} {t front body gap : Text} {loose plain toks rest : List Text} {part : Part}

def startsClosed : List Text → Bool
  | [] => false
  | tok :: _ => tok == ['\x7d'] || tok == [']']

def dropExtra : List Text → List Text
  | [] => []
  | tok :: toks => if tok = [','] ∧ startsClosed toks then dropExtra toks else tok :: dropExtra toks

theorem dropExtra_cons {tok : Text} (h : tok ≠ [',']) (toks : List Text) :
    dropExtra (tok :: toks) = tok :: dropExtra toks := by
  simp [dropExtra, h]

theorem length_dropExtra_le (toks : List Text) : (dropExtra toks).length ≤ toks.length := by
  induction toks with
  | nil => exact Nat.le_refl 0
  | cons tok toks ih =>
      rw [dropExtra]
      split <;> simp only [List.length_cons] <;> omega

theorem quoted_ne (body : Text) : quoted body ≠ [','] := by
  simp [quoted]

theorem IsNumber.ne {s : Text} (h : IsNumber s) (rest : List Text) :
    s ≠ [','] ∧ startsClosed (s :: rest) = false := by
  obtain ⟨c, more, rfl, -, plain⟩ := h.exists_cons
  have first := plain c List.mem_cons_self
  have closer : c ≠ '\x7d' ∧ c ≠ ']' := not_or.1 first.closer
  simp [startsClosed, first.comma, closer]

theorem Written.startsClosed (h : Written part loose plain) (rest : List Text) :
    Json.startsClosed (loose ++ rest) = false := by
  induction h generalizing rest with
  | null | yes | no | noItems | array | noFields | object => rfl
  | number h => exact (h.ne _).2
  | string | field | fields => simp [quoted, Json.startsClosed]
  | item _ ih => exact ih rest
  | items _ _ ih _ =>
      rw [List.append_assoc]
      exact ih _

theorem Written.dropExtra (h : Written part loose plain) (rest : List Text) :
    Json.dropExtra (loose ++ rest) = plain ++ Json.dropExtra rest := by
  have closing {extra : List Text} (hextra : IsExtra extra) {close : Text} (rest : List Text)
      (hclose : close = ['\x7d'] ∨ close = [']']) :
      Json.dropExtra (extra ++ close :: rest) = close :: Json.dropExtra rest := by
    obtain rfl | rfl := hextra <;> obtain rfl | rfl := hclose <;>
      simp [Json.dropExtra, Json.startsClosed]
  induction h generalizing rest with
  | null | yes | no | noItems | noFields => simp [Json.dropExtra]
  | number h => exact dropExtra_cons (h.ne rest).1 rest
  | string => exact dropExtra_cons (quoted_ne _) rest
  | @array _ _ _ extra _ hextra ih =>
      have inner := ih (extra ++ [']'] :: rest)
      rw [closing hextra rest (.inr rfl)] at inner
      simpa [Json.dropExtra] using inner
  | @object _ _ _ extra _ hextra ih =>
      have inner := ih (extra ++ ['\x7d'] :: rest)
      rw [closing hextra rest (.inl rfl)] at inner
      simpa [Json.dropExtra] using inner
  | item _ ih => exact ih rest
  | @items _ _ _ _ loose _ _ more ih ihMore =>
      have separated := more.startsClosed rest
      have inner := ih ([','] :: (loose ++ rest))
      simpa [Json.dropExtra, separated, ihMore] using inner
  | @field body _ _ _ _ _ _ ih =>
      have key := quoted_ne body
      simpa [Json.dropExtra, key] using ih rest
  | @fields body _ _ _ _ _ loose _ _ _ more ih ihMore =>
      have key := quoted_ne body
      have separated := more.startsClosed rest
      have inner := ih ([','] :: (loose ++ rest))
      simpa [Json.dropExtra, key, separated, ihMore] using inner

/-! The second pass. -/

theorem isBlank_of_isSpace (h : isSpace c) : Text.isBlank c := by
  obtain rfl | rfl | rfl | rfl := isSpace_iff.1 h <;> rfl

theorem withoutTrailing_space (h : isSpace c) (t : Text) :
    withoutTrailing .code (c :: t) = c :: withoutTrailing .code t := by
  obtain rfl | rfl | rfl | rfl := isSpace_iff.1 h <;> simp [withoutTrailing, Place.next]

theorem AllSpace.withoutTrailing (h : AllSpace gap) (t : Text) :
    Json.withoutTrailing .code (gap ++ t) = gap ++ Json.withoutTrailing .code t := by
  induction gap with
  | nil => rfl
  | cons c gap ih =>
      obtain ⟨space, rest⟩ := List.forall_mem_cons.1 h
      rw [List.cons_append, withoutTrailing_space space, ih rest, List.cons_append]

theorem withoutTrailing_plain (h : c ≠ '"' ∧ c ≠ ',') (t : Text) :
    withoutTrailing .code (c :: t) = c :: withoutTrailing .code t := by
  simp [withoutTrailing, Place.next, h]

theorem withoutTrailing_all_plain (h : ∀ c ∈ front, IsPlain c) (t : Text) :
    withoutTrailing .code (front ++ t) = front ++ withoutTrailing .code t := by
  induction front with
  | nil => rfl
  | cons c front ih =>
      obtain ⟨plain, rest⟩ := List.forall_mem_cons.1 h
      rw [List.cons_append, withoutTrailing_plain ⟨plain.quote, plain.comma⟩, ih rest,
        List.cons_append]

theorem withoutTrailing_literal (h : ∀ c ∈ front, c ≠ '"' ∧ c ≠ '\\') (t : Text) :
    withoutTrailing .literal (front ++ t) = front ++ withoutTrailing .literal t := by
  induction front with
  | nil => rfl
  | cons c front ih =>
      obtain ⟨⟨unquoted, unescaped⟩, rest⟩ := List.forall_mem_cons.1 h
      simp [withoutTrailing, Place.next, unquoted, unescaped, ih rest]

theorem withoutTrailing_body {units : List Nat} (h : IsBody body units) (t : Text) :
    withoutTrailing .literal (body ++ '"' :: t) = body ++ '"' :: withoutTrailing .code t := by
  induction h with
  | nil => simp [withoutTrailing, Place.next]
  | plain unquoted unescaped _ _ ih => simp [withoutTrailing, Place.next, unquoted, unescaped, ih]
  | short _ _ ih => simp [withoutTrailing, Place.next, ih]
  | unit means _ ih =>
      have digits := withoutTrailing_literal (codeUnit?_digits means).1
      simp [withoutTrailing, Place.next, digits, ih]

theorem IsToken.withoutTrailing {tok : Text} (h : IsToken tok) (other : tok ≠ [',']) (t : Text) :
    Json.withoutTrailing .code (tok ++ t) = tok ++ Json.withoutTrailing .code t := by
  cases h with
  | comma => exact absurd rfl other
  | closer h => obtain rfl | rfl := h <;> exact withoutTrailing_plain (by decide) t
  | plain h => exact withoutTrailing_all_plain h t
  | literal h =>
      have body := withoutTrailing_body h t
      simp [quoted, Json.withoutTrailing, Place.next, body]

theorem AllSpace.closes (h : AllSpace gap) (t : Text) : Json.closes (gap ++ t) = Json.closes t := by
  induction gap with
  | nil => rfl
  | cons c gap ih =>
      obtain ⟨space, rest⟩ := List.forall_mem_cons.1 h
      rw [List.cons_append, Json.closes, if_pos (isBlank_of_isSpace space), ih rest]

theorem IsToken.closes {tok : Text} (h : IsToken tok) (t : Text) :
    Json.closes (tok ++ t) = startsClosed [tok] := by
  cases h with
  | comma => rfl
  | closer h => obtain rfl | rfl := h <;> rfl
  | @plain c more h =>
      have first := h c List.mem_cons_self
      have closer : (c == '\x7d') = false ∧ (c == ']') = false := by
        simpa using not_or.1 first.closer
      simp [Json.closes, startsClosed, first.blank, closer]
  | literal => simp [quoted, Json.closes, startsClosed, Text.isBlank]

theorem Spread.closes (h : Spaced toks t) (tokens : ∀ tok ∈ toks, IsToken tok) :
    Json.closes t = startsClosed toks := by
  cases h with
  | last h => simpa [Json.closes, startsClosed] using h.closes []
  | token h _ =>
      obtain ⟨tok, -⟩ := List.forall_mem_cons.1 tokens
      rw [h.closes, tok.closes]
      rfl

theorem Spread.space_append (h : Spaced toks t) (hgap : AllSpace gap) : Spaced toks (gap ++ t) := by
  cases h with
  | last h => exact .last (List.forall_mem_append.2 ⟨hgap, h⟩)
  | token h more =>
      rw [← List.append_assoc]
      exact .token (List.forall_mem_append.2 ⟨hgap, h⟩) more

theorem Spread.withoutTrailing (h : Spaced toks t) (tokens : ∀ tok ∈ toks, IsToken tok) :
    Spaced (dropExtra toks) (Json.withoutTrailing .code t) := by
  induction h with
  | last h =>
      have blank := h.withoutTrailing []
      simp only [List.append_nil, Json.withoutTrailing] at blank
      rw [blank]
      exact .last h
  | @token g tok t toks h more ih =>
      obtain ⟨htok, rest⟩ := List.forall_mem_cons.1 tokens
      rw [h.withoutTrailing, dropExtra]
      by_cases comma : tok = [',']
      · subst comma
        rw [List.singleton_append, Json.withoutTrailing, more.closes rest]
        cases startsClosed toks with
        | true => exact (ih rest).space_append h
        | false => exact .token h (ih rest)
      · rw [htok.withoutTrailing comma, if_neg (fun k => comma k.1)]
        exact .token h (ih rest)

theorem Spread.withoutTrailing_eq (h : Spaced toks t) (tokens : ∀ tok ∈ toks, IsToken tok)
    (bare : dropExtra toks = toks) : Json.withoutTrailing .code t = t := by
  induction h with
  | last h => simpa [Json.withoutTrailing] using h.withoutTrailing []
  | @token g tok t toks h more ih =>
      obtain ⟨htok, rest⟩ := List.forall_mem_cons.1 tokens
      rw [dropExtra] at bare
      split at bare
      · have shorter := length_dropExtra_le toks
        rw [bare, List.length_cons] at shorter
        omega
      · next kept =>
        have tail := ih rest (List.cons.inj bare).2
        rw [h.withoutTrailing]
        by_cases comma : tok = [',']
        · subst comma
          have separated : startsClosed toks = false := by simpa using kept
          simp [Json.withoutTrailing, more.closes rest, separated, Place.next, tail]
        · rw [htok.withoutTrailing comma, tail]

theorem Written.spaced_ofCommented (h : Written part loose plain) (spread : Commented loose t) :
    Spaced plain (ofCommented t) := by
  have tokens := h.isToken
  have reduced := (spread.stripComments tokens).withoutTrailing tokens
  have dropped := h.dropExtra []
  simp only [List.append_nil, Json.dropExtra] at dropped
  rwa [ofCommented, stripTrailingCommas_eq, ← dropped]

theorem Written.ofCommented_eq (h : Written part plain plain) (spaced : Spaced plain t) :
    ofCommented t = t := by
  have tokens := h.isToken
  have bare := h.dropExtra []
  simp only [List.append_nil, Json.dropExtra] at bare
  rw [ofCommented, stripTrailingCommas_eq, spaced.stripComments_eq tokens,
    spaced.withoutTrailing_eq tokens bare]

/-! Texts that are not documents. -/

def OpensComment (t : Text) : Prop := ∃ c rest, t = '/' :: c :: rest ∧ (c = '/' ∨ c = '*')

def Place.zone : Place → Zone
  | .code => .code
  | .literal => .literal
  | .escape => .escape

theorem stripCommentsIn_slash {c : Char} (h : c ≠ '/' ∧ c ≠ '*') (t : Text) :
    stripCommentsIn .slash (c :: t) = '/' :: stripCommentsIn .code (c :: t) := by
  rw [stripCommentsIn, stripCommentsIn, if_neg h.1, if_neg h.1, if_neg h.2]
  split <;> rfl

theorem stripCommentsIn_eq_self {t : Text} (front : Text)
    (h : ∀ a b, t = a ++ b → Place.after (front ++ a) = .code → ¬OpensComment b) :
    stripCommentsIn (Place.after front).zone t = t := by
  induction t generalizing front with
  | nil => cases Place.after front <;> rfl
  | cons c t ih =>
      have rest := ih (front ++ [c]) fun a b hab => by
        rw [List.append_assoc]
        exact h (c :: a) b (by rw [hab]; rfl)
      have here := h [] (c :: t) rfl
      rw [List.append_nil] at here
      rw [Place.after_concat] at rest
      cases hplace : Place.after front with
      | escape =>
          rw [hplace] at rest
          exact congrArg (c :: ·) rest
      | literal =>
          rw [hplace] at rest
          by_cases slash : c = '\\'
          · subst slash
            exact congrArg ('\\' :: ·) rest
          · by_cases quote : c = '"'
            · subst quote
              exact congrArg ('"' :: ·) rest
            · simp only [Place.next, slash, quote, if_false, Place.zone] at rest
              simp [Place.zone, stripCommentsIn, slash, quote, rest]
      | code =>
          rw [hplace] at rest
          by_cases slash : c = '/'
          · subst slash
            cases t with
            | nil => rfl
            | cons d t =>
                have closed : d ≠ '/' ∧ d ≠ '*' :=
                  not_or.1 fun hd => here hplace ⟨d, t, rfl, hd⟩
                exact (stripCommentsIn_slash closed t).trans (congrArg ('/' :: ·) rest)
          · by_cases quote : c = '"'
            · subst quote
              exact congrArg ('"' :: ·) rest
            · simp only [Place.next, quote, if_false, Place.zone] at rest
              simp [Place.zone, stripCommentsIn, slash, quote, rest]

theorem Without.eq_self {marked : Text → Char → Text → Prop} {out : Text}
    (h : Without marked front t out) (none : ∀ a c b, t = a ++ c :: b → ¬marked (front ++ a) c b) :
    out = t := by
  induction h with
  | nil => rfl
  | @drop front c t _ h _ _ =>
      have here := none [] c t rfl
      rw [List.append_nil] at here
      exact absurd h here
  | @keep front c t _ _ _ ih =>
      refine congrArg (c :: ·) (ih fun a d b hab => ?_)
      rw [List.append_assoc]
      exact none (c :: a) d b (by rw [hab]; rfl)

theorem ofCommented_eq_self
    (comments : ∀ front behind, t = front ++ behind → Outside front → ¬OpensComment behind)
    (commas : ∀ front c behind, t = front ++ c :: behind → ¬IsTrailing front c behind) :
    ofCommented t = t := by
  have bare : stripComments t = t :=
    stripCommentsIn_eq_self [] fun a b hab code => comments a b hab (Place.after_eq_code_iff.1 code)
  rw [ofCommented, bare, stripTrailingCommas_eq]
  exact (without_withoutTrailing [] t).eq_self commas

end TidyImports.Json
