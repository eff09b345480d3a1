import Mathlib.Data.List.TakeWhile
import TidyImports.Proofs.Json.Reduction

/-! Documents are read. The reader finds the value of every document whose tokens stand with blanks between
them, and therefore the value of every document that the reduction brings to that form. -/
namespace TidyImports.Json

variable {c : Char} {t body gap : Text} {loose plain toks others : List Text} {part : Part} {fuel : Nat}

/-! Single tokens. -/

def EndsNumber (t : Text) : Prop := ∀ c ∈ t.head?, ¬c.isDigit ∧ c ≠ '.' ∧ c ≠ 'e' ∧ c ≠ 'E'

theorem readDigits_append {digits : Text} (h : IsDigits digits) (ends : ∀ c ∈ t.head?, ¬c.isDigit) :
    readDigits (digits ++ t) = some (digits, t) := by
  have taken : t.takeWhile Char.isDigit = [] ∧ t.dropWhile Char.isDigit = t := by
    cases t with
    | nil => exact ⟨rfl, rfl⟩
    | cons c t =>
        have stop := ends c rfl
        simp [stop]
  rw [readDigits, List.takeWhile_append_of_pos h.2, List.dropWhile_append_of_pos h.2, taken.1,
    taken.2, List.append_nil]
  simp [h.1]

theorem readWhole_append {whole : Text} (h : IsWhole whole) (ends : ∀ c ∈ t.head?, ¬c.isDigit) :
    readWhole (whole ++ t) = some (whole, t) := by
  cases h with
  | zero =>
      have digits : IsDigits ['0'] := ⟨by simp, List.forall_mem_singleton.2 (by decide)⟩
      have read := readDigits_append digits ends
      rw [List.singleton_append] at read ⊢
      simp [readWhole, read]
  | @digits c more nonzero h =>
      rw [readWhole, readDigits_append h ends]
      simp only [Option.bind_eq_bind, Option.bind_some]
      split
      · next heq => exact absurd (List.cons.inj heq).1 nonzero
      · rfl

theorem readFraction_append {fraction : Text} (h : IsFraction fraction)
    (ends : ∀ c ∈ t.head?, ¬c.isDigit ∧ c ≠ '.') : readFraction (fraction ++ t) = some (fraction, t) := by
  cases h with
  | none =>
      cases t with
      | nil => rfl
      | cons c t =>
          have stop := (ends c rfl).2
          simp [readFraction, stop]
  | point h =>
      simp [readFraction, readDigits_append h fun c hc => (ends c hc).1]

theorem readExponent_append {exponent : Text} (h : IsExponent exponent) (ends : EndsNumber t) :
    readExponent (exponent ++ t) = some (exponent, t) := by
  have digitsEnd : ∀ c ∈ t.head?, ¬c.isDigit := fun c hc => (ends c hc).1
  cases h with
  | none =>
      cases t with
      | nil => rfl
      | cons c t =>
          have stop := (ends c rfl).2.2
          simp [readExponent, stop]
  | @unsigned c digits letter h =>
      obtain ⟨d, more, rfl⟩ := List.exists_cons_of_ne_nil h.1
      have digit := h.2 d List.mem_cons_self
      have unsigned : ¬(d = '+' ∨ d = '-') := by
        rintro (rfl | rfl) <;> simp [Char.isDigit] at digit
      have read := readDigits_append h digitsEnd
      simp only [List.cons_append] at read ⊢
      simp [readExponent, letter, unsigned, read]
  | signed letter sign h =>
      simp [readExponent, letter, sign, readDigits_append h digitsEnd]

theorem readUnsigned_append {s : Text} (h : IsUnsigned s) (ends : EndsNumber t) :
    readUnsigned (s ++ t) = some (s, t) := by
  obtain ⟨hwhole, hfraction, hexponent⟩ := h
  rename_i whole fraction exponent
  have behindFraction : ∀ c ∈ (exponent ++ t).head?, ¬c.isDigit ∧ c ≠ '.' := by
    cases hexponent with
    | none => exact fun c hc => ⟨(ends c hc).1, (ends c hc).2.1⟩
    | unsigned letter | signed letter =>
        intro c hc
        obtain rfl := Option.some.inj hc
        obtain rfl | rfl := letter <;> decide
  have behindWhole : ∀ c ∈ (fraction ++ (exponent ++ t)).head?, ¬c.isDigit := by
    cases hfraction with
    | none => exact fun c hc => (behindFraction c hc).1
    | point =>
        intro c hc
        obtain rfl := Option.some.inj hc
        decide
  simp only [List.append_assoc]
  rw [readUnsigned, readWhole_append hwhole behindWhole]
  simp [readFraction_append hfraction behindFraction, readExponent_append hexponent ends]

theorem readNumber_append {s : Text} (h : IsNumber s) (ends : EndsNumber t) :
    readNumber (s ++ t) = some (s, t) := by
  cases h with
  | negative h => simp [readNumber, readUnsigned_append h ends]
  | unsigned h =>
      have read := readUnsigned_append h ends
      obtain ⟨c, more, rfl, digit⟩ := h.exists_digit
      have unsigned : c ≠ '-' := by
        rintro rfl
        simp [Char.isDigit] at digit
      simp only [List.cons_append] at read ⊢
      simp [readNumber, unsigned, read]

theorem readUnits_append {units : List Nat} (h : IsBody body units) (enough : body.length < fuel)
    (t : Text) : readUnits fuel (body ++ '"' :: t) = some (units, t) := by
  induction h generalizing fuel with
  | nil =>
      obtain ⟨fuel, rfl⟩ := Nat.exists_eq_succ_of_ne_zero (Nat.ne_of_gt enough)
      simp [readUnits]
  | plain unquoted unescaped printable _ ih =>
      obtain ⟨fuel, rfl⟩ := Nat.exists_eq_succ_of_ne_zero (Nat.ne_of_gt (Nat.zero_lt_of_lt enough))
      have rest := ih (Nat.lt_of_succ_lt_succ enough)
      simp [readUnits, unquoted, unescaped, printable, rest]
  | @short e d body units means _ ih =>
      obtain ⟨fuel, rfl⟩ := Nat.exists_eq_succ_of_ne_zero (Nat.ne_of_gt (Nat.zero_lt_of_lt enough))
      simp only [List.length_cons] at enough
      have rest := ih (by omega : body.length < fuel)
      have notUnit : e ≠ 'u' := by
        rintro rfl
        simp [shortEscape?] at means
      simp [readUnits, means, rest]
  | @unit digits body unit units means _ ih =>
      obtain ⟨fuel, rfl⟩ := Nat.exists_eq_succ_of_ne_zero (Nat.ne_of_gt (Nat.zero_lt_of_lt enough))
      simp only [List.length_cons, List.length_append] at enough
      have rest := ih (by omega : body.length < fuel)
      simp [readUnits, (codeUnit?_digits means).2, rest]

theorem readString_append {units : List Nat} (h : IsBody body units) (t : Text) :
    readString (body ++ '"' :: t) = some (textOfUnits units, t) := by
  have enough : body.length < (body ++ '"' :: t).length + 1 := by
    rw [List.length_append]
    omega
  rw [readString, readUnits_append h enough]
  rfl

theorem IsToken.exists_cons {tok : Text} (h : IsToken tok) :
    ∃ c more, tok = c :: more ∧ ¬isSpace c := by
  cases h with
  | comma => exact ⟨',', [], rfl, by decide⟩
  | @closer c h => exact ⟨c, [], rfl, by obtain rfl | rfl := h <;> decide⟩
  | @plain c more h =>
      exact ⟨c, more, rfl, fun space => (h c List.mem_cons_self).blank (isBlank_of_isSpace space)⟩
  | @literal body => exact ⟨'"', body ++ ['"'], rfl, by decide⟩

theorem skipSpace_token {tok : Text} (h : IsToken tok) (hgap : AllSpace gap) (t : Text) :
    skipSpace (gap ++ (tok ++ t)) = tok ++ t := by
  obtain ⟨c, more, rfl, solid⟩ := h.exists_cons
  rw [skipSpace, List.dropWhile_append_of_pos hgap]
  simp [solid]

theorem AllSpace.skipSpace (h : AllSpace gap) : Json.skipSpace gap = [] :=
  List.dropWhile_eq_nil_iff.2 h

/-! Whole documents. -/

def Separates (toks : List Text) : Prop :=
  ∀ tok ∈ toks.head?, tok = [','] ∨ tok = ['\x7d'] ∨ tok = [']']

theorem Spread.endsNumber (h : Spaced others t) (separates : Separates others) : EndsNumber t := by
  have space {gap : Text} (hgap : AllSpace gap) {rest : Text} (ends : EndsNumber rest) :
      EndsNumber (gap ++ rest) := by
    cases gap with
    | nil => exact ends
    | cons c gap =>
        intro d hd
        obtain rfl := Option.some.inj hd
        obtain rfl | rfl | rfl | rfl := isSpace_iff.1 (hgap c List.mem_cons_self) <;> decide
  cases h with
  | last h =>
      have nothing : EndsNumber [] := by simp [EndsNumber]
      simpa using space h nothing
  | token h _ =>
      refine space h fun c hc => ?_
      obtain rfl | rfl | rfl := separates _ rfl <;>
        (obtain rfl := Option.some.inj hc; decide)

theorem readValue_number {s : Text} (h : IsNumber s) (hgap : AllSpace gap) (ends : EndsNumber t) :
    readValue (fuel + 1) (gap ++ (s ++ t)) = some (.number s, t) := by
  have read := readNumber_append h ends
  have skip := skipSpace_token (.number h) hgap t
  obtain ⟨c, more, rfl, start, -⟩ := h.exists_cons
  have apart {d : Char} (hd : ¬d.isDigit ∧ d ≠ '-') : c ≠ d := by
    rintro rfl
    exact start.elim hd.1 hd.2
  rw [readValue, skip]
  simp only [List.cons_append] at read ⊢
  split
  · next heq => exact absurd (List.cons.inj heq).1 (apart (by decide))
  · next heq => exact absurd (List.cons.inj heq).1 (apart (by decide))
  · next heq => exact absurd (List.cons.inj heq).1 (apart (by decide))
  · next heq => exact absurd (List.cons.inj heq).1 (apart (by decide))
  · next heq => exact absurd (List.cons.inj heq).1 (apart (by decide))
  · next heq => exact absurd (List.cons.inj heq).1 (apart (by decide))
  · rw [read]
    rfl

def Part.closing : Part → List Text
  | .value _ => []
  | .items _ => [[']']]
  | .fields _ => [['\x7d']]

def Part.IsRead (fuel : Nat) (t rest : Text) : Part → Prop
  | .value v => readValue fuel t = some (v, rest)
  | .items vs => readItems fuel t = some (vs, rest)
  | .fields fs => readFields fuel t = some (fs, rest)

theorem Written.bare (h : Written part loose plain) : Written part plain plain := by
  induction h with
  | null => exact .null
  | yes => exact .yes
  | no => exact .no
  | number h => exact .number h
  | string h => exact .string h
  | noItems => exact .noItems
  | array _ _ ih => exact .array ih (.inl rfl)
  | noFields => exact .noFields
  | object _ _ ih => exact .object ih (.inl rfl)
  | item _ ih => exact .item ih
  | items _ _ ih more => exact .items ih more
  | field key _ ih => exact .field key ih
  | fields key _ _ ih more => exact .fields key ih more

theorem separates_closing (close : Text) (h : close = ['\x7d'] ∨ close = [']'])
    (others : List Text) : Separates (close :: others) := by
  intro tok htok
  obtain rfl := Option.some.inj htok
  exact .inr h

theorem separates_comma (others : List Text) : Separates ([','] :: others) := by
  intro tok htok
  obtain rfl := Option.some.inj htok
  exact .inl rfl

theorem Spread.skipSpace {tok : Text} (h : Spaced (tok :: toks) t) (htok : IsToken tok) :
    ∃ rest, Json.skipSpace t = tok ++ rest ∧ Spaced toks rest ∧
      Spaced (tok :: toks) (Json.skipSpace t) := by
  cases h with
  | @token g _ rest _ hgap more =>
      have skip := skipSpace_token htok hgap rest
      refine ⟨rest, skip, more, ?_⟩
      rw [skip]
      exact .token (g := []) (by simp [AllSpace]) more

theorem Written.exists_first (h : Written part loose plain) (rest : List Text) (spaced : Spaced (plain ++ rest) t) :
    Spaced (plain ++ rest) (Json.skipSpace t) ∧
      ∀ c, IsCloser c → ∀ behind, Json.skipSpace t ≠ c :: behind := by
  have inhabited : plain ≠ [] := by
    clear spaced
    induction h <;> simp_all
  obtain ⟨tok, toks, rfl⟩ := List.exists_cons_of_ne_nil inhabited
  have htok : IsToken tok := h.bare.isToken tok List.mem_cons_self
  have opens : Json.startsClosed (tok :: (toks ++ rest)) = false := h.bare.startsClosed rest
  obtain ⟨behind, skip, -, skipped⟩ := spaced.skipSpace htok
  refine ⟨skipped, fun c closer behind' heq => ?_⟩
  have next := htok.closes behind
  rw [← skip, heq] at next
  have closed : closes (c :: behind') = true := by obtain rfl | rfl := closer <;> rfl
  exact Bool.false_ne_true (opens.symm.trans (next.symm.trans closed))

theorem readValue_array {inner rest : Text} {vs : List Json} (skip : skipSpace t = '[' :: inner)
    (first : ∀ behind, skipSpace inner ≠ ']' :: behind)
    (read : readItems fuel (skipSpace inner) = some (vs, rest)) :
    readValue (fuel + 1) t = some (.array vs, rest) := by
  rw [readValue, skip]
  simp only [read, Option.map_some]

theorem readValue_object {inner rest : Text} {fs : List (Option Text × Json)}
    (skip : skipSpace t = '\x7b' :: inner) (first : ∀ behind, skipSpace inner ≠ '\x7d' :: behind)
    (read : readFields fuel (skipSpace inner) = some (fs, rest)) :
    readValue (fuel + 1) t = some (.object fs, rest) := by
  rw [readValue, skip]
  simp only [read, Option.map_some]

theorem exists_read_key {units : List Nat} (key : IsBody body units)
    (spaced : Spaced (quoted body :: [':'] :: toks) t) : ∃ behind inner,
      skipSpace t = '"' :: (body ++ '"' :: behind) ∧
      readString (body ++ '"' :: behind) = some (textOfUnits units, behind) ∧
      skipSpace behind = ':' :: inner ∧ Spaced toks inner := by
  obtain ⟨behind, skip, more, -⟩ := spaced.skipSpace (.literal key)
  obtain ⟨inner, skipColon, more, -⟩ := more.skipSpace (.mark (by decide))
  exact ⟨behind, inner, by simpa [quoted] using skip, readString_append key behind, skipColon, more⟩

/-- Whatever stands behind a part, it is read up to its closing bracket, if there is fuel for all its
tokens. -/
def Part.Reads (plain : List Text) (part : Part) : Prop :=
  ∀ others t fuel, Separates others → Spaced (plain ++ (part.closing ++ others)) t →
    plain.length + part.closing.length < fuel → ∃ rest, part.IsRead fuel t rest ∧ Spaced others rest

section Parts

variable {v : Json} {vs : List Json} {fs : List (Option Text × Json)} {first : List Text}
  {units : List Nat}

theorem reads_token {tok : Text} (htok : IsToken tok)
    (read : ∀ fuel t rest, skipSpace t = tok ++ rest → readValue (fuel + 1) t = some (v, rest)) :
    (Part.value v).Reads [tok] := by
  intro others t fuel _ spaced enough
  obtain ⟨fuel, rfl⟩ := Nat.exists_eq_succ_of_ne_zero (Nat.ne_zero_of_lt enough)
  obtain ⟨rest, skip, more, -⟩ := spaced.skipSpace htok
  exact ⟨rest, read fuel t rest skip, more⟩

theorem reads_number {s : Text} (h : IsNumber s) : (Part.value (.number s)).Reads [s] := by
  intro others t fuel separates spaced enough
  obtain ⟨fuel, rfl⟩ := Nat.exists_eq_succ_of_ne_zero (Nat.ne_zero_of_lt enough)
  cases spaced with
  | token hgap more => exact ⟨_, readValue_number h hgap (more.endsNumber separates), more⟩

theorem reads_string (h : IsBody body units) :
    (Part.value (.string (textOfUnits units))).Reads [quoted body] := by
  refine reads_token (.literal h) fun fuel t rest skip => ?_
  have read := readString_append h rest
  simp [readValue, skip, quoted, read]

/-- Brackets with nothing between them are read like one token. -/
theorem reads_brackets {opening closing : Char} (hopening : IsToken [opening]) (hclosing : IsToken [closing])
    (read : ∀ fuel t inner rest, skipSpace t = opening :: inner → skipSpace inner = closing :: rest →
      readValue (fuel + 1) t = some (v, rest)) : (Part.value v).Reads [[opening], [closing]] := by
  intro others t fuel _ spaced enough
  obtain ⟨fuel, rfl⟩ := Nat.exists_eq_succ_of_ne_zero (Nat.ne_zero_of_lt enough)
  obtain ⟨inner, skip, more, -⟩ := spaced.skipSpace hopening
  obtain ⟨rest, skipClose, more, -⟩ := more.skipSpace hclosing
  exact ⟨rest, read fuel t inner rest skip skipClose, more⟩

theorem reads_array (h : Written (.items vs) loose plain) (reads : (Part.items vs).Reads plain) :
    (Part.value (.array vs)).Reads (['['] :: (plain ++ [[']']])) := by
  intro others t fuel separates spaced enough
  obtain ⟨fuel, rfl⟩ := Nat.exists_eq_succ_of_ne_zero (Nat.ne_zero_of_lt enough)
  simp only [List.cons_append, List.append_assoc] at spaced
  simp only [List.length_cons, List.length_append, List.length_nil] at enough
  have fewer : plain.length + 1 < fuel := by omega
  obtain ⟨inner, skip, more, -⟩ := spaced.skipSpace (.mark (by decide))
  obtain ⟨skipped, first⟩ := h.exists_first _ more
  obtain ⟨rest, read, more⟩ := reads others _ fuel separates skipped fewer
  exact ⟨rest, readValue_array skip (first _ (.inr rfl)) read, more⟩

theorem reads_object (h : Written (.fields fs) loose plain) (reads : (Part.fields fs).Reads plain) :
    (Part.value (.object fs)).Reads (['\x7b'] :: (plain ++ [['\x7d']])) := by
  intro others t fuel separates spaced enough
  obtain ⟨fuel, rfl⟩ := Nat.exists_eq_succ_of_ne_zero (Nat.ne_zero_of_lt enough)
  simp only [List.cons_append, List.append_assoc] at spaced
  simp only [List.length_cons, List.length_append, List.length_nil] at enough
  have fewer : plain.length + 1 < fuel := by omega
  obtain ⟨inner, skip, more, -⟩ := spaced.skipSpace (.mark (by decide))
  obtain ⟨skipped, first⟩ := h.exists_first _ more
  obtain ⟨rest, read, more⟩ := reads others _ fuel separates skipped fewer
  exact ⟨rest, readValue_object skip (first _ (.inl rfl)) read, more⟩

theorem reads_item (reads : (Part.value v).Reads plain) : (Part.items [v]).Reads plain := by
  intro others t fuel _ spaced enough
  obtain ⟨fuel, rfl⟩ := Nat.exists_eq_succ_of_ne_zero (Nat.ne_zero_of_lt enough)
  obtain ⟨behind, read, more⟩ := reads _ _ fuel (separates_closing _ (.inr rfl) others) spaced
    (Nat.lt_of_succ_lt_succ enough)
  obtain ⟨rest, skip, more, -⟩ := more.skipSpace (.closer (by decide))
  refine ⟨rest, ?_, more⟩
  rw [Part.IsRead] at read
  simp [Part.IsRead, readItems, read, skip]

theorem reads_items (reads : (Part.value v).Reads first) (readsMore : (Part.items vs).Reads plain) :
    (Part.items (v :: vs)).Reads (first ++ [','] :: plain) := by
  intro others t fuel separates spaced enough
  obtain ⟨fuel, rfl⟩ := Nat.exists_eq_succ_of_ne_zero (Nat.ne_zero_of_lt enough)
  simp only [Part.closing, List.length_cons, List.length_append, List.length_nil] at enough
  have fewer : first.length < fuel := by omega
  have fewerMore : plain.length + 1 < fuel := by omega
  rw [List.append_assoc] at spaced
  obtain ⟨behind, read, more⟩ := reads _ _ fuel (separates_comma _) spaced fewer
  obtain ⟨inner, skip, more, -⟩ := more.skipSpace .comma
  obtain ⟨rest, readMore, more⟩ := readsMore _ _ fuel separates more fewerMore
  refine ⟨rest, ?_, more⟩
  simp only [Part.IsRead] at read readMore
  simp [Part.IsRead, readItems, read, skip, readMore]

theorem reads_field (key : IsBody body units) (reads : (Part.value v).Reads plain) :
    (Part.fields [(textOfUnits units, v)]).Reads (quoted body :: [':'] :: plain) := by
  intro others t fuel _ spaced enough
  obtain ⟨fuel, rfl⟩ := Nat.exists_eq_succ_of_ne_zero (Nat.ne_zero_of_lt enough)
  simp only [Part.closing, List.length_cons, List.length_nil] at enough
  have fewer : plain.length < fuel := by omega
  obtain ⟨name, inner, skip, readName, skipColon, more⟩ := exists_read_key key spaced
  obtain ⟨behind, read, more⟩ := reads _ _ fuel (separates_closing _ (.inl rfl) others) more fewer
  obtain ⟨rest, skipClose, more, -⟩ := more.skipSpace (.closer (by decide))
  refine ⟨rest, ?_, more⟩
  rw [Part.IsRead] at read
  simp [Part.IsRead, readFields, skip, readName, skipColon, read, skipClose]

theorem reads_fields (key : IsBody body units) (reads : (Part.value v).Reads first)
    (readsMore : (Part.fields fs).Reads plain) : (Part.fields ((textOfUnits units, v) :: fs)).Reads
      (quoted body :: [':'] :: (first ++ [','] :: plain)) := by
  intro others t fuel separates spaced enough
  obtain ⟨fuel, rfl⟩ := Nat.exists_eq_succ_of_ne_zero (Nat.ne_zero_of_lt enough)
  simp only [Part.closing, List.length_cons, List.length_append, List.length_nil] at enough
  have fewer : first.length < fuel := by omega
  have fewerMore : plain.length + 1 < fuel := by omega
  simp only [List.cons_append, List.append_assoc] at spaced
  obtain ⟨name, inner, skip, readName, skipColon, more⟩ := exists_read_key key spaced
  obtain ⟨behind, read, more⟩ := reads _ _ fuel (separates_comma _) more fewer
  obtain ⟨separated, skipComma, more, -⟩ := more.skipSpace .comma
  obtain ⟨rest, readMore, more⟩ := readsMore _ _ fuel separates more fewerMore
  refine ⟨rest, ?_, more⟩
  simp only [Part.IsRead] at read readMore
  simp [Part.IsRead, readFields, skip, readName, skipColon, read, skipComma, readMore]

end Parts

theorem Written.reads (h : Written part loose plain) : part.Reads plain := by
  induction h with
  | null | yes | no =>
      exact reads_token (.word (by decide)) fun fuel t rest skip => by simp [readValue, skip]
  | number h => exact reads_number h
  | string h => exact reads_string h
  | noItems | noFields =>
      exact reads_brackets (.mark (by decide)) (.closer (by decide))
        fun fuel t inner rest skip skipClose => by simp [readValue, skip, skipClose]
  | array h _ ih => exact reads_array h ih
  | object h _ ih => exact reads_object h ih
  | item _ ih => exact reads_item ih
  | items _ _ ih ihMore => exact reads_items ih ihMore
  | field key _ ih => exact reads_field key ih
  | fields key _ _ ih ihMore => exact reads_fields key ih ihMore

theorem Spread.length_le (h : Spaced toks t) (tokens : ∀ tok ∈ toks, IsToken tok) :
    toks.length ≤ t.length := by
  induction h with
  | last => exact Nat.zero_le _
  | token _ _ ih =>
      obtain ⟨htok, rest⟩ := List.forall_mem_cons.1 tokens
      obtain ⟨c, more, rfl, -⟩ := htok.exists_cons
      have := ih rest
      simp only [List.length_append, List.length_cons]
      omega

theorem Written.parse? {v : Json} (h : Written (.value v) loose plain) (spaced : Spaced plain t) :
    Json.parse? t = some v := by
  have room := spaced.length_le h.bare.isToken
  have enough : plain.length < 2 * t.length + 2 := by omega
  have alone : Separates [] := by simp [Separates]
  obtain ⟨rest, read, more⟩ := h.reads [] t _ alone (by simpa [Part.closing] using spaced) enough
  rw [Part.IsRead] at read
  cases more with
  | last blank => simp [Json.parse?, read, blank.skipSpace]

/-- The reduction keeps a document: its tokens but the comments and extra commas, and its value. What has
neither comments nor extra commas stays as it is, also when it is no document. -/
theorem ofCommented_document {v : Json} (h : Written (.value v) loose plain)
    (spread : Commented loose t) :
    Spaced plain (ofCommented t) ∧ Json.parse? (ofCommented t) = some v ∧
    (loose = plain → Spaced loose t → ofCommented t = t) ∧
    ∀ other, (∀ front behind, other = front ++ behind → Outside front → ¬OpensComment behind) →
      (∀ front c behind, other = front ++ c :: behind → ¬IsTrailing front c behind) →
      ofCommented other = other := by
  have spaced := h.spaced_ofCommented spread
  refine ⟨spaced, h.parse? spaced, ?_, fun other comments commas => ofCommented_eq_self comments commas⟩
  rintro rfl bare
  exact h.ofCommented_eq bare

def annotated : Text :=
  "/*/ [ */\x7b\"a//b\": [1, /* \",\n*/ \"c,]\" , ], // \x7d\n\x7d // end".toList

theorem written_annotated : Written
    (.value (.object [(some "a//b".toList, .array [.number ['1'], .string (some "c,]".toList)])]))
    [['\x7b'], quoted "a//b".toList, [':'], ['['], ['1'], [','], quoted "c,]".toList, [','], [']'],
      [','], ['\x7d']]
    [['\x7b'], quoted "a//b".toList, [':'], ['['], ['1'], [','], quoted "c,]".toList, [']'],
      ['\x7d']] := by
  have plain {c : Char} {body : Text} {units : List Nat} (rest : IsBody body units)
      (h : c ≠ '"' ∧ c ≠ '\\' ∧ ¬c.toNat < 0x20) : IsBody (c :: body) (c.toNat :: units) :=
    .plain h.1 h.2.1 h.2.2 rest
  have key : IsBody "a//b".toList ("a//b".toList.map Char.toNat) :=
    plain (plain (plain (plain .nil (by decide)) (by decide)) (by decide)) (by decide)
  have text : IsBody "c,]".toList ("c,]".toList.map Char.toNat) :=
    plain (plain (plain .nil (by decide)) (by decide)) (by decide)
  have whole : IsWhole ['1'] := .digits (by decide) ⟨by simp, List.forall_mem_singleton.2 (by decide)⟩
  have one : IsNumber ['1'] := .unsigned (.parts whole .none .none)
  exact .object (.field key (.array (.items (.number one) (.item (.string text))) (.inr rfl)))
    (.inr rfl)

theorem commented_annotated : Commented
    [['\x7b'], quoted "a//b".toList, [':'], ['['], ['1'], [','], quoted "c,]".toList, [','], [']'],
      [','], ['\x7d']] annotated := by
  have space {gap : Text} (more : IsGap gap) : IsGap (' ' :: gap) := .space rfl more
  have apart : ∀ body ∈ ["/ [ ".toList, " \",\n".toList], ¬['*', '/'] <:+: body := by decide
  have first : IsGap "/*/ [ */".toList := .block (apart "/ [ ".toList (by decide)) .nil
  have inner : IsGap " /* \",\n*/ ".toList :=
    space (.block (apart " \",\n".toList (by decide)) (space .nil))
  have single : '\n' ∉ " \x7d".toList ∧ '\n' ∉ " end".toList := by decide
  have line : IsGap " // \x7d\n".toList := space (.line single.1 .nil)
  have last : IsLastGap " // end".toList := .line (space .nil) single.2
  have text : annotated = "/*/ [ */".toList ++ (['\x7b'] ++ ([] ++ (quoted "a//b".toList ++ ([] ++
      ([':'] ++ ([' '] ++ (['['] ++ ([] ++ (['1'] ++ ([] ++ ([','] ++ (" /* \",\n*/ ".toList ++
      (quoted "c,]".toList ++ ([' '] ++ ([','] ++ ([' '] ++ ([']'] ++ ([] ++ ([','] ++
      (" // \x7d\n".toList ++ (['\x7d'] ++ " // end".toList))))))))))))))))))))) := by
    decide +kernel
  rw [text]
  exact .token first (.token .nil (.token .nil (.token (space .nil) (.token .nil (.token .nil
    (.token inner (.token (space .nil) (.token (space .nil) (.token .nil (.token line
    (.last last)))))))))))

theorem annotated_reduced : ∃ v, Json.parse? (ofCommented annotated) = some v ∧
    ofCommented annotated = "\x7b\"a//b\": [1, \n \"c,]\"  ] \n\x7d ".toList := by
  have reduced := ofCommented_document written_annotated commented_annotated
  exact ⟨_, reduced.2.1, by decide +kernel⟩

end TidyImports.Json
