import Mathlib.Data.List.Induction
import TidyImports.Json.Comments

/-! The commas that a closing bracket takes back. One pass with a remembered offset drops exactly those
commas outside string literals that only blanks separate from a closing bracket: at every moment the
offset is that of a comma in the copy with nothing but blanks behind it. -/
namespace TidyImports.Json

variable {c : Char} {t front behind written out : Text} {place : Place} {copy more : Copy}

/-- The texts between the opening quote of a string literal and a place inside it that is not behind a
backslash. -/
inductive Inside : Text → Prop
  | nil : Inside []
  | plain {t : Text} {c : Char} (h : Inside t) (unquoted : c ≠ '"') (unescaped : c ≠ '\\') :
    Inside (t ++ [c])
  | escaped {t : Text} (h : Inside t) (c : Char) : Inside (t ++ ['\\', c])

inductive Outside : Text → Prop
  | nil : Outside []
  | plain {t : Text} {c : Char} (h : Outside t) (unquoted : c ≠ '"') : Outside (t ++ [c])
  | literal {t body : Text} (h : Outside t) (inside : Inside body) :
    Outside (t ++ '"' :: body ++ ['"'])

def IsCloser (c : Char) : Prop := c = '\x7d' ∨ c = ']'

/-- A comma is a trailing one if it stands outside string literals and the next character that is not
blank is a closing bracket. -/
structure IsTrailing (front : Text) (c : Char) (behind : Text) : Prop where
  comma : c = ','
  outside : Outside front
  closed : ∃ blanks closer rest, behind = blanks ++ closer :: rest ∧
    (∀ b ∈ blanks, Text.isBlank b) ∧ IsCloser closer

/-- The rest of a text without exactly the characters that are marked by what stands in front of them and
behind them. -/
inductive Without (marked : Text → Char → Text → Prop) : (front t out : Text) → Prop
  | nil (front : Text) : Without marked front [] []
  | drop {front : Text} {c : Char} {t out : Text} (h : marked front c t)
    (rest : Without marked (front ++ [c]) t out) : Without marked front (c :: t) out
  | keep {front : Text} {c : Char} {t out : Text} (h : ¬marked front c t)
    (rest : Without marked (front ++ [c]) t out) : Without marked front (c :: t) (c :: out)

def Place.after (t : Text) : Place := t.foldl Place.next .code

theorem Place.after_concat (t : Text) (c : Char) : after (t ++ [c]) = (after t).next c := by
  simp [after]

def Place.Stands : Place → Text → Prop
  | .code, t => Outside t
  | .literal, t => ∃ front body, t = front ++ '"' :: body ∧ Outside front ∧ Inside body
  | .escape, t => ∃ front body, t = front ++ '"' :: body ++ ['\\'] ∧ Outside front ∧ Inside body

theorem Place.Stands.next (h : place.Stands t) (c : Char) : (place.next c).Stands (t ++ [c]) := by
  cases place with
  | code =>
      by_cases quote : c = '"'
      · subst quote
        exact ⟨t, [], rfl, h, .nil⟩
      · simp only [Place.next, quote, if_false]
        exact Outside.plain h quote
  | literal =>
      obtain ⟨front, body, rfl, outside, inside⟩ := h
      by_cases slash : c = '\\'
      · subst slash
        exact ⟨front, body, rfl, outside, inside⟩
      · by_cases quote : c = '"'
        · subst quote
          exact Outside.literal outside inside
        · simp only [Place.next, slash, quote, if_false]
          exact ⟨front, body ++ [c], by simp, outside, .plain inside quote slash⟩
  | escape =>
      obtain ⟨front, body, rfl, outside, inside⟩ := h
      exact ⟨front, body ++ ['\\', c], by simp, outside, .escaped inside c⟩

theorem Place.after_stands (t : Text) : (after t).Stands t := by
  induction t using List.reverseRecOn with
  | nil => exact Outside.nil
  | append_singleton t c ih =>
      rw [after_concat]
      exact ih.next c

theorem Inside.foldl_eq {State : Type} {step : State → Char → State} {literal escape : State}
    (h : Inside t) (plain : ∀ c, c ≠ '"' → c ≠ '\\' → step literal c = literal)
    (escapes : step literal '\\' = escape) (escaped : ∀ c, step escape c = literal) :
    t.foldl step literal = literal := by
  induction h with
  | nil => rfl
  | plain _ unquoted unescaped ih => simp [ih, plain _ unquoted unescaped]
  | escaped _ c ih => simp [ih, escapes, escaped]

theorem Inside.foldl_next (h : Inside t) : t.foldl Place.next .literal = .literal :=
  h.foldl_eq (fun c unquoted unescaped => by simp [Place.next, unquoted, unescaped]) rfl fun _ => rfl

theorem Place.after_eq_code_iff : after t = .code ↔ Outside t := by
  constructor
  · intro h
    have stands := after_stands t
    rwa [h] at stands
  · intro h
    induction h with
    | nil => rfl
    | plain _ unquoted ih => rw [after_concat, ih, next, if_neg unquoted]
    | literal _ inside ih =>
        rw [after] at ih
        simp [after, ih, next, inside.foldl_next]

def closes : Text → Bool
  | [] => false
  | c :: t => if Text.isBlank c then closes t else c == '\x7d' || c == ']'

theorem closes_iff : closes t = true ↔ ∃ blanks closer rest, t = blanks ++ closer :: rest ∧
    (∀ b ∈ blanks, Text.isBlank b) ∧ IsCloser closer := by
  induction t with
  | nil => simp [closes]
  | cons c t ih =>
      rw [closes]
      by_cases blank : Text.isBlank c
      · rw [if_pos blank, ih]
        constructor
        · rintro ⟨blanks, closer, rest, rfl, hblanks, hcloser⟩
          exact ⟨c :: blanks, closer, rest, rfl, List.forall_mem_cons.2 ⟨blank, hblanks⟩, hcloser⟩
        · rintro ⟨blanks, closer, rest, heq, hblanks, hcloser⟩
          cases blanks with
          | nil =>
              obtain ⟨rfl, rfl⟩ := List.cons.inj heq
              obtain rfl | rfl := hcloser <;> simp [Text.isBlank] at blank
          | cons b blanks =>
              obtain ⟨rfl, rfl⟩ := List.cons.inj heq
              exact ⟨blanks, closer, rest, rfl, (List.forall_mem_cons.1 hblanks).2, hcloser⟩
      · rw [if_neg blank, Bool.or_eq_true, beq_iff_eq, beq_iff_eq]
        constructor
        · exact fun hcloser => ⟨[], c, t, rfl, by simp, hcloser⟩
        · rintro ⟨blanks, closer, rest, heq, hblanks, hcloser⟩
          cases blanks with
          | nil =>
              obtain ⟨rfl, rfl⟩ := List.cons.inj heq
              exact hcloser
          | cons b blanks =>
              obtain ⟨rfl, rfl⟩ := List.cons.inj heq
              exact absurd (hblanks _ (List.mem_cons_self)) blank

def withoutTrailing : Place → Text → Text
  | _, [] => []
  | place, c :: t =>
    if place = .code ∧ c = ',' ∧ closes t then withoutTrailing .code t
    else c :: withoutTrailing (place.next c) t

theorem without_withoutTrailing (front t : Text) :
    Without IsTrailing front t (withoutTrailing (Place.after front) t) := by
  induction t generalizing front with
  | nil => exact .nil front
  | cons c t ih =>
      have trailing : (Place.after front = .code ∧ c = ',' ∧ closes t) ↔ IsTrailing front c t := by
        rw [Place.after_eq_code_iff, closes_iff]
        exact ⟨fun ⟨outside, comma, closed⟩ => ⟨comma, outside, closed⟩,
          fun h => ⟨h.outside, h.comma, h.closed⟩⟩
      have rest := ih (front ++ [c])
      rw [Place.after_concat] at rest
      rw [withoutTrailing]
      split
      · next h =>
        rw [h.1, h.2.1] at rest
        exact .drop (trailing.1 h) (h.2.1 ▸ rest)
      · next h => exact .keep (fun k => h (trailing.2 k)) rest

theorem not_closes_comma (t : Text) : closes (',' :: t) = false := rfl

theorem Place.next_of_isBlank (blank : Text.isBlank c) : Place.next .code c = .code := by
  have unquoted : c ≠ '"' := by
    rintro rfl
    simp [Text.isBlank] at blank
  rw [next, if_neg unquoted]

/-- A copy remembers no comma, or the offset of one with nothing but blanks behind it while it stands
outside string literals. -/
inductive Copy.Sound : Copy → Prop
  | plain (place : Place) (written : Text) : Sound ⟨place, written, none⟩
  | held (before : Text) {blanks : Text} (blank : ∀ b ∈ blanks, Text.isBlank b) :
    Sound ⟨.code, before ++ ',' :: blanks, some before.width⟩

/-- What remains of a copy when the rest of the text is known: a remembered comma goes if a closing bracket
is next. -/
def Copy.kept (copy : Copy) (t : Text) : Text :=
  match copy.comma with
  | none => copy.written
  | some offset => if closes t then (copy.written.removeAt? offset).getD [] else copy.written

theorem Copy.kept_held (before blanks t : Text) :
    Copy.kept ⟨.code, before ++ ',' :: blanks, some before.width⟩ t =
      before ++ (if closes t then blanks else ',' :: blanks) := by
  simp only [kept, Text.removeAt?_width, Option.getD_some]
  split <;> rfl

/-- What a copy comes to in the end: what remains of it, and the rest without trailing commas. -/
def Copy.result (copy : Copy) (t : Text) : Text := copy.kept t ++ withoutTrailing copy.place t

theorem Copy.Sound.step (h : copy.Sound) (c : Char) (t : Text) : ∃ more, copy.step? c = some more ∧
    more.Sound ∧ more.place = copy.place.next c ∧ more.result t = copy.result (c :: t) := by
  cases h with
  | plain place written =>
      by_cases still : place ≠ .code ∨ Text.isBlank c
      · refine ⟨⟨place.next c, written ++ [c], none⟩, if_pos still, .plain _ _, rfl, ?_⟩
        have other : ¬(place = .code ∧ c = ',' ∧ closes t) := by
          rintro ⟨rfl, rfl, -⟩
          simp [Text.isBlank] at still
        simp [result, kept, withoutTrailing, other]
      · obtain ⟨rfl, blank⟩ : place = .code ∧ ¬Text.isBlank c := by simpa using still
        by_cases comma : c = ','
        · subst comma
          refine ⟨⟨.code, written ++ [','], some written.width⟩, rfl, .held written (by simp), rfl, ?_⟩
          rw [result, kept_held, result, kept, withoutTrailing]
          cases closes t <;> simp [Place.next]
        · refine ⟨⟨Place.next .code c, written ++ [c], none⟩, ?_, .plain _ _, rfl, ?_⟩
          · simp [step?, blank, comma, write]
          · simp [result, kept, withoutTrailing, comma]
  | @held before blanks hblanks =>
      by_cases blank : Text.isBlank c
      · have next := Place.next_of_isBlank blank
        have comma : c ≠ ',' := by
          rintro rfl
          simp [Text.isBlank] at blank
        refine ⟨⟨.code, before ++ ',' :: (blanks ++ [c]), some before.width⟩, ?_, .held before ?_,
          next.symm, ?_⟩
        · simp [step?, blank, write, next]
        · simpa [or_imp, forall_and] using And.intro hblanks blank
        · rw [result, kept_held, result, kept_held, closes, if_pos blank, withoutTrailing]
          cases closes t <;> simp [comma, next]
      · by_cases comma : c = ','
        · subst comma
          refine ⟨⟨.code, before ++ ',' :: blanks ++ [','],
            some (Text.width (before ++ ',' :: blanks))⟩, rfl, .held _ (by simp), rfl, ?_⟩
          rw [result, kept_held, result, kept_held, not_closes_comma, withoutTrailing]
          cases closes t <;> simp [Place.next]
        · by_cases closer : c = '\x7d' ∨ c = ']'
          · refine ⟨⟨Place.next .code c, before ++ blanks ++ [c], none⟩, ?_, .plain _ _, rfl, ?_⟩
            · simp [step?, blank, comma, closer, Text.removeAt?_width, write]
            · rw [result, kept, result, kept_held, closes, if_neg blank, withoutTrailing]
              simp [comma, closer]
          · refine ⟨⟨Place.next .code c, before ++ ',' :: blanks ++ [c], none⟩, ?_, .plain _ _, rfl, ?_⟩
            · simp [step?, blank, comma, closer, write]
            · rw [result, kept, result, kept_held, closes, if_neg blank, withoutTrailing]
              simp [comma, closer]

theorem Copy.Sound.run (h : copy.Sound) (t : Text) : ∃ last, copy.run? t = some last ∧ last.Sound ∧
    last.place = t.foldl Place.next copy.place ∧ last.written = copy.result t := by
  induction t generalizing copy with
  | nil =>
      refine ⟨copy, rfl, h, rfl, ?_⟩
      cases h with
      | plain => simp [result, kept, withoutTrailing]
      | held => simp [result, kept, closes, withoutTrailing]
  | cons c t ih =>
      obtain ⟨more, step, sound, place, result⟩ := h.step c t
      obtain ⟨last, run, hlast, ends, written⟩ := ih sound
      refine ⟨last, ?_, hlast, ends.trans (by rw [place]; rfl), written.trans result⟩
      rw [run?, List.foldlM_cons, step]
      exact run

theorem Copy.sound_start : start.Sound := .plain .code []

theorem stripTrailingCommas_eq (t : Text) : stripTrailingCommas t = withoutTrailing .code t := by
  obtain ⟨last, run, -, -, written⟩ := Copy.sound_start.run t
  rw [stripTrailingCommas, run]
  exact written

/-- The pass drops exactly the trailing commas of every text. Behind every part of it the remembered offset
is that of a comma in the copy with nothing but blanks behind it, so that taking the comma back cannot
fail. -/
theorem stripTrailingCommas_exact (t : Text) :
    Without IsTrailing [] t (stripTrailingCommas t) ∧
    ∀ seen : Nat, ∃ copy, Copy.start.run? (t.take seen) = some copy ∧
      (copy.place = .code ↔ Outside (t.take seen)) ∧
      ∀ offset, copy.comma = some offset → copy.place = .code ∧ ∃ before blanks,
        copy.written = before ++ ',' :: blanks ∧ offset = Text.width before ∧
        (∀ b ∈ blanks, Text.isBlank b) ∧
        copy.written.removeAt? offset = some (before ++ blanks) := by
  constructor
  · rw [stripTrailingCommas_eq]
    exact without_withoutTrailing [] t
  · intro seen
    obtain ⟨copy, run, sound, place, -⟩ := Copy.sound_start.run (t.take seen)
    refine ⟨copy, run, ?_, fun offset held => ?_⟩
    · rw [place]
      exact Place.after_eq_code_iff
    · cases sound with
      | plain => cases held
      | @held before blanks blank =>
          obtain rfl := Option.some.inj held
          exact ⟨rfl, before, blanks, rfl, rfl, blank, Text.removeAt?_width before blanks ','⟩

end TidyImports.Json
