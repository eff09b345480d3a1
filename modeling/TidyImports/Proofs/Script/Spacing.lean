import TidyImports.Proofs.Script.Rereading

/-! Rows of lexemes with other gaps. The gap behind the last lexeme says nothing about a phrase, so it can
be replaced, and phrases with a gap between them that ends the first one are a phrase. A wording with
another gap at its end says the same. -/
namespace TidyImports.Script

variable {l m : Lexeme} {ls ms : List Lexeme} {gap behind : List GapPiece} {t : Text} {c : Char}
  {w : Wording} {types : Bool}

def withLastGap (gap : List GapPiece) : List Lexeme → List Lexeme
  | [] => []
  | [l] => [{ l with gap }]
  | l :: m :: ls => l :: withLastGap gap (m :: ls)

def Steady (gap : List GapPiece) : Prop := ∀ rest, IsGap rest gap

def EndsAll (t : Text) : Prop := ∀ token : Token, token.EndsBefore t

theorem withLastGap_append (gap : List GapPiece) (ls : List Lexeme) (h : ms ≠ []) :
    withLastGap gap (ls ++ ms) = ls ++ withLastGap gap ms := by
  induction ls with
  | nil => rfl
  | cons l ls ih =>
      obtain ⟨m, more, hm⟩ := List.exists_cons_of_ne_nil (List.append_ne_nil_of_right_ne_nil ls h)
      rw [List.cons_append, hm, withLastGap, ← hm, ih, List.cons_append]

theorem withLastGap_cons (gap : List GapPiece) (l : Lexeme) (h : ms ≠ []) :
    withLastGap gap (l :: ms) = l :: withLastGap gap ms := withLastGap_append gap [l] h

theorem exists_withLastGap (gap : List GapPiece) (h : ls ≠ []) :
    ∃ init l, ls = init ++ [l] ∧ withLastGap gap ls = init ++ [{ l with gap }] := by
  obtain ⟨init, l, rfl⟩ := (List.eq_nil_or_concat' ls).resolve_left h
  exact ⟨init, l, rfl, withLastGap_append gap init (by simp)⟩

theorem map_token_withLastGap (gap : List GapPiece) (ls : List Lexeme) :
    (withLastGap gap ls).map Lexeme.token = ls.map Lexeme.token := by
  by_cases h : ls = []
  · rw [h, withLastGap]
  · obtain ⟨init, l, rfl, same⟩ := exists_withLastGap gap h
    simp [same]

theorem spelled_withLastGap (gap : List GapPiece) (ls : List Lexeme) :
    spelled (withLastGap gap ls) = spelled ls := by
  by_cases h : ls = []
  · rw [h, withLastGap]
  · obtain ⟨init, l, rfl, same⟩ := exists_withLastGap gap h
    rw [same, spelled_append _ (by simp), spelled_append _ (by simp)]
    rfl

theorem lastGap_withLastGap (gap : List GapPiece) (h : ls ≠ []) :
    lastGap (withLastGap gap ls) = gap := by
  obtain ⟨init, l, -, same⟩ := exists_withLastGap gap h
  simp [same, lastGap]

theorem phrase_withLastGap_iff : Phrase (withLastGap gap ls) ↔ Phrase ls := by
  by_cases h : ls = []
  · rw [h, withLastGap]
  · obtain ⟨init, l, rfl, same⟩ := exists_withLastGap gap h
    simp only [same, Phrase.append_iff, Phrase.singleton_iff, List.head?_cons, Option.mem_some_iff,
      forall_eq']

theorem Steady.nil : Steady [] := fun _ => .nil

theorem Steady.blank (h : (isLineBreak c || isGap c) = true) (k : Steady behind) :
    Steady (.blank c :: behind) := fun rest => .blank h (k rest)

theorem EndsAll.of_head (word : endsWord [c] = true) (mark : c ≠ '*' ∧ c ≠ '=') (t : Text) :
    EndsAll (c :: t) := by
  intro token
  cases token with
  | word name escaped => exact word
  | symbol spelling =>
      rintro - d hd
      obtain rfl : c = d := Option.some.inj hd
      exact mark
  | _ => trivial

theorem Phrase.cons (own : Spells l.token l.text) (gap : Steady l.gap)
    (ends : ∀ m ∈ ms.head?, l.token.EndsBefore (gapText l.gap ++ m.text)) (h : Phrase ms) :
    Phrase (l :: ms) := cons_iff.2 ⟨own, fun m hm => ⟨gap _, ends m hm⟩, h⟩

theorem Phrase.cons_mark {spelling : String} (token : l.token = .symbol spelling)
    (mark : spelling ∈ marks) (other : spelling ≠ "*") (text : l.text = spelling.toList)
    (gap : Steady l.gap) (h : Phrase ms) : Phrase (l :: ms) := by
  refine .cons (by rw [token, text]; exact spells_mark mark) gap (fun m _ => ?_) h
  rw [token]
  exact fun star => absurd star other

theorem Phrase.append (h : Phrase ls) (k : Phrase ms) (gap : Steady (lastGap ls))
    (ends : ∀ m ∈ ms.head?, EndsAll (gapText (lastGap ls) ++ m.text)) : Phrase (ls ++ ms) := by
  refine append_iff.2 ⟨h, k, fun l hl m hm => ?_⟩
  rw [lastGap, Option.mem_def.1 hl] at gap ends
  exact ⟨gap _, ends m hm _⟩

def Wording.withGap (gap : List GapPiece) (w : Wording) : Wording :=
  if w.ending ≠ [] then { w with ending := withLastGap gap w.ending }
  else if w.attributes ≠ [] then { w with attributes := withLastGap gap w.attributes }
  else { w with source := { w.source with gap } }

namespace Wording

theorem lexemes_ne_nil (w : Wording) : w.lexemes ≠ [] := by simp [lexemes]

theorem lexemes_withGap (gap : List GapPiece) (w : Wording) :
    (w.withGap gap).lexemes = withLastGap gap w.lexemes := by
  have opened : withLastGap gap w.lexemes =
      w.opening ++ (w.bound ++ withLastGap gap (w.source :: (w.attributes ++ w.ending))) := by
    rw [lexemes, withLastGap_append _ _ (by simp), withLastGap_append _ _ (by simp)]
  rw [opened, withGap]
  split
  · next inhabited =>
    rw [withLastGap_cons _ _ (by simp [inhabited]), withLastGap_append _ _ inhabited]
    rfl
  · next empty =>
    rw [Decidable.not_not.1 empty]
    split
    · next inhabited =>
      rw [List.append_nil, withLastGap_cons _ _ inhabited]
      simp [lexemes, bound]
    · next none =>
      rw [Decidable.not_not.1 none]
      simp [lexemes, bound, withLastGap]

theorem withGap_fields (gap : List GapPiece) (w : Wording) :
    (w.withGap gap).binders = w.binders ∧ (w.withGap gap).value = w.value ∧
      (w.withGap gap).isType = w.isType ∧ (w.withGap gap).hasPhase = w.hasPhase ∧
      (w.withGap gap).source.text = w.source.text := by
  rw [withGap]
  split
  · exact ⟨rfl, rfl, rfl, rfl, rfl⟩
  · split <;> exact ⟨rfl, rfl, rfl, rfl, rfl⟩

theorem attributes_withGap (gap : List GapPiece) (w : Wording) :
    (w.withGap gap).attributes = w.attributes ∨
      (w.withGap gap).attributes = withLastGap gap w.attributes := by
  rw [withGap]
  split
  · exact .inl rfl
  · split
    · exact .inr rfl
    · exact .inl rfl

theorem ending_withGap_eq_nil_iff (gap : List GapPiece) (w : Wording) :
    (w.withGap gap).ending = [] ↔ w.ending = [] := by
  rw [withGap]
  split
  · next inhabited =>
    obtain ⟨init, l, -, same⟩ := exists_withLastGap gap inhabited
    simp [same, inhabited]
  · split <;> rfl

theorem valid_withGap (gap : List GapPiece) (h : w.Valid types) : (w.withGap gap).Valid types := by
  rw [withGap]
  split
  · next inhabited =>
    refine ⟨h.opening, h.binders, h.bare, h.source, h.attributes, ?_⟩
    obtain empty | ⟨l, alone, mark⟩ := h.ending
    · exact absurd empty inhabited
    · exact .inr ⟨{ l with gap }, by simp [alone, withLastGap], mark⟩
  · split
    · refine ⟨h.opening, h.binders, h.bare, h.source, ?_, h.ending⟩
      have attributes := h.attributes
      change AttributesValid _ (withLastGap gap w.attributes)
      generalize w.attributes = attributes' at attributes
      cases attributes with
      | none => exact .none
      | some word opens list closes =>
          rw [withLastGap_cons _ _ (by simp), withLastGap_cons _ _ (by simp),
            withLastGap_append _ _ (by simp)]
          exact .some word opens list closes
    · next none =>
      refine ⟨h.opening, h.binders, h.bare, h.source, ?_, h.ending⟩
      change AttributesValid _ w.attributes
      rw [Decidable.not_not.1 none]
      exact .none

theorem phrase_withGap_iff {gap : List GapPiece} : Phrase (w.withGap gap).lexemes ↔ Phrase w.lexemes := by
  rw [lexemes_withGap, phrase_withLastGap_iff]

theorem lastGap_withGap (gap : List GapPiece) (w : Wording) : lastGap (w.withGap gap).lexemes = gap := by
  rw [lexemes_withGap, lastGap_withLastGap _ w.lexemes_ne_nil]

theorem spelled_withGap (gap : List GapPiece) (w : Wording) :
    spelled (w.withGap gap).lexemes = spelled w.lexemes := by
  rw [lexemes_withGap, spelled_withLastGap]

end Wording

end TidyImports.Script
