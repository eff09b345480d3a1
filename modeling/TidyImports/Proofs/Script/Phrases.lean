import Mathlib.Data.List.Chain
import TidyImports.Proofs.Script.Lexemes
import TidyImports.Script.Program

/-! Rows of lexemes. A lexeme is a token with its text and the gap behind it; a phrase is a row of
lexemes in which each one ends before the next. The text of a phrase says which tokens it has. A
cursor that moves on passes lexemes one by one, and wherever a phrase stands in a text a cursor passes
its lexemes. -/
namespace TidyImports.Script

structure Lexeme where
  token : Token
  text : Text
  gap : List GapPiece
  deriving DecidableEq, Repr

def Lexeme.full (l : Lexeme) : Text := l.text ++ gapText l.gap

def fullText (ls : List Lexeme) : Text := ls.flatMap Lexeme.full

def spelled : List Lexeme → Text
  | [] => []
  | [l] => l.text
  | l :: m :: more => l.full ++ spelled (m :: more)

def lastGap (ls : List Lexeme) : List GapPiece := (ls.getLast?.map Lexeme.gap).getD []

def lexemeComments (offset : Nat) : List Lexeme → List Edit.Span
  | [] => []
  | l :: ls =>
    gapComments (offset + l.text.width) l.gap ++ lexemeComments (offset + l.full.width) ls

structure Lexeme.Leads (l : Lexeme) (t : Text) : Prop where
  gap : IsGap t l.gap
  ends : l.token.EndsBefore (gapText l.gap ++ t)

/-- Lexemes that follow each other: each is spelled by its text and ends before the next one. -/
structure Phrase (ls : List Lexeme) : Prop where
  spells : ∀ l ∈ ls, Spells l.token l.text
  leads : ls.IsChain fun l m => l.Leads m.text

variable {l m : Lexeme} {ls ms : List Lexeme} {t u : Text} {token : Token} {c : Cursor}

@[simp] theorem fullText_nil : fullText [] = [] := rfl

@[simp] theorem fullText_cons (l : Lexeme) (ls : List Lexeme) :
    fullText (l :: ls) = l.full ++ fullText ls := rfl

@[simp] theorem fullText_append (ls ms : List Lexeme) :
    fullText (ls ++ ms) = fullText ls ++ fullText ms := List.flatMap_append

theorem spelled_append (ls : List Lexeme) (h : ms ≠ []) :
    spelled (ls ++ ms) = fullText ls ++ spelled ms := by
  induction ls with
  | nil => rfl
  | cons l ls ih =>
      obtain ⟨m, more, hm⟩ : ∃ m more, ls ++ ms = m :: more :=
        List.exists_cons_of_ne_nil (List.append_ne_nil_of_right_ne_nil ls h)
      rw [List.cons_append, hm, spelled, ← hm, ih, fullText_cons, List.append_assoc]

theorem fullText_eq (ls : List Lexeme) : fullText ls = spelled ls ++ gapText (lastGap ls) := by
  induction ls using List.reverseRecOn with
  | nil => rfl
  | append_singleton ls l _ =>
      rw [spelled_append ls (by simp)]
      simp [lastGap, spelled, Lexeme.full]

theorem lexemeComments_append (offset : Nat) (ls ms : List Lexeme) :
    lexemeComments offset (ls ++ ms) =
      lexemeComments offset ls ++ lexemeComments (offset + (fullText ls).width) ms := by
  induction ls generalizing offset with
  | nil => rfl
  | cons l ls ih =>
      rw [List.cons_append, lexemeComments, ih, lexemeComments, fullText_cons, Text.width_append,
        List.append_assoc, Nat.add_assoc]

theorem Token.EndsBefore.congr (h : token.EndsBefore t) (same : u.head? = t.head?) :
    token.EndsBefore u := by
  cases token with
  | word name escaped =>
      change endsWord u = true
      change endsWord t = true at h
      cases t <;> cases u <;> simp_all [endsWord]
  | symbol spelling =>
      change spelling = "*" → _
      rw [same]
      exact h
  | _ => trivial

theorem IsGap.congr {pieces : List GapPiece} (h : IsGap t pieces) (same : t = [] → u = []) :
    IsGap u pieces := by
  induction h with
  | nil => exact .nil
  | blank blank _ ih => exact .blank blank ih
  | line unbroken lineBreak _ ih => exact .line unbroken lineBreak ih
  | last unbroken atEnd => exact .last unbroken (same atEnd)
  | block closes _ ih => exact .block closes ih

theorem Lexeme.Leads.congr (h : l.Leads t) (same : u.head? = t.head?) : l.Leads u := by
  refine ⟨h.gap.congr fun empty => ?_, h.ends.congr ?_⟩
  · rw [empty, List.head?_nil, List.head?_eq_none_iff] at same
    exact same
  · rw [List.head?_append, List.head?_append, same]

theorem Lexeme.Leads.append (h : l.Leads t) (inhabited : t ≠ []) (u : Text) : l.Leads (t ++ u) :=
  h.congr (List.head?_append_of_ne_nil t inhabited)

namespace Phrase

theorem nil : Phrase [] := ⟨by simp, .nil⟩

theorem singleton_iff : Phrase [l] ↔ Spells l.token l.text :=
  ⟨fun h => h.spells l (by simp), fun h => ⟨by simpa using h, .singleton l⟩⟩

theorem cons_iff : Phrase (l :: ls) ↔
    Spells l.token l.text ∧ (∀ m ∈ ls.head?, l.Leads m.text) ∧ Phrase ls := by
  constructor
  · intro h
    obtain ⟨own, others⟩ := List.forall_mem_cons.1 h.spells
    exact ⟨own, fun m hm => (List.isChain_cons.1 h.leads).1 m hm, others,
      (List.isChain_cons.1 h.leads).2⟩
  · rintro ⟨own, leads, more⟩
    exact ⟨List.forall_mem_cons.2 ⟨own, more.spells⟩, List.isChain_cons.2 ⟨leads, more.leads⟩⟩

theorem append_iff : Phrase (ls ++ ms) ↔
    Phrase ls ∧ Phrase ms ∧ ∀ l ∈ ls.getLast?, ∀ m ∈ ms.head?, l.Leads m.text := by
  constructor
  · intro h
    obtain ⟨first, second, leads⟩ := List.isChain_append.1 h.leads
    obtain ⟨own, others⟩ := List.forall_mem_append.1 h.spells
    exact ⟨⟨own, first⟩, ⟨others, second⟩, leads⟩
  · rintro ⟨first, second, leads⟩
    exact ⟨List.forall_mem_append.2 ⟨first.spells, second.spells⟩,
      List.isChain_append.2 ⟨first.leads, second.leads, leads⟩⟩

theorem leads_spelled (h : Phrase (l :: m :: ls)) : l.Leads (spelled (m :: ls)) := by
  obtain ⟨-, leads, more⟩ := cons_iff.1 h
  have first := leads m rfl
  have inhabited := (more.spells m (by simp)).ne_nil
  cases ls with
  | nil => exact first
  | cons n ls =>
      rw [spelled, Lexeme.full, List.append_assoc]
      exact first.append inhabited _

theorem noGap_spelled (h : Phrase (l :: ls)) (r : Text) : NoGap (spelled (l :: ls) ++ r) := by
  have own := (h.spells l (by simp)).noGap
  cases ls with
  | nil => exact own r
  | cons m ls =>
      rw [spelled, Lexeme.full, List.append_assoc, List.append_assoc]
      exact own _

end Phrase

theorem eq_of_gapText_append {pieces more : List GapPiece} (h : IsGap t pieces)
    (k : IsGap u more) (stop : NoGap t) (stop' : NoGap u)
    (same : gapText pieces ++ t = gapText more ++ u) : t = u := by
  have skipped := skipGap_gapText h stop 0 false []
  rw [same, skipGap_gapText k stop'] at skipped
  simp only [Option.some.injEq, Gap.mk.injEq] at skipped
  exact skipped.1.symm

theorem Phrase.spelled_ne_nil (h : Phrase (l :: ls)) : spelled (l :: ls) ≠ [] := by
  have own := (h.spells l (by simp)).ne_nil
  cases ls <;> simp [spelled, Lexeme.full, own]

theorem Token.endsBefore_nil (token : Token) : token.EndsBefore [] := by
  cases token with
  | symbol spelling => exact fun _ c hc => by cases hc
  | word name escaped => rfl
  | _ => trivial

theorem Phrase.scan (h : Phrase (l :: ls)) : ∃ pieces, IsGap (spelled ls) pieces ∧
    NoGap (spelled ls) ∧
      scanToken? (spelled (l :: ls)) = some (l.token, gapText pieces ++ spelled ls) := by
  have own := (h.spells l (by simp)).scan
  cases ls with
  | nil =>
      have alone := own [] l.token.endsBefore_nil
      rw [List.append_nil] at alone
      exact ⟨[], .nil, noGap_nil, alone⟩
  | cons m more =>
      have leads := h.leads_spelled
      have stop := (Phrase.cons_iff.1 h).2.2.noGap_spelled []
      rw [List.append_nil] at stop
      refine ⟨l.gap, leads.gap, stop, ?_⟩
      rw [spelled, Lexeme.full, List.append_assoc]
      exact own _ leads.ends

/-- The text of a phrase says which tokens it has. -/
theorem tokens_eq_of_spelled (h : Phrase ls) (k : Phrase ms) (same : spelled ls = spelled ms) :
    ls.map Lexeme.token = ms.map Lexeme.token := by
  induction ls generalizing ms with
  | nil =>
      cases ms with
      | nil => rfl
      | cons m ms => exact absurd same.symm k.spelled_ne_nil
  | cons l ls ih =>
      cases ms with
      | nil => exact absurd same h.spelled_ne_nil
      | cons m ms =>
          obtain ⟨pieces, isGap, stop, first⟩ := h.scan
          obtain ⟨pieces', isGap', stop', first'⟩ := k.scan
          rw [same, first'] at first
          simp only [Option.some.injEq, Prod.mk.injEq] at first
          obtain ⟨token, behind⟩ := first
          have rest := eq_of_gapText_append isGap isGap' stop stop' behind.symm
          rw [List.map_cons, List.map_cons, token,
            ih (Phrase.cons_iff.1 h).2.2 (Phrase.cons_iff.1 k).2.2 rest]

end TidyImports.Script
