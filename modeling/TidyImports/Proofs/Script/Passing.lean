import TidyImports.Proofs.Script.Phrases
import TidyImports.Proofs.Script.Placement

/-! Cursors that pass lexemes. To move on is to pass the lexeme under the cursor, and the lexemes that a
cursor passes form a phrase; wherever a phrase stands, a cursor passes its lexemes. Offsets and comments
behind a phrase are those of its text. -/
namespace TidyImports.Script

variable {l m : Lexeme} {ls ms : List Lexeme} {t text : Text} {c d e : Cursor} {context : Context}

/-- A cursor stands on the token that is scanned from its text. -/
structure Cursor.Scanned (c : Cursor) : Prop where
  scan : scanToken? c.source = some (c.token, c.rest)
  noGap : NoGap c.source
  stop : c.stop + c.rest.width = c.start + c.source.width

structure Cursor.Passes (c : Cursor) (l : Lexeme) (d : Cursor) : Prop where
  token : c.token = l.token
  spells : Spells l.token l.text
  leads : l.Leads d.source
  source : c.source = l.full ++ d.source
  start : d.start = c.start + l.full.width
  previous : d.previous = c.start + l.text.width
  lineBreak : d.lineBreak = l.gap.any GapPiece.breaks
  comments : d.comments = (gapComments (c.start + l.text.width) l.gap).reverse ++ c.comments
  covers : d.covers = c.covers
  advance : ∀ context, Parser.advance.run context c = .ok ((), d)

/-- The cursor moves past lexemes, one after the other. -/
inductive Cursor.Chain : Cursor → List Lexeme → Cursor → Prop
  | nil (c : Cursor) : Chain c [] c
  | cons {c d e : Cursor} {l : Lexeme} {ls : List Lexeme} (first : c.Passes l d)
    (more : Chain d ls e) : Chain c (l :: ls) e

theorem run_advance_eq_ok {done : Unit} : Parser.advance.run context c = .ok (done, d) ↔
    ∃ gap token rest, skipGap .blank c.stop false c.comments c.rest = some gap ∧
      scanToken? gap.rest = some (token, rest) ∧
      d = { c with
        token := token, start := gap.offset, stop := gap.offset + (gap.rest.width - rest.width),
        lineBreak := gap.lineBreak, source := gap.rest, rest := rest, previous := c.stop,
        comments := gap.comments } := by
  simp only [Parser.advance, Parser.moveWith, if_true, Scanner.plain]
  constructor
  · intro h
    split at h
    · cases h
    · next gap hgap =>
      split at h
      · cases h
      · next token rest hread =>
        simp only [Except.ok.injEq, Prod.mk.injEq, true_and] at h
        exact ⟨gap, token, rest, hgap, hread, h.symm⟩
  · rintro ⟨gap, token, rest, hgap, hread, rfl⟩
    simp only [hgap, hread]

theorem scanned_of_advance {done : Unit} (h : Parser.advance.run context c = .ok (done, d)) :
    d.Scanned := by
  obtain ⟨gap, token, rest, hgap, hread, rfl⟩ := run_advance_eq_ok.1 h
  obtain ⟨_, _, _, stop, _⟩ := exists_pieces hgap
  refine ⟨hread, stop, ?_⟩
  obtain ⟨head, whole⟩ := (scanToken?_eq_some hread).1
  simp only [← whole, Text.width_append]
  omega

namespace Cursor

theorem Scanned.exists_text (h : c.Scanned) (simple : c.token.isSimple = true) :
    ∃ s, c.source = s ++ c.rest ∧ Spells c.token s ∧ c.token.EndsBefore c.rest ∧
      c.stop = c.start + s.width := by
  obtain ⟨s, whole, spells, ends⟩ := exists_spells h.scan simple h.noGap
  refine ⟨s, whole, spells, ends, ?_⟩
  have stop := h.stop
  rw [whole, Text.width_append] at stop
  omega

theorem Scanned.exists_passes {done : Unit} (h : c.Scanned) (simple : c.token.isSimple = true)
    (moved : Parser.advance.run context c = .ok (done, d)) : ∃ l, c.Passes l d := by
  obtain ⟨gap, token, rest, hgap, hread, rfl⟩ := run_advance_eq_ok.1 moved
  obtain ⟨pieces, isGap, whole, -, offset, lineBreak, comments⟩ := exists_pieces hgap
  obtain ⟨s, source, spells, ends, stop⟩ := h.exists_text simple
  refine ⟨⟨c.token, s, pieces⟩, rfl, spells, ⟨isGap, ?_⟩, ?_, ?_, stop, ?_, ?_, rfl, fun context => ?_⟩
  · rw [← whole]
    exact ends
  · rw [source, whole, Lexeme.full, List.append_assoc]
  · simp only [offset, stop, Lexeme.full, Text.width_append]
    omega
  · simpa using lineBreak
  · rw [comments, stop]
  · exact run_advance_eq_ok.2 ⟨gap, token, rest, hgap, hread, rfl⟩

theorem Scanned.passes (h : c.Scanned) (spells : Spells l.token l.text) (leads : l.Leads t)
    (source : c.source = l.full ++ t) {token : Token} {rest : Text} (stop : NoGap t)
    (next : scanToken? t = some (token, rest)) :
    ∃ d, c.Passes l d ∧ d.Scanned ∧ d.source = t ∧ d.token = token := by
  have whole : c.source = l.text ++ (gapText l.gap ++ t) := by
    rw [source, Lexeme.full, List.append_assoc]
  have found := h.scan
  rw [whole, spells.scan _ leads.ends] at found
  simp only [Option.some.injEq, Prod.mk.injEq] at found
  obtain ⟨own, behind⟩ := found
  have hstop : c.stop = c.start + l.text.width := by
    have balance := h.stop
    rw [whole, ← behind, Text.width_append l.text] at balance
    omega
  have skipped := skipGap_gapText leads.gap stop c.stop false c.comments
  rw [behind] at skipped
  obtain ⟨d, hd⟩ : ∃ d : Cursor, d = _ := ⟨_, rfl⟩
  have moved : ∀ context, Parser.advance.run context c = .ok ((), d) := fun context =>
    run_advance_eq_ok.2 ⟨_, token, rest, skipped, next, hd⟩
  have scanned := scanned_of_advance (moved (.module_ ⟨false, false⟩ 0))
  have hsource : d.source = t := by rw [hd]
  refine ⟨d, ⟨own.symm, spells, hsource ▸ leads, hsource ▸ source, ?_, ?_, ?_, ?_, ?_, moved⟩,
    scanned, hsource, ?_⟩
  all_goals subst hd
  · simp only [hstop, Lexeme.full, Text.width_append]
    omega
  · exact hstop
  · exact Bool.false_or _
  · simp only [hstop]
  · rfl
  · rfl

theorem Passes.scanned (h : c.Passes l d) : d.Scanned :=
  scanned_of_advance (h.advance (.module_ ⟨false, false⟩ 0))

namespace Chain

theorem scanned (h : c.Chain ls d) (start : c.Scanned) : d.Scanned := by
  induction h with
  | nil => exact start
  | cons first _ ih => exact ih first.scanned

theorem append (h : c.Chain ls d) (k : d.Chain ms e) : c.Chain (ls ++ ms) e := by
  induction h with
  | nil => exact k
  | cons first _ ih => exact .cons first (ih k)

theorem split (h : c.Chain (ls ++ ms) e) : ∃ d, c.Chain ls d ∧ d.Chain ms e := by
  induction ls generalizing c with
  | nil => exact ⟨c, .nil c, h⟩
  | cons l ls ih =>
      obtain _ | ⟨first, more⟩ := h
      obtain ⟨d, left, right⟩ := ih more
      exact ⟨d, .cons first left, right⟩

theorem source (h : c.Chain ls d) : c.source = fullText ls ++ d.source := by
  induction h with
  | nil => rfl
  | cons first _ ih => rw [first.source, ih, fullText_cons, List.append_assoc]

theorem start (h : c.Chain ls d) : d.start = c.start + (fullText ls).width := by
  induction h with
  | nil => rfl
  | cons first _ ih =>
      rw [ih, first.start, fullText_cons, Text.width_append]
      omega

theorem previous (h : c.Chain ls d) (inhabited : ls ≠ []) :
    d.previous = c.start + (spelled ls).width := by
  induction h with
  | nil => exact absurd rfl inhabited
  | @cons c d e l ls first more ih =>
      cases more with
      | nil => exact first.previous
      | cons next more =>
          rw [ih (by simp), first.start, spelled, Text.width_append]
          omega

theorem comments (h : c.Chain ls d) :
    d.comments = (lexemeComments c.start ls).reverse ++ c.comments := by
  induction h with
  | nil => rfl
  | cons first _ ih =>
      rw [ih, first.comments, lexemeComments, first.start, List.reverse_append, List.append_assoc]

theorem covers (h : c.Chain ls d) : d.covers = c.covers := by
  induction h with
  | nil => rfl
  | cons first _ ih => rw [ih, first.covers]

theorem leads (h : c.Chain ls d) : ∀ l ∈ ls.getLast?, l.Leads d.source := by
  induction h with
  | nil => simp
  | @cons c d e l ls first more ih =>
      cases more with
      | nil => simpa using first.leads
      | cons next more => rwa [List.getLast?_cons_cons]

theorem phrase (h : c.Chain ls d) : Phrase ls := by
  induction h with
  | nil => exact .nil
  | @cons c d e l ls first more ih =>
      refine Phrase.cons_iff.2 ⟨first.spells, fun m hm => ?_, ih⟩
      cases more with
      | nil => cases hm
      | cons next more =>
          obtain rfl := Option.some.inj hm
          refine first.leads.congr ?_
          rw [next.source, Lexeme.full, List.append_assoc,
            List.head?_append_of_ne_nil _ next.spells.ne_nil]

end Chain

theorem Scanned.exists_chain (h : c.Scanned) (phrase : Phrase ls)
    (source : c.source = fullText ls ++ t) (leads : ∀ l ∈ ls.getLast?, l.Leads t)
    {token : Token} {rest : Text} (stop : NoGap t) (next : scanToken? t = some (token, rest)) :
    ∃ d, c.Chain ls d ∧ d.source = t ∧ (ls ≠ [] → d.token = token) := by
  induction ls generalizing c with
  | nil => exact ⟨c, .nil c, source, fun h => absurd rfl h⟩
  | cons l ls ih =>
      obtain ⟨own, first, more⟩ := Phrase.cons_iff.1 phrase
      cases ls with
      | nil =>
          obtain ⟨d, passes, -, hd, htoken⟩ := h.passes own (leads l rfl)
            (by simpa using source) stop next
          exact ⟨d, .cons passes (.nil d), hd, fun _ => htoken⟩
      | cons m ls =>
          have spells := more.spells m (by simp)
          have split : fullText (m :: ls) ++ t = m.text ++ (gapText m.gap ++ (fullText ls ++ t)) := by
            simp [Lexeme.full]
          have behind : m.token.EndsBefore (gapText m.gap ++ (fullText ls ++ t)) := by
            cases ls with
            | nil => exact (leads m rfl).ends
            | cons n ls =>
                have inner := (Phrase.cons_iff.1 more).2.1 n rfl
                have inhabited := (more.spells n (by simp)).ne_nil
                rw [fullText_cons, Lexeme.full, List.append_assoc, List.append_assoc]
                exact (inner.append inhabited _).ends
          have lead : l.Leads (fullText (m :: ls) ++ t) := by
            rw [split]
            exact (first m rfl).append spells.ne_nil _
          have scan : scanToken? (fullText (m :: ls) ++ t) =
              some (m.token, gapText m.gap ++ (fullText ls ++ t)) := by
            rw [split]
            exact spells.scan _ behind
          have noGap : NoGap (fullText (m :: ls) ++ t) := by
            rw [split]
            exact spells.noGap _
          obtain ⟨d, passes, scanned, hd, -⟩ := h.passes own lead
            (by rw [source, fullText_cons, List.append_assoc]) noGap scan
          obtain ⟨e, chain, he, htoken⟩ := ih scanned more hd (by simpa using leads)
          exact ⟨e, .cons passes chain, he, fun _ => htoken (by simp)⟩

end Cursor

end TidyImports.Script
