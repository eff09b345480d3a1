import TidyImports.Proofs.Script.Spacing

/-! Rows of import declarations. The import declarations at the start of a script are passed one after
the other, so their wordings follow each other in its text. Other wordings can stand in their place, with
line breaks between them, if the last one has a semicolon or is set apart from what stands behind it;
then the script is read with their declarations instead, and what stands behind them is read as before. -/
namespace TidyImports.Script

open Script.Parser Script.Grammar

variable {c d e : Cursor} {dialect : Dialect} {limit : Nat} {text t rest : Text} {token : Token} {w : Wording}
  {ws : List Wording} {ls : List Lexeme} {sep last gap : List GapPiece} {types : Bool}

namespace Cursor

theorem Chain.reaches (h : c.Chain ls d) : c.Reaches d := by
  induction h with
  | nil c => exact .refl c
  | cons first _ ih => exact (advance.forward (first.advance (.module_ ⟨false, false⟩ 0))).trans ih

theorem Chain.lineBreak (h : c.Chain ls d) (inhabited : ls ≠ []) :
    d.lineBreak = (lastGap ls).any GapPiece.breaks := by
  induction h with
  | nil => exact absurd rfl inhabited
  | @cons c d e l ls first more ih =>
      cases more with
      | nil => exact first.lineBreak
      | cons next more =>
          rw [ih (by simp), lastGap, lastGap, List.getLast?_cons_cons]

theorem Scanned.here_eq (h : c.Scanned) (k : d.Scanned) (same : c.source = d.source) :
    c.here = d.here := by
  have scan := h.scan
  rw [same, k.scan] at scan
  simp only [Option.some.injEq, Prod.mk.injEq] at scan
  obtain ⟨token, rest⟩ := scan
  have stop : c.stop - c.start = d.stop - d.start := by
    have left := h.stop
    have right := k.stop
    rw [same, ← rest] at left
    omega
  simp [Cursor.here, same, token, rest, stop]

end Cursor

/-! What stands behind a row. -/

/-- Whether an import declaration without a semicolon may end before a text: no token follows, or one
that begins a line and neither attributes nor an empty statement. -/
def standsApart (t : Text) : Bool :=
  match skipGap .blank 0 false [] t with
  | none => false
  | some gap =>
    match scanToken? gap.rest with
    | none => false
    | some (token, _) =>
      token == .finish || gap.lineBreak && token != .word "with" false && token != .symbol ";"

theorem standsApart_gapText (isGap : IsGap t gap) (stop : NoGap t)
    (next : scanToken? t = some (token, rest)) :
    standsApart (gapText gap ++ t) =
      (token == .finish || gap.any GapPiece.breaks && token != .word "with" false &&
        token != .symbol ";") := by
  rw [standsApart, skipGap_gapText isGap stop]
  simp only [next, Bool.false_or]

theorem isGap_lastGap (leads : ∀ l ∈ ls.getLast?, l.Leads t) : IsGap t (lastGap ls) := by
  cases hlast : ls.getLast? with
  | none => rw [lastGap, hlast]; exact .nil
  | some l => rw [lastGap, hlast]; exact (leads l hlast).gap

theorem Cursor.Chain.apart (chain : c.Chain ls d) (scanned : c.Scanned) (inhabited : ls ≠ [])
    (apart : standsApart (gapText (lastGap ls) ++ d.source) = true) : d.Apart := by
  have behind := chain.scanned scanned
  rw [standsApart_gapText (isGap_lastGap chain.leads) behind.noGap behind.scan] at apart
  simp only [Bool.or_eq_true, Bool.and_eq_true, beq_iff_eq, bne_iff_ne] at apart
  rcases apart with finish | ⟨⟨breaks, noAttributes⟩, noSemicolon⟩
  · exact .inl finish
  · exact .inr ⟨(chain.lineBreak inhabited).trans breaks, noAttributes, noSemicolon⟩

/-! Rows of wordings. -/

/-- The cursor moves past import declarations in words. -/
inductive Row (types : Bool) : Cursor → List Wording → Cursor → Prop
  | nil (c : Cursor) : Row types c [] c
  | cons {c d e : Cursor} {w : Wording} {ws : List Wording} (valid : w.Valid types)
    (chain : c.Chain w.lexemes d) (apart : w.ending = [] → d.Apart) (more : Row types d ws e) :
    Row types c (w :: ws) e

def rowLexemes (ws : List Wording) : List Lexeme := ws.flatMap Wording.lexemes

def rowItems (offset : Nat) : List Wording → List TopStatement
  | [] => []
  | w :: ws => w.item offset :: rowItems (offset + (fullText w.lexemes).width) ws

theorem rowItems_append (n : Nat) (ws vs : List Wording) :
    rowItems n (ws ++ vs) = rowItems n ws ++ rowItems (n + (fullText (rowLexemes ws)).width) vs := by
  induction ws generalizing n with
  | nil => rfl
  | cons w ws ih =>
      simp only [List.cons_append, rowItems, ih, rowLexemes, List.flatMap_cons, fullText_append,
        Text.width_append, Nat.add_assoc]

theorem exports_rowItems (n : Nat) (ws : List Wording) :
    (rowItems n ws).flatMap TopStatement.exports = [] := by
  induction ws generalizing n with
  | nil => rfl
  | cons w ws ih => exact ih _

def spaced (sep last : List GapPiece) : List Wording → List Wording
  | [] => []
  | [w] => [w.withGap last]
  | w :: v :: ws => w.withGap sep :: spaced sep last (v :: ws)

theorem Wording.Valid.token_of_chain (valid : w.Valid types) (chain : c.Chain w.lexemes d) :
    c.token = .word "import" false := by
  obtain ⟨l, m, more, hw, word, -⟩ := valid.opens
  rw [hw] at chain
  obtain _ | ⟨first, -⟩ := chain
  rw [first.token, word]

theorem Row.reads {items : List TopStatement} (row : Row dialect.types c ws d) (scanned : c.Scanned)
    (more : Reads topStep (.module_ dialect limit) d items e) :
    Reads topStep (.module_ dialect limit) c (rowItems c.start ws ++ items) e := by
  induction row with
  | nil => exact more
  | @cons c d _ w ws valid chain apart _ ih =>
      have read : nextStatement.run (.module_ dialect limit) c = .ok (w.item c.start, d) :=
        run_nextStatement_of_wording valid scanned chain apart
      have unfinished : c.token ≠ .finish := by simp [valid.token_of_chain chain]
      have behind := ih (chain.scanned scanned) more
      rw [chain.start] at behind
      exact .item (run_topStep_eq_ok.2 (.inr ⟨unfinished, _, read, rfl⟩)) behind

theorem Row.chain (row : Row types c ws d) : c.Chain (rowLexemes ws) d := by
  induction row with
  | nil c => exact .nil c
  | cons _ chain _ _ ih => exact chain.append ih

/-- A gap that ends a line, whatever follows, and before which every token ends. -/
structure Separates (sep : List GapPiece) : Prop where
  steady : Steady sep
  breaks : sep.any GapPiece.breaks = true
  ends : ∀ t, EndsAll (gapText sep ++ t)

theorem spaced_ne_nil (h : ws ≠ []) : spaced sep last ws ≠ [] := by
  match ws with
  | [_] | _ :: _ :: _ => simp [spaced]

theorem rowLexemes_ne_nil (h : ws ≠ []) : rowLexemes ws ≠ [] := by
  obtain ⟨w, more, rfl⟩ := List.exists_cons_of_ne_nil h
  simp [rowLexemes, w.lexemes_ne_nil]

theorem fullText_spaced (sep last : List GapPiece) (h : ws ≠ []) :
    fullText (rowLexemes (spaced sep last ws)) =
      Text.glue (gapText sep) (ws.map fun w => spelled w.lexemes) ++ gapText last := by
  have own (gap : List GapPiece) (w : Wording) :
      fullText (w.withGap gap).lexemes = spelled w.lexemes ++ gapText gap := by
    rw [fullText_eq, w.spelled_withGap, w.lastGap_withGap]
  induction ws using spaced.induct with
  | case1 => exact absurd rfl h
  | case2 w => simp [spaced, rowLexemes, own, Text.glue]
  | case3 w v ws ih =>
      have more := ih (by simp)
      rw [spaced, rowLexemes, List.flatMap_cons, fullText_append, own, ← rowLexemes, more]
      simp [Text.glue]

theorem phrase_spaced (separates : Separates sep) (phrases : ∀ w ∈ ws, Phrase w.lexemes) :
    Phrase (rowLexemes (spaced sep last ws)) := by
  induction ws using spaced.induct with
  | case1 => exact .nil
  | case2 w => simpa [spaced, rowLexemes, Wording.phrase_withGap_iff] using phrases
  | case3 w v ws ih =>
      obtain ⟨own, others⟩ := List.forall_mem_cons.1 phrases
      have gap := w.lastGap_withGap sep
      refine .append (Wording.phrase_withGap_iff.2 own) (ih others) ?_ ?_
      · rw [gap]
        exact separates.steady
      · rw [gap]
        exact fun m _ => separates.ends m.text

theorem Wording.Valid.lastToken (valid : w.Valid types) : ∀ l ∈ w.lexemes.getLast?,
    (∃ value, l.token = .string value) ∨ l.token = .symbol "\x7d" ∨
      w.ending ≠ [] ∧ l.token = .symbol ";" := by
  obtain ⟨opening, binders, source, attributes, ending, value, isType, hasPhase⟩ := w
  have literal : source.token = .string value := valid.source
  have attributes' := valid.attributes
  obtain none | ⟨l, only, semicolon⟩ := valid.ending <;> simp only at *
  · subst none
    cases attributes' with
    | none => simp [Wording.lexemes, List.getLast?_append, literal]
    | some _ _ _ closes => simp [Wording.lexemes, List.getLast?_append, List.getLast?_cons, closes]
  · subst only
    simp [Wording.lexemes, List.getLast?_append, List.getLast?_cons, semicolon]

theorem Wording.Valid.endsBefore (valid : w.Valid types) (t : Text) :
    ∀ l ∈ w.lexemes.getLast?, l.token.EndsBefore t := by
  intro l hl
  rcases valid.lastToken l hl with ⟨value, token⟩ | token | ⟨-, token⟩ <;> rw [token]
  · trivial
  · exact fun star => absurd star (by decide)
  · exact fun star => absurd star (by decide)

theorem Wording.Valid.ending_ne_nil (valid : w.Valid types) (phrase : Phrase w.lexemes)
    (semicolon : (spelled w.lexemes).getLast? = some ';') : w.ending ≠ [] := by
  obtain ⟨init, l, whole⟩ := (List.eq_nil_or_concat' w.lexemes).resolve_left w.lexemes_ne_nil
  have spells := phrase.spells l (by simp [whole])
  rw [whole, spelled_append _ (by simp), spelled,
    List.getLast?_append_of_ne_nil _ spells.ne_nil] at semicolon
  rcases valid.lastToken l (by simp [whole]) with ⟨value, token⟩ | token | ⟨ending, -⟩
  · rw [token] at spells
    obtain ⟨quote, body, quoted, written⟩ := (scanToken?_eq_some (spells.scan [] trivial)).2
    rw [List.append_nil] at written
    rw [written, List.getLast?_concat] at semicolon
    rcases quoted with rfl | rfl <;> simp at semicolon
  · rw [token] at spells
    rw [spells.eq_mark (by decide)] at semicolon
    simp at semicolon
  · exact ending

theorem Wording.Valid.scan (valid : w.Valid types) (phrase : Phrase w.lexemes) (t : Text) :
    ∃ rest, scanToken? (spelled w.lexemes ++ t) = some (.word "import" false, rest) ∧
      NoGap (spelled w.lexemes ++ t) ∧ (spelled w.lexemes ++ t).head? = some 'i' := by
  obtain ⟨l, m, more, whole, word, -⟩ := valid.opens
  rw [whole] at phrase ⊢
  have spells := phrase.spells l (by simp)
  have inhabited := (phrase.spells m (by simp)).ne_nil
  have leads := phrase.leads_spelled.append (u := t) (by
    cases more <;> simp [spelled, Lexeme.full, inhabited])
  rw [word] at spells
  have split : spelled (l :: m :: more) ++ t =
      l.text ++ (gapText l.gap ++ (spelled (m :: more) ++ t)) := by
    rw [spelled, Lexeme.full, List.append_assoc, List.append_assoc]
  rw [split]
  have ends := leads.ends
  rw [word] at ends
  exact ⟨_, spells.scan _ ends, spells.noGap _, by simp [spells.eq_name]⟩

theorem Wording.Valid.spelled_ne_nil (valid : w.Valid types) (phrase : Phrase w.lexemes) :
    spelled w.lexemes ≠ [] := by
  intro empty
  obtain ⟨rest, -, -, head⟩ := valid.scan phrase []
  simp [empty] at head

theorem leads_spaced (valid : ∀ w ∈ ws, w.Valid types) (isGap : IsGap t last) :
    ∀ l ∈ (rowLexemes (spaced sep last ws)).getLast?, l.Leads t := by
  induction ws using spaced.induct with
  | case1 => simp [spaced, rowLexemes]
  | case2 w =>
      intro l hl
      have only : rowLexemes (spaced sep last [w]) = (w.withGap last).lexemes := by
        simp [spaced, rowLexemes]
      rw [only] at hl
      have gap : l.gap = last := by
        have gap := w.lastGap_withGap last
        rwa [lastGap, Option.mem_def.1 hl] at gap
      exact ⟨gap ▸ isGap, (w.valid_withGap last (valid w (by simp))).endsBefore _ l hl⟩
  | case3 w v ws ih =>
      have behind : rowLexemes (spaced sep last (v :: ws)) ≠ [] :=
        rowLexemes_ne_nil (spaced_ne_nil (by simp))
      rw [spaced, rowLexemes, List.flatMap_cons, ← rowLexemes, List.getLast?_append_of_ne_nil _ behind]
      exact ih (List.forall_mem_cons.1 valid).2

theorem row_of_chain (separates : Separates sep) (valid : ∀ w ∈ ws, w.Valid types)
    (chain : c.Chain (rowLexemes (spaced sep last ws)) d) (scanned : c.Scanned)
    (apart : ∀ w ∈ ws.getLast?, w.ending = [] → standsApart (gapText last ++ d.source) = true) :
    Row types c (spaced sep last ws) d := by
  induction ws using spaced.induct generalizing c with
  | case1 =>
      cases chain
      exact .nil _
  | case2 w =>
      have own : c.Chain (w.withGap last).lexemes d := by simpa [spaced, rowLexemes] using chain
      refine .cons (w.valid_withGap last (valid w (by simp))) own (fun none => ?_) (.nil d)
      refine own.apart scanned (w.withGap last).lexemes_ne_nil ?_
      rw [w.lastGap_withGap]
      exact apart w rfl ((w.ending_withGap_eq_nil_iff last).1 none)
  | case3 w v ws ih =>
      obtain ⟨own, others⟩ := List.forall_mem_cons.1 valid
      rw [spaced, rowLexemes, List.flatMap_cons, ← rowLexemes] at chain
      obtain ⟨e, first, more⟩ := chain.split
      have row := ih others more (first.scanned scanned) (by simpa using apart)
      -- Behind a line break stands the word `import`.
      have word : e.token = .word "import" false := by
        obtain ⟨u, us, hus⟩ := List.exists_cons_of_ne_nil
          (spaced_ne_nil (by simp) : spaced sep last (v :: ws) ≠ [])
        rw [hus] at row
        obtain _ | ⟨valid, chain, -, -⟩ := row
        exact valid.token_of_chain chain
      refine .cons (w.valid_withGap sep own) first (fun _ => .inr ⟨?_, by simp [word]⟩) row
      rw [first.lineBreak (w.withGap sep).lexemes_ne_nil, w.lastGap_withGap, separates.breaks]

theorem exists_row (separates : Separates sep) (inhabited : ws ≠ [])
    (valid : ∀ w ∈ ws, w.Valid types ∧ Phrase w.lexemes) (scanned : c.Scanned)
    (source : c.source = Text.glue (gapText sep) (ws.map fun w => spelled w.lexemes) ++
      (gapText last ++ t)) (isGap : IsGap t last) (stop : NoGap t)
    (next : scanToken? t = some (token, rest))
    (apart : ∀ w ∈ ws.getLast?, w.ending = [] → standsApart (gapText last ++ t) = true) :
    ∃ d, Row types c (spaced sep last ws) d ∧ d.source = t := by
  rw [← List.append_assoc, ← fullText_spaced sep last inhabited] at source
  obtain ⟨d, chain, behind, -⟩ := scanned.exists_chain
    (phrase_spaced separates fun w hw => (valid w hw).2) source
    (leads_spaced (fun w hw => (valid w hw).1) isGap) stop next
  exact ⟨d, row_of_chain separates (fun w hw => (valid w hw).1) chain scanned (behind ▸ apart), behind⟩

/-! Rows at the start of scripts. -/

theorem exists_wordings_of_reads {items behind : List TopStatement}
    (h : Reads topStep (.module_ dialect limit) c (items ++ behind) d) (fits : c.Fits text)
    (importing : ∀ item ∈ items, ∃ x, item.statement.kind = .importing x) :
    ∃ ws e, (∀ w ∈ ws, w.Valid dialect.types) ∧ items = rowItems c.start ws ∧
      c.Chain (rowLexemes ws) e ∧ Reads topStep (.module_ dialect limit) e behind d := by
  induction items generalizing c with
  | nil => exact ⟨[], c, by simp, rfl, .nil c, h⟩
  | cons item items ih =>
      obtain ⟨⟨x, hx⟩, others⟩ := List.forall_mem_cons.1 importing
      obtain _ | ⟨step, more⟩ := h
      obtain ⟨-, found, -⟩ | ⟨-, item, hnext, found⟩ := run_topStep_eq_ok.1 step
      · cases found
      cases found
      obtain ⟨w, valid, chain, rfl⟩ := exists_wording_of_nextStatement hnext fits hx
      obtain ⟨ws, e, valids, rfl, behind, reads⟩ := ih more (chain.reaches text fits).1 others
      refine ⟨w :: ws, e, List.forall_mem_cons.2 ⟨valid, valids⟩, ?_, ?_, reads⟩
      · rw [rowItems, chain.start]
      · exact chain.append behind

end TidyImports.Script
