import TidyImports.Proofs.Script.Wordings

/-! Texts further to the right. A statement is read as if the text began with it, so what is read from a
text says the same wherever this text stands, and only its offsets are others: a cursor passes the same
lexemes, an import declaration has the same wording, and any other statement has the same parts. -/
namespace TidyImports.Script

open Script.Parser Script.Grammar

variable {context : Context} {c c' d e : Cursor} {dialect : Dialect} {limit limit' : Nat} {text : Text}
  {declaration : ImportDeclaration} {w : Wording} {l : Lexeme} {ls : List Lexeme} {n : Nat}

theorem shift_ofBounds (start stop n : Nat) :
    (Edit.Span.ofBounds start stop).shift n = Edit.Span.ofBounds (start + n) (stop + n) := by
  simp [Edit.Span.shift, Edit.Span.ofBounds, Nat.add_sub_add_right]

theorem gapComments_shift (offset n : Nat) (pieces : List GapPiece) :
    gapComments (offset + n) pieces = (gapComments offset pieces).map (Edit.Span.shift n) := by
  induction pieces generalizing offset with
  | nil => rfl
  | cons piece pieces ih =>
      have behind := ih (offset + piece.text.width)
      rw [Nat.add_right_comm] at behind
      simp only [gapComments, behind]
      split
      · rw [List.map_cons, shift_ofBounds, Nat.add_right_comm]
      · rfl

/-! Import declarations. -/

theorem specifiers_shift (offset n : Nat) (items : List (Listed Naming)) :
    Listed.valuesAt Naming.specifier (offset + n) items =
      (Listed.valuesAt Naming.specifier offset items).map (ImportSpecifier.shift n) := by
  induction items generalizing offset with
  | nil => rfl
  | cons item items ih =>
      rw [Listed.valuesAt, Listed.valuesAt, List.map_cons, ← ih, Nat.add_right_comm offset n,
        Nat.add_right_comm offset n, Naming.specifier, ← shift_ofBounds]
      rfl

theorem Tail.specifiers_shift (offset n : Nat) (tail : Tail) :
    tail.specifiers (offset + n) = (tail.specifiers offset).map (ImportSpecifier.shift n) := by
  cases tail with
  | whole star as name =>
      rw [Tail.specifiers, Nat.add_right_comm, ← shift_ofBounds]
      rfl
  | braces opening items closing =>
      rw [Tail.specifiers, Nat.add_right_comm, Script.specifiers_shift]
      rfl

theorem Binders.specifiers_shift (offset n : Nat) (binders : Binders) :
    binders.specifiers (offset + n) = (binders.specifiers offset).map (ImportSpecifier.shift n) := by
  have default (name : Lexeme) :
      Binders.defaultAt (offset + n) name = (Binders.defaultAt offset name).shift n := by
    rw [Binders.defaultAt, Nat.add_right_comm, ← shift_ofBounds]
    rfl
  cases binders with
  | default name => rw [Binders.specifiers, default]; rfl
  | tail rest => exact rest.specifiers_shift offset n
  | both name comma rest =>
      rw [Binders.specifiers, default, Nat.add_right_comm offset, Nat.add_right_comm (offset + _),
        rest.specifiers_shift]
      rfl

theorem Wording.declaration_shift (offset n : Nat) (w : Wording) :
    w.declaration (offset + n) = (w.declaration offset).shift n := by
  have at_source : w.sourceAt (offset + n) = w.sourceAt offset + n := by
    simp only [Wording.sourceAt]
    omega
  have specifiers : w.specifiers (offset + n) = (w.specifiers offset).map (ImportSpecifier.shift n) := by
    rw [Wording.specifiers, Wording.specifiers, Nat.add_right_comm]
    cases w.binders with
    | none => rfl
    | some found => exact found.1.specifiers_shift _ n
  have attributes (offset : Nat) (ls : List Lexeme) :
      attributesSpan? (offset + n) ls = (attributesSpan? offset ls).map (Edit.Span.shift n) := by
    cases ls with
    | nil => rfl
    | cons keyword rest =>
        rw [attributesSpan?, attributesSpan?, Option.map_some, shift_ofBounds]
        simp only [Nat.add_right_comm offset n, Nat.add_right_comm (offset + _) n]
  simp only [Wording.declaration, at_source, specifiers, ImportDeclaration.shift, SourceLiteral.shift,
    shift_ofBounds, ← attributes, Nat.add_right_comm _ n]

theorem ImportSpecifier.outline_shift (isType : Bool) (n : Nat) (s : ImportSpecifier) :
    specifierOutline isType (s.shift n) = specifierOutline isType s := by
  cases s <;> rfl

theorem ImportDeclaration.outline_shift (n : Nat) (d : ImportDeclaration) :
    (d.shift n).outline = d.outline := by
  have same : specifierOutline d.isType ∘ ImportSpecifier.shift n = specifierOutline d.isType :=
    funext fun s => s.outline_shift d.isType n
  simp only [ImportDeclaration.outline, ImportDeclaration.shift, List.map_map, same]

def Wording.item (offset : Nat) (w : Wording) : TopStatement :=
  ⟨⟨(w.declaration offset).span, .importing (w.declaration offset)⟩, (w.declaration offset).outline, []⟩

theorem Wording.item_shift (offset n : Nat) (w : Wording) :
    w.item (offset + n) = (w.item offset).shift n := by
  simp only [Wording.item, w.declaration_shift, ImportDeclaration.outline_shift]
  rfl

/-! Cursors. -/

theorem Cursor.Passes.behind (h : d.Passes l e) (c : Cursor) : (c.behind d).Passes l (c.behind e) := by
  refine ⟨h.token, h.spells, h.leads, h.source, ?_, ?_, h.lineBreak, ?_, ?_, fun context => ?_⟩
  · simp only [Cursor.behind, h.start, Nat.add_right_comm]
  · simp only [Cursor.behind, h.previous, Nat.add_right_comm]
  · simp only [Cursor.behind, h.comments, List.map_append, List.map_reverse, List.append_assoc,
      ← gapComments_shift, Nat.add_right_comm]
  · simp only [Cursor.behind, h.covers]
  · obtain ⟨gap, token, rest, skipped, read, rfl⟩ := run_advance_eq_ok.1 (h.advance context)
    obtain ⟨pieces, isGap, whole, stop, offset, lineBreak, comments⟩ := exists_pieces skipped
    have moved := skipGap_gapText isGap stop (d.stop + c.start) false
      (d.comments.map (Edit.Span.shift c.start) ++ c.comments)
    rw [← whole, gapComments_shift] at moved
    refine run_advance_eq_ok.2 ⟨_, token, rest, moved, read, ?_⟩
    simp only [Cursor.behind, offset, lineBreak, comments, List.map_append, List.map_reverse,
      List.append_assoc, Nat.add_right_comm]

theorem Cursor.Chain.behind (h : d.Chain ls e) (c : Cursor) :
    (c.behind d).Chain ls (c.behind e) := by
  induction h with
  | nil d => exact .nil _
  | cons first _ ih => exact .cons (first.behind c) ih

theorem Cursor.Scanned.start_le (h : c.Scanned) : c.start ≤ c.stop := by
  obtain ⟨head, whole⟩ := (scanToken?_eq_some h.scan).1
  have balance := h.stop
  rw [← whole, Text.width_append] at balance
  omega

theorem Cursor.Scanned.here (h : c.Scanned) : c.here.Scanned := by
  refine ⟨h.scan, h.noGap, ?_⟩
  have balance := h.stop
  have order := h.start_le
  simp only [Cursor.here]
  omega

theorem Cursor.passes_congr {lineBreak : Bool} {previous : Nat} :
    { c with lineBreak, previous }.Passes l d ↔ c.Passes l d :=
  ⟨fun ⟨token, spells, leads, source, start, before, broken, comments, covers, advance⟩ =>
      ⟨token, spells, leads, source, start, before, broken, comments, covers, advance⟩,
    fun ⟨token, spells, leads, source, start, before, broken, comments, covers, advance⟩ =>
      ⟨token, spells, leads, source, start, before, broken, comments, covers, advance⟩⟩

theorem Cursor.Scanned.behind_here (h : c.Scanned) :
    c.behind c.here = { c with lineBreak := false, previous := c.start } := by
  have same : c.stop - c.start + c.start = c.stop := Nat.sub_add_cancel h.start_le
  simp [Cursor.behind, Cursor.here, same]

theorem Cursor.Scanned.chain_of_here (h : c.Scanned) (chain : c.here.Chain ls e)
    (inhabited : ls ≠ []) : c.Chain ls (c.behind e) := by
  obtain ⟨l, ls, rfl⟩ := List.exists_cons_of_ne_nil inhabited
  obtain _ | ⟨first, more⟩ := chain.behind c
  rw [h.behind_here] at first
  exact .cons (Cursor.passes_congr.1 first) more

theorem Cursor.Chain.unique (h : c.Chain ls d) (k : c.Chain ls e) : d = e := by
  induction h with
  | nil =>
      cases k
      rfl
  | cons first _ ih =>
      obtain _ | ⟨first', more⟩ := k
      cases (first.advance (.module_ ⟨false, false⟩ 0)).symm.trans (first'.advance _)
      exact ih more

theorem Cursor.Chain.exists_here (h : c.Chain ls d) (scanned : c.Scanned) (inhabited : ls ≠ []) :
    ∃ e, c.here.Chain ls e ∧ d = c.behind e := by
  obtain ⟨e, chain, -⟩ := scanned.here.exists_chain h.phrase h.source h.leads
    (h.scanned scanned).noGap (h.scanned scanned).scan
  exact ⟨e, chain, h.unique (scanned.chain_of_here chain inhabited)⟩

/-! Statements. -/

theorem scanned_of_import (fits : c.Fits text) (word : c.token = .word "import" false) :
    c.Scanned := by
  have opens := fits.opens
  rw [word] at opens
  obtain ⟨-, spelled, ends⟩ := opens
  have source := spelled rfl
  have spells : Spells (.word "import" false) "import".toList := spells_word (by decide)
  have size := fits.source.add_width
  have size' := fits.rest.add_width
  refine ⟨?_, ?_, by omega⟩
  · rw [source, word]
    exact spells.scan _ ends
  · rw [source]
    exact spells.noGap _

theorem importStatement_of_topStatement {sub : Sub} {item : TopStatement}
    (h : (topStatement sub).run context c = .ok (item, d)) (fits : c.Fits text)
    (importing : item.statement.kind = .importing declaration) :
    ∃ result, importStatement.run context c = .ok (result, d) ∧
      item = ⟨⟨Edit.Span.ofBounds c.start d.previous, result.1⟩, result.2, []⟩ := by
  unfold topStatement at h
  obtain ⟨_, _, hc, h⟩ := run_bind_eq_ok.1 h
  obtain ⟨rfl, rfl⟩ := run_cursor_eq_ok.1 hc
  obtain ⟨isImport, _, hahead, h⟩ := run_bind_eq_ok.1 h
  obtain rfl := cursor_of_ahead hahead
  split at h
  · obtain ⟨result, e, himport, h⟩ := run_bind_eq_ok.1 h
    obtain ⟨span, _, hspan, h⟩ := run_bind_eq_ok.1 h
    obtain ⟨rfl, rfl⟩ := run_spanFrom_eq_ok.1 hspan
    obtain ⟨rfl, rfl⟩ := run_pure_eq_ok.1 h
    exact ⟨result, himport, rfl⟩
  · have other {start : Nat} {p : Parser Exported}
        (hp : p.From text c.start (Exported.Placed text c.start)) :
        (do
          let exported ← p
          return ⟨⟨← spanFrom start, exported.kind⟩, exported.piece.outline, exported.names⟩ :
            Parser TopStatement).From text c.start fun _ item =>
              ∀ x, item.statement.kind ≠ .importing x :=
      hp.bind fun placed => .skip fun _ => .yield fun _ _ => placed.2
    have none : ∀ x, item.statement.kind ≠ .importing x := by
      refine From.of_run (P := fun _ (item : TopStatement) =>
        ∀ x, item.statement.kind ≠ .importing x) ?_ fits (Nat.le_refl _) h
      refine .skip fun isExport => .skip fun isDecorated => ?_
      split
      · refine .skip fun isDecorated => ?_
        split
        · exact other from_decoratedStatement
        · exact other from_exportStatement
      · exact .skip fun piece => .skip fun span => .yield fun _ => by simp
    exact absurd importing (none declaration)

theorem exists_wording_of_nextStatement {item : TopStatement}
    (h : nextStatement.run (.module_ dialect limit) c = .ok (item, d)) (fits : c.Fits text)
    (importing : item.statement.kind = .importing declaration) :
    ∃ w : Wording, w.Valid dialect.types ∧ c.Chain w.lexemes d ∧ item = w.item c.start := by
  obtain ⟨own, e, hown, -, rfl, rfl⟩ := run_nextStatement_eq_ok.1 h
  obtain ⟨first, kind⟩ : ∃ first, own.statement.kind = .importing first := by
    have moved : own.statement.kind.shift c.start = .importing declaration := importing
    cases hkind : own.statement.kind <;> simp_all [StatementKind.shift]
  obtain ⟨result, run, rfl⟩ := importStatement_of_topStatement hown fits.here kind
  have word : c.here.token = .word "import" false := by
    obtain ⟨_, _, hcursor, run⟩ := run_bind_eq_ok.1 run
    obtain ⟨rfl, rfl⟩ := run_cursor_eq_ok.1 hcursor
    obtain ⟨_, _, hword, -⟩ := run_bind_eq_ok.1 run
    exact (run_needWord_eq_ok.1 hword).1
  obtain ⟨w, valid, chain, rfl, outline⟩ :=
    exists_wording_of_importStatement run (scanned_of_import fits.here word) kind
  refine ⟨w, valid, (scanned_of_import fits word).chain_of_here chain (by simp [Wording.lexemes]), ?_⟩
  have start : c.here.start = 0 := rfl
  have stop := chain.previous (by simp [Wording.lexemes])
  obtain ⟨kind', outline'⟩ := result
  obtain rfl : kind' = _ := kind
  obtain rfl : outline' = _ := outline
  rw [stop, start, ← Nat.zero_add c.start, w.item_shift, Nat.zero_add c.start]
  rfl

theorem Wording.Valid.opens {types : Bool} (valid : w.Valid types) :
    ∃ l m more, w.lexemes = l :: m :: more ∧ l.token = .word "import" false ∧
      ((∃ name escaped, m.token = .word name escaped) ∨ (∃ value, m.token = .string value) ∨
        m.token = .symbol "*" ∨ m.token = .symbol "\x7b") := by
  have named {token : Token} (binding : token.isBinding = true) :
      ∃ name escaped, token = .word name escaped := by
    cases token <;> simp_all [Token.isBinding]
  obtain ⟨opening, binders, source, attributes, ending, value, isType, hasPhase⟩ := w
  have tokens := valid.opening
  simp only at tokens
  generalize htokens : opening.map Lexeme.token = row at tokens
  cases tokens with
  | plain =>
      obtain ⟨l, rfl, token⟩ := List.map_eq_singleton_iff.1 htokens
      cases binders with
      | none => exact ⟨l, source, _, rfl, token, .inr (.inl ⟨value, valid.source⟩)⟩
      | some found =>
          obtain ⟨binders, from'⟩ := found
          cases (valid.binders binders from' rfl).1 with
          | default binding => exact ⟨l, _, _, rfl, token, .inl (named binding)⟩
          | tail more =>
              cases more with
              | whole mark _ _ => exact ⟨l, _, _, rfl, token, .inr (.inr (.inl mark))⟩
              | braces opens _ _ => exact ⟨l, _, _, rfl, token, .inr (.inr (.inr opens))⟩
          | both binding _ _ _ => exact ⟨l, _, _, rfl, token, .inl (named binding)⟩
  | typed =>
      obtain ⟨l, ls, rfl, token, hls⟩ := List.map_eq_cons_iff.1 htokens
      obtain ⟨m, rfl, token'⟩ := List.map_eq_singleton_iff.1 hls
      exact ⟨l, m, _, rfl, token, .inl ⟨_, _, token'⟩⟩
  | phase =>
      obtain ⟨l, ls, rfl, token, hls⟩ := List.map_eq_cons_iff.1 htokens
      obtain ⟨m, rfl, token'⟩ := List.map_eq_singleton_iff.1 hls
      exact ⟨l, m, _, rfl, token, .inl ⟨_, _, token'⟩⟩

theorem run_startsImport {l m : Lexeme} (first : c.Passes l d) (second : d.Passes m e)
    (word : l.token = .word "import" false)
    (follows : (∃ name escaped, m.token = .word name escaped) ∨ (∃ value, m.token = .string value) ∨
        m.token = .symbol "*" ∨ m.token = .symbol "\x7b") :
    startsImport.run context c = .ok (true, c) := by
  refine run_ahead_eq_ok.2 ⟨succeeds_of_run (d := d) ?_, rfl⟩
  refine run_bind_eq_ok.2 ⟨(), d, run_needWord_eq_ok.2 ⟨by rw [first.token, word], first.advance _⟩, ?_⟩
  refine run_bind_eq_ok.2 ⟨_, d, run_token_eq_ok.2 ⟨second.token, rfl⟩, ?_⟩
  rcases follows with ⟨name, escaped, token⟩ | ⟨value, token⟩ | token | token <;> rw [token] <;> rfl

theorem length_le_of_phrase {ls : List Lexeme} (h : Phrase ls) : ls.length ≤ (fullText ls).length := by
  induction ls with
  | nil => exact Nat.le_refl _
  | cons l ls ih =>
      obtain ⟨own, -, more⟩ := Phrase.cons_iff.1 h
      have inhabited := List.length_pos_of_ne_nil own.ne_nil
      have rest := ih more
      simp only [List.length_cons, fullText_cons, Lexeme.full, List.length_append]
      omega

theorem run_nextStatement_of_wording (valid : w.Valid dialect.types) (scanned : c.Scanned)
    (chain : c.Chain w.lexemes d) (apart : w.ending = [] → d.Apart) :
    nextStatement.run (.module_ dialect limit) c = .ok (w.item c.start, d) := by
  have inhabited : w.lexemes ≠ [] := by simp [Wording.lexemes]
  obtain ⟨e, chain', rfl⟩ := chain.exists_here scanned inhabited
  have bound : w.lexemes.length < c.source.length + 4 := by
    have lexemes := length_le_of_phrase chain.phrase
    have whole := congrArg List.length chain.source
    rw [List.length_append] at whole
    omega
  have run := run_importStatement valid chain' apart bound
  have starts : startsImport.run (.module_ dialect (c.source.length + 4)) c.here = .ok (true, c.here) := by
    obtain ⟨l, m, more, hw, word, follows⟩ := valid.opens
    rw [hw] at chain'
    obtain _ | ⟨first, _ | ⟨second, -⟩⟩ := chain'
    exact run_startsImport first second word follows
  have start : c.here.start = 0 := rfl
  have stop := chain'.previous inhabited
  have moved : 0 < e.start := by
    have behind := chain'.start
    have width : (fullText w.lexemes).width ≠ 0 := by
      intro none
      have empty := length_le_of_phrase chain.phrase
      rw [Text.nil_of_width none, List.length_nil, Nat.le_zero, List.length_eq_zero_iff] at empty
      exact inhabited empty
    omega
  have item : w.item c.start = (w.item 0).shift c.start := by
    rw [← w.item_shift, Nat.zero_add]
  refine run_nextStatement_eq_ok.2 ⟨w.item 0, e, ?_, moved, item, rfl⟩
  refine run_bind_eq_ok.2 ⟨c.here, c.here, run_cursor_eq_ok.2 ⟨rfl, rfl⟩, ?_⟩
  refine run_bind_eq_ok.2 ⟨true, c.here, starts, run_bind_eq_ok.2 ⟨_, e, run, ?_⟩⟩
  refine run_bind_eq_ok.2 ⟨_, e, run_spanFrom_eq_ok.2 ⟨rfl, rfl⟩, ?_⟩
  rw [stop]
  rfl

/-! Other statements. -/

theorem shift_shift (m n : Nat) (s : Edit.Span) : (s.shift m).shift n = s.shift (m + n) := by
  simp only [Edit.Span.shift, Nat.add_assoc]

theorem ImportSpecifier.shift_shift (m n : Nat) (s : ImportSpecifier) :
    (s.shift m).shift n = s.shift (m + n) := by
  cases s <;> simp only [ImportSpecifier.shift, Script.shift_shift]

theorem StatementKind.shift_shift (m n : Nat) (kind : StatementKind) :
    (kind.shift m).shift n = kind.shift (m + n) := by
  cases kind with
  | importing d =>
      simp only [StatementKind.shift, ImportDeclaration.shift, SourceLiteral.shift, List.map_map,
        Option.map_map, Function.comp_def, Script.shift_shift, ImportSpecifier.shift_shift]
  | sourced source => simp only [StatementKind.shift, SourceLiteral.shift, Script.shift_shift]
  | other => rfl

theorem TopStatement.shift_shift (m n : Nat) (item : TopStatement) :
    (item.shift m).shift n = item.shift (m + n) := by
  simp only [TopStatement.shift, Statement.shift, StatementKind.shift_shift, Script.shift_shift]

theorem Cursor.token_eq_of_here (same : c'.here = c.here) : c'.token = c.token := by
  have : c'.here.token = c.here.token := by rw [same]
  exact this

theorem Cursor.source_eq_of_here (same : c'.here = c.here) : c'.source = c.source := by
  have : c'.here.source = c.here.source := by rw [same]
  exact this

theorem Cursor.here_behind (c d : Cursor) : (c.behind d).here = d.here := by
  simp [Cursor.here, Cursor.behind, Nat.add_sub_add_right]

/-- What is read behind one text is read behind another one, and says the same further to the left or
right. -/
theorem reads_elsewhere {items : List TopStatement} (limit' : Nat)
    (h : Reads topStep (.module_ dialect limit) c items d) (same : c'.here = c.here) :
    ∃ (own : List TopStatement) (comments : List Edit.Span) (covers : List Nat) (d' : Cursor),
      items = own.map (TopStatement.shift c.start) ∧
      Reads topStep (.module_ dialect limit') c' (own.map (TopStatement.shift c'.start)) d' ∧
      d.comments = comments.map (Edit.Span.shift c.start) ++ c.comments ∧
      d'.comments = comments.map (Edit.Span.shift c'.start) ++ c'.comments ∧
      d.covers = covers.map (· + c.start) ++ c.covers ∧
      d'.covers = covers.map (· + c'.start) ++ c'.covers := by
  -- By induction on the statements: each is read as if the text began with it, so both runs of it are
  -- one, and behind it the texts are the same again.
  induction h generalizing c' with
  | @declined c d h =>
      have token := Cursor.token_eq_of_here same
      rcases run_topStep_eq_ok.1 h with ⟨finish, -, rfl⟩ | ⟨-, _, -, found⟩
      · refine ⟨[], [], [], c', rfl, .declined (run_topStep_eq_ok.2 (.inl ?_)), rfl, rfl, rfl, rfl⟩
        exact ⟨token.trans finish, rfl, rfl⟩
      · cases found
  | @item c d e a items h more ih =>
      rcases run_topStep_eq_ok.1 h with ⟨-, found, -⟩ | ⟨unfinished, item, hitem, found⟩
      · cases found
      cases found
      obtain ⟨first, d₁, hfirst, moved, rfl, rfl⟩ := run_nextStatement_eq_ok.1 hitem
      have token := Cursor.token_eq_of_here same
      have source := Cursor.source_eq_of_here same
      have here : nextStatement.run (.module_ dialect limit') c' =
          .ok (first.shift c'.start, c'.behind d₁) := by
        refine run_nextStatement_eq_ok.2 ⟨first, d₁, ?_, moved, rfl, rfl⟩
        rw [source, same]
        exact hfirst
      obtain ⟨own, comments, covers, e', rfl, reads, hcomments, hcomments', hcovers, hcovers'⟩ :=
        ih ((c'.here_behind d₁).trans (c.here_behind d₁).symm)
      have start (c : Cursor) : (c.behind d₁).start = d₁.start + c.start := rfl
      refine ⟨first :: own.map (TopStatement.shift d₁.start),
        comments.map (Edit.Span.shift d₁.start) ++ d₁.comments,
        covers.map (· + d₁.start) ++ d₁.covers, e', ?_, ?_, ?_, ?_, ?_, ?_⟩
      · simp only [start, List.map_cons, List.map_map, Function.comp_def, TopStatement.shift_shift]
      · have next : topStep.run (.module_ dialect limit') c' =
            .ok (some (first.shift c'.start), c'.behind d₁) :=
          run_topStep_eq_ok.2 (.inr ⟨token ▸ unfinished, _, here, rfl⟩)
        simp only [List.map_cons, List.map_map, Function.comp_def, TopStatement.shift_shift]
        rw [start] at reads
        exact .item next reads
      all_goals
        simp only [*, Cursor.behind, List.map_append, List.map_map, Function.comp_def,
          List.append_assoc, shift_shift, Nat.add_assoc]

end TidyImports.Script
