import TidyImports.Proofs.Script.Clauses

/-! Wordings of import declarations. A wording is the lexemes of a declaration, part by part, with what
the parts say; it says what the declaration imports and where its parts stand. Every import
declaration that is read has a wording, and the lexemes of a wording are read as its declaration. -/
namespace TidyImports.Script

open Script.Parser Script.Grammar

variable {context : Context} {c d e : Cursor} {dialect : Dialect} {limit : Nat}

/-- The lexemes of an import declaration: the word `import` and what modifies it, the names that are
bound with the word `from`, the literal with its value, the attributes and the semicolon. -/
structure Wording where
  opening : List Lexeme
  binders : Option (Binders × Lexeme)
  source : Lexeme
  attributes : List Lexeme
  ending : List Lexeme
  value : Text
  isType : Bool
  hasPhase : Bool
  deriving DecidableEq, Repr

def boundBy : Option (Binders × Lexeme) → List Lexeme
  | none => []
  | some (binders, from') => binders.lexemes ++ [from']

theorem exists_boundBy_eq (binders : Binders) (from' : Lexeme) :
    ∃ l m more, boundBy (some (binders, from')) = l :: m :: more := by
  have inhabited : binders.lexemes ≠ [] := by
    rcases binders with _ | ⟨_ | _⟩ | _ <;> simp [Binders.lexemes, Tail.lexemes]
  obtain ⟨l, ls, hls⟩ := List.exists_cons_of_ne_nil inhabited
  cases ls <;> simp [boundBy, hls]

def specifiersBy (offset : Nat) : Option (Binders × Lexeme) → List ImportSpecifier
  | none => []
  | some (binders, _) => binders.specifiers offset

namespace Wording

def bound (w : Wording) : List Lexeme := boundBy w.binders

def lexemes (w : Wording) : List Lexeme :=
  w.opening ++ (w.bound ++ w.source :: (w.attributes ++ w.ending))

def specifiers (offset : Nat) (w : Wording) : List ImportSpecifier :=
  specifiersBy (offset + (fullText w.opening).width) w.binders

def sourceAt (offset : Nat) (w : Wording) : Nat :=
  offset + (fullText w.opening).width + (fullText w.bound).width

def declaration (offset : Nat) (w : Wording) : ImportDeclaration where
  span := Edit.Span.ofBounds offset (offset + (spelled w.lexemes).width)
  source := ⟨w.value,
    Edit.Span.ofBounds (w.sourceAt offset) (w.sourceAt offset + w.source.text.width)⟩
  attributes := attributesSpan? (w.sourceAt offset + w.source.full.width) w.attributes
  isType := w.isType
  hasPhase := w.hasPhase
  specifiers := w.specifiers offset

end Wording

/-- The words that give a phase, each in view of the tokens behind it that make it one. -/
inductive PhaseTokens : String → List Token → Prop
  | deferred (more : List Token) : PhaseTokens "defer" (.symbol "*" :: more)
  | source {token : Token} (binding : token.isBinding = true) (other : token ≠ .word "from" false)
    (more : List Token) : PhaseTokens "source" (token :: more)
  | sourceFrom (more : List Token) :
    PhaseTokens "source" (.word "from" false :: .word "from" false :: more)

/-- The tokens that open an import declaration, in view of those behind them: a declaration of types
needs a dialect with types. -/
inductive OpeningTokens (types : Bool) (behind : List Token) : List Token → Bool → Bool → Prop
  | plain : OpeningTokens types behind [.word "import" false] false false
  | typed (dialect : types = true) :
    OpeningTokens types behind [.word "import" false, .word "type" false] true false
  | phase {name : String} (follows : PhaseTokens name behind) :
    OpeningTokens types behind [.word "import" false, .word name false] false true

structure Wording.Valid (types : Bool) (w : Wording) : Prop where
  opening : OpeningTokens types (w.bound.map Lexeme.token) (w.opening.map Lexeme.token) w.isType
    w.hasPhase
  binders : ∀ binders from', w.binders = some (binders, from') →
    binders.Valid types w.isType ∧ from'.token = .word "from" false
  bare : w.binders = none → w.isType = false ∧ w.hasPhase = false
  source : w.source.token = .string w.value
  attributes : AttributesValid (w.source.gap.any GapPiece.breaks) w.attributes
  ending : w.ending = [] ∨ ∃ l, w.ending = [l] ∧ l.token = .symbol ";"

def ImportDeclaration.outline (d : ImportDeclaration) : Outline :=
  collect (d.specifiers.map (specifierOutline d.isType))

/-- What may stand behind an import declaration without a semicolon: nothing, or a line that begins
neither with attributes nor with a semicolon. -/
def Cursor.Apart (c : Cursor) : Prop :=
  c.token = .finish ∨
    c.lineBreak = true ∧ c.token ≠ .word "with" false ∧ c.token ≠ .symbol ";"

theorem exists_chain_of_importRest {start : Nat} {isType hasPhase : Bool}
    {specifiers : List ImportSpecifier} {result : StatementKind × Outline}
    (h : (importRest start isType hasPhase specifiers).run context c = .ok (result, d))
    (scanned : c.Scanned) : ∃ source value attributes ending,
      c.Chain (source :: (attributes ++ ending)) d ∧ source.token = .string value ∧
        AttributesValid (source.gap.any GapPiece.breaks) attributes ∧
        (ending = [] ∨ ∃ l, ending = [l] ∧ l.token = .symbol ";") ∧
        result = (.importing ⟨Edit.Span.ofBounds start d.previous,
          ⟨value, Edit.Span.ofBounds c.start (c.start + source.text.width)⟩,
          attributesSpan? (c.start + source.full.width) attributes, isType, hasPhase, specifiers⟩,
          collect (specifiers.map (specifierOutline isType))) := by
  simp only [importRest, run_bind_eq_ok, run_spanFrom_eq_ok, run_pure_eq_ok] at h
  obtain ⟨_, c₁, hsource, _, c₂, hattributes, _, c₃, hending, _, _, ⟨rfl, rfl⟩, rfl, rfl⟩ := h
  obtain ⟨source, value, first, token, rfl⟩ := exists_passes_of_sourceLiteral hsource scanned
  obtain ⟨attributes, valid, second, rfl⟩ := exists_chain_of_optionalAttributes hattributes first.scanned
  obtain ⟨ending, ends, third⟩ :=
    exists_chain_of_endStatement hending (second.scanned first.scanned)
  rw [first.lineBreak] at valid
  refine ⟨source, value, attributes, ending, .cons first (second.append third), token, valid, ends, ?_⟩
  rw [first.start]

theorem run_importRest (start : Nat) (isType hasPhase : Bool) (specifiers : List ImportSpecifier)
    {source : Lexeme} {value : Text} {attributes ending : List Lexeme}
    (chain : c.Chain (source :: (attributes ++ ending)) d) (token : source.token = .string value)
    (valid : AttributesValid (source.gap.any GapPiece.breaks) attributes)
    (ends : ending = [] ∨ ∃ l, ending = [l] ∧ l.token = .symbol ";")
    (apart : ending = [] → d.Apart)
    (bound : attributes.length < context.limit) :
    (importRest start isType hasPhase specifiers).run context c =
      .ok ((.importing ⟨Edit.Span.ofBounds start d.previous,
          ⟨value, Edit.Span.ofBounds c.start (c.start + source.text.width)⟩,
          attributesSpan? (c.start + source.full.width) attributes, isType, hasPhase, specifiers⟩,
        collect (specifiers.map (specifierOutline isType))), d) := by
  obtain _ | @⟨_, c₁, _, _, _, first, behind⟩ := chain
  obtain ⟨c₂, second, third⟩ := behind.split
  -- Behind the literal without attributes stands a semicolon, or what begins no attributes.
  have follows : attributes = [] → c₁.token ≠ .word "with" false ∧
      (c₁.token = .word "assert" false → c₁.lineBreak = true) := by
    rintro rfl
    obtain _ | _ := second
    rcases ends with rfl | ⟨l, rfl, mark⟩
    · obtain _ | _ := third
      rcases apart rfl with finish | ⟨broken, other, -⟩
      · simp [finish]
      · exact ⟨other, fun _ => broken⟩
    · obtain _ | ⟨only, -⟩ := third
      simp [only.token, mark]
  have run := run_optionalAttributes (first.lineBreak ▸ valid) second follows bound
  rw [first.start] at run
  have ended : endStatement.run context c₂ = .ok ((), d) := by
    rcases ends with rfl | ⟨l, rfl, mark⟩
    · obtain _ | _ := third
      obtain ⟨other, stops⟩ : d.token ≠ .symbol ";" ∧
          (d.lineBreak || d.token == .symbol "\x7d" || d.token == .finish) = true := by
        rcases apart rfl with finish | ⟨broken, -, other⟩
        · simp [finish]
        · exact ⟨other, by simp [broken]⟩
      refine run_bind_eq_ok.2 ⟨false, d, run_eatSymbol_eq_ok.2 (.inr ⟨other, rfl, rfl⟩), ?_⟩
      refine run_bind_eq_ok.2 ⟨d, d, run_cursor_eq_ok.2 ⟨rfl, rfl⟩, ?_⟩
      rw [if_pos stops]
      rfl
    · obtain _ | ⟨only, ⟨⟩⟩ := third
      have semicolon : c₂.token = .symbol ";" := by rw [only.token, mark]
      exact run_bind_eq_ok.2 ⟨true, d, run_eatSymbol_eq_ok.2
        (.inl ⟨semicolon, rfl, only.advance _⟩), rfl⟩
  refine run_bind_eq_ok.2 ⟨_, c₁, run_sourceLiteral first token, ?_⟩
  refine run_bind_eq_ok.2 ⟨_, c₂, run, run_bind_eq_ok.2 ⟨(), d, ended, ?_⟩⟩
  exact run_bind_eq_ok.2 ⟨_, d, run_spanFrom_eq_ok.2 ⟨rfl, rfl⟩, rfl⟩

theorem exists_of_eatImportModifier {isType : Bool}
    (h : eatImportModifier.run context c = .ok (isType, d)) :
    isType = false ∧ c = d ∨
      isType = true ∧ context.dialect.types = true ∧ c.token = .word "type" false ∧
        advance.run context c = .ok ((), d) ∧
        (d.token = .word "from" false → ∀ e, advance.run context d = .ok ((), e) →
          e.token = .word "from" false ∨ e.token = .symbol "=") := by
  simp only [eatImportModifier, modifiesImport, run_bind_eq_ok, run_hasTypes_eq_ok,
    run_atWord_eq_ok, run_ahead_eq_ok] at h
  obtain ⟨types, _, ⟨rfl, rfl⟩, atType, _, ⟨rfl, rfl⟩, modifies, _, ⟨found, rfl⟩, h⟩ := h
  split at h
  · next modified =>
    simp only [Bool.and_eq_true, beq_iff_eq] at modified
    obtain ⟨_, _, moved, h⟩ := run_bind_eq_ok.1 h
    obtain ⟨rfl, rfl⟩ := run_pure_eq_ok.1 h
    refine .inr ⟨rfl, modified.1.1, modified.1.2, moved, fun token e moved' => ?_⟩
    rw [modified.2, succeeds_eq_true_iff] at found
    obtain ⟨_, test⟩ := found
    obtain ⟨_, _, word, test⟩ := run_bind_eq_ok.1 test
    cases moved.symm.trans (run_needWord_eq_ok.1 word).2
    obtain ⟨_, _, eaten, test⟩ := run_bind_eq_ok.1 test
    rcases run_eatWord_eq_ok.1 eaten with ⟨-, rfl, moved''⟩ | ⟨other, -⟩
    · cases moved'.symm.trans moved''
      simp only [if_true, run_bind_eq_ok, run_atWord_eq_ok, run_atSymbol_eq_ok, run_pure_eq_ok] at test
      obtain ⟨_, _, ⟨rfl, rfl⟩, _, _, ⟨rfl, rfl⟩, result, -⟩ := test
      simpa using result
    · exact absurd token other
  · obtain ⟨rfl, rfl⟩ := run_pure_eq_ok.1 h
    exact .inl ⟨rfl, rfl⟩

theorem exists_of_eatPhase {hasPhase : Bool}
    (h : eatPhase.run (.module_ dialect limit) c = .ok (hasPhase, d)) :
    hasPhase = false ∧ c = d ∨
      hasPhase = true ∧ advance.run (.module_ dialect limit) c = .ok ((), d) ∧
        ∃ name, c.token = .word name false ∧ ∀ {l m : Lexeme} {more : List Lexeme} {e : Cursor},
          d.Chain (l :: m :: more) e → PhaseTokens name ((l :: m :: more).map Lexeme.token) := by
  obtain ⟨_, _, hahead, h⟩ := run_bind_eq_ok.1 h
  obtain ⟨found, rfl⟩ := run_ahead_eq_ok.1 hahead
  split at h
  · next phase =>
    obtain ⟨_, _, moved, h⟩ := run_bind_eq_ok.1 h
    obtain ⟨rfl, rfl⟩ := run_pure_eq_ok.1 h
    refine .inr ⟨phase, moved, ?_⟩
    rw [phase, succeeds_eq_true_iff] at found
    obtain ⟨_, test⟩ := found
    obtain ⟨_, _, eaten, test⟩ := run_bind_eq_ok.1 test
    rcases run_eatWord_eq_ok.1 eaten with ⟨token, rfl, moved'⟩ | ⟨-, rfl, rfl⟩
    · cases moved.symm.trans moved'
      obtain ⟨star, -⟩ := run_atSymbol_eq_ok.1 test
      refine ⟨"defer", token, fun chain => ?_⟩
      obtain _ | ⟨first, -⟩ := chain
      rw [List.map_cons, ← first.token, beq_iff_eq.1 star]
      exact .deferred _
    · obtain ⟨_, _, word, test⟩ := run_bind_eq_ok.1 test
      obtain ⟨token, moved'⟩ := run_needWord_eq_ok.1 word
      cases moved.symm.trans moved'
      refine ⟨"source", token, fun chain => ?_⟩
      obtain _ | ⟨first, _ | ⟨second, -⟩⟩ := chain
      obtain ⟨_, _, eaten, test⟩ := run_bind_eq_ok.1 test
      rcases run_eatWord_eq_ok.1 eaten with ⟨token', rfl, moved''⟩ | ⟨other, rfl, rfl⟩
      · cases (first.advance _).symm.trans moved''
        obtain ⟨again, -⟩ := run_atWord_eq_ok.1 test
        rw [List.map_cons, List.map_cons, ← first.token, ← second.token, token', beq_iff_eq.1 again]
        exact .sourceFrom _
      · obtain ⟨binding, -⟩ := run_atIdentifier_eq_ok.1 test
        rw [List.map_cons, ← first.token]
        exact .source binding other _
  · next phase =>
    obtain ⟨rfl, rfl⟩ := run_pure_eq_ok.1 h
    exact .inl ⟨eq_false_of_ne_true phase, rfl⟩

theorem exists_wording_of_importRest {opening : List Lexeme}
    (binders : Option (Binders × Lexeme)) {isType hasPhase : Bool}
    {result : StatementKind × Outline} {declaration : ImportDeclaration} {specifiers : List ImportSpecifier}
    (h : (importRest c.start isType hasPhase specifiers).run (.module_ dialect limit) d =
      .ok (result, e))
    (scanned : d.Scanned) (importing : result.1 = .importing declaration)
    (tokens : OpeningTokens dialect.types ((boundBy binders).map Lexeme.token)
      (opening.map Lexeme.token) isType hasPhase)
    (chain : c.Chain (opening ++ (boundBy binders)) d)
    (bound : ∀ b from', binders = some (b, from') →
      b.Valid dialect.types isType ∧ from'.token = .word "from" false)
    (bare : binders = none → isType = false ∧ hasPhase = false)
    (same : specifiers = specifiersBy (c.start + (fullText opening).width) binders) :
    ∃ w : Wording, w.Valid dialect.types ∧ c.Chain w.lexemes e ∧
      declaration = w.declaration c.start ∧ result.2 = declaration.outline := by
  obtain ⟨source, value, attributes, ending, rest, literal, valid, ends, rfl⟩ :=
    exists_chain_of_importRest h scanned
  cases importing
  have whole := chain.append rest
  have start := chain.start
  rw [List.append_assoc] at whole
  refine ⟨⟨opening, binders, source, attributes, ending, value, isType, hasPhase⟩,
    ⟨tokens, bound, bare, literal, valid, ends⟩, whole, ?_, rfl⟩
  have stop := whole.previous (by simp)
  rw [fullText_append, Text.width_append, ← Nat.add_assoc] at start
  simp only [Wording.declaration, Wording.lexemes, Wording.sourceAt, Wording.bound,
    Wording.specifiers, same, stop, start]

theorem importEquals_ne_importing {isType : Bool} {result : StatementKind × Outline}
    {declaration : ImportDeclaration}
    (h : (importEquals isType).run context c = .ok (result, d)) :
    result.1 ≠ .importing declaration := by
  obtain ⟨_, _, -, h⟩ := run_bind_eq_ok.1 h
  obtain ⟨_, _, -, h⟩ := run_bind_eq_ok.1 h
  obtain ⟨_, _, -, h⟩ := run_bind_eq_ok.1 h
  obtain ⟨_, _, -, h⟩ := run_bind_eq_ok.1 h
  split at h
  · simp only [run_bind_eq_ok, run_pure_eq_ok] at h
    obtain ⟨_, _, -, _, _, -, _, _, -, _, _, -, _, _, -, rfl, -⟩ := h
    simp
  · simp only [run_bind_eq_ok, run_pure_eq_ok] at h
    obtain ⟨_, _, -, _, _, -, _, _, -, rfl, -⟩ := h
    simp

theorem exists_wording_of_importClause {opening : List Lexeme} {isType hasPhase : Bool}
    {result : StatementKind × Outline} {declaration : ImportDeclaration}
    (h : (importClause c.start isType hasPhase).run (.module_ dialect limit) d = .ok (result, e))
    (scanned : d.Scanned) (importing : result.1 = .importing declaration)
    (tokens : ∀ {l m : Lexeme} {more : List Lexeme} {e : Cursor}, d.Chain (l :: m :: more) e →
      OpeningTokens dialect.types ((l :: m :: more).map Lexeme.token) (opening.map Lexeme.token)
        isType hasPhase)
    (chain : c.Chain opening d)
    (other : isType = true → d.token = .word "from" false → ∀ e,
      advance.run (.module_ dialect limit) d = .ok ((), e) → e.token ≠ .symbol ",") :
    ∃ w : Wording, w.Valid dialect.types ∧ c.Chain w.lexemes e ∧
      declaration = w.declaration c.start ∧ result.2 = declaration.outline := by
  simp only [importClause, run_bind_eq_ok, run_hasTypes_eq_ok, run_atIdentifier_eq_ok,
    run_ahead_eq_ok] at h
  obtain ⟨_, _, ⟨rfl, rfl⟩, _, _, ⟨rfl, rfl⟩, _, _, ⟨-, rfl⟩, h⟩ := h
  split at h
  · exact absurd importing (importEquals_ne_importing h)
  · simp only [run_bind_eq_ok, run_needWord_eq_ok] at h
    obtain ⟨_, c₁, hspecifiers, _, c₂, ⟨word, moved⟩, h⟩ := h
    obtain ⟨binders, valid, inner, rfl⟩ := exists_chain_of_importSpecifiers hspecifiers scanned other
    obtain ⟨from', last⟩ := (inner.scanned scanned).exists_passes
      (by simp [word, Token.isSimple]) moved
    have own : from'.token = .word "from" false := by rw [← last.token, word]
    have behind : d.Chain (boundBy (some (binders, from'))) c₂ := inner.append (.cons last (.nil _))
    obtain ⟨l, m, more, same⟩ := exists_boundBy_eq binders from'
    refine exists_wording_of_importRest (some (binders, from')) h last.scanned importing ?_
      (chain.append behind) ?_ (by simp) ?_
    · rw [same] at behind ⊢
      exact tokens behind
    · rintro _ _ ⟨⟩
      exact ⟨valid, own⟩
    · rw [chain.start]
      rfl

theorem exists_wording_of_importStatement {result : StatementKind × Outline}
    {declaration : ImportDeclaration}
    (h : importStatement.run (.module_ dialect limit) c = .ok (result, e)) (scanned : c.Scanned)
    (importing : result.1 = .importing declaration) :
    ∃ w : Wording, w.Valid dialect.types ∧ c.Chain w.lexemes e ∧
      declaration = w.declaration c.start ∧ result.2 = declaration.outline := by
  simp only [importStatement, run_bind_eq_ok, run_cursor_eq_ok, run_needWord_eq_ok,
    run_token_eq_ok] at h
  obtain ⟨_, _, ⟨rfl, rfl⟩, _, c₁, ⟨word, moved⟩, _, _, ⟨rfl, rfl⟩, h⟩ := h
  obtain ⟨keyword, first⟩ := scanned.exists_passes (by simp [word, Token.isSimple]) moved
  have own : keyword.token = .word "import" false := by rw [← first.token, word]
  have unmodified (behind : List Token) :
      OpeningTokens dialect.types behind ([keyword].map Lexeme.token) false false := by
    rw [List.map_singleton, own]
    exact .plain
  have alone : c.Chain [keyword] c₁ := .cons first (.nil _)
  split at h
  · exact exists_wording_of_importRest none h first.scanned importing (unmodified _)
      (by simpa [boundBy] using alone) (by simp) (by simp) rfl
  · obtain ⟨isType, c₂, hmodifier, h⟩ := run_bind_eq_ok.1 h
    rcases exists_of_eatImportModifier hmodifier with ⟨rfl, rfl⟩ |
      ⟨rfl, types, word', moved', behind⟩
    · simp only [Bool.false_eq_true, if_false] at h
      obtain ⟨hasPhase, c₃, hphase, h⟩ := run_bind_eq_ok.1 h
      rcases exists_of_eatPhase hphase with ⟨rfl, rfl⟩ | ⟨rfl, moved', name, word', follows⟩
      · exact exists_wording_of_importClause h first.scanned importing (fun _ => unmodified _) alone
          (by simp)
      · obtain ⟨phase, second⟩ := first.scanned.exists_passes
          (by simp [word', Token.isSimple]) moved'
        refine exists_wording_of_importClause h second.scanned importing (fun behind => ?_)
          (.cons first (.cons second (.nil _))) (by simp)
        simp only [List.map_cons, List.map_nil, own, ← second.token, word']
        exact .phase (follows behind)
    · simp only [if_true] at h
      obtain ⟨hasPhase, c₃, hphase, h⟩ := run_bind_eq_ok.1 h
      obtain ⟨rfl, rfl⟩ := run_pure_eq_ok.1 hphase
      obtain ⟨modifier, second⟩ := first.scanned.exists_passes
        (by simp [word', Token.isSimple]) moved'
      have tokens (behind : List Token) :
          OpeningTokens dialect.types behind ([keyword, modifier].map Lexeme.token) true false := by
        simp only [List.map_cons, List.map_nil, own, ← second.token, word']
        exact .typed types
      refine exists_wording_of_importClause h second.scanned importing (fun _ => tokens _)
        (.cons first (.cons second (.nil _))) fun _ token e moved'' => ?_
      rcases behind token e moved'' with follows | follows <;> simp [follows]

/-- The first tokens of what an import binds, up to its literal: a name before a comma or the word
`from`, or a star or an opening brace. -/
structure Named (isType : Bool) (c d : Cursor) : Prop where
  value : ∃ value, d.token = .string value
  steps : (c.token = .symbol "*" ∨ c.token = .symbol "\x7b") ∨
    c.token.isBinding = true ∧ ∃ l f, c.Passes l f ∧
      (f.token = .symbol "," ∧ (isType = true → c.token ≠ .word "from" false) ∨
        f.token = .word "from" false ∧ ∃ m, f.Passes m d)

theorem named_of_valid {types isType : Bool} {binders : Binders} {from' : Lexeme} {value : Text}
    (valid : binders.Valid types isType) (word : from'.token = .word "from" false)
    (chain : c.Chain (binders.lexemes ++ [from']) d) (token : d.token = .string value) :
    Named isType c d := by
  refine ⟨⟨value, token⟩, ?_⟩
  cases valid with
  | default binding =>
      obtain _ | ⟨first, _ | ⟨second, ⟨⟩⟩⟩ := chain
      refine .inr ⟨by rw [first.token, binding], _, _, first, .inr ⟨by rw [second.token, word], _, second⟩⟩
  | tail more =>
      obtain ⟨f, inner, -⟩ := chain.split
      exact .inl (more.token inner)
  | both binding mark more other =>
      obtain _ | ⟨first, _ | ⟨second, -⟩⟩ := chain
      exact .inr ⟨by rw [first.token, binding], _, _, first,
        .inl ⟨by rw [second.token, mark], by rwa [first.token]⟩⟩

namespace Named

variable {isType : Bool}

theorem ne_string (h : Named isType c d) (value : Text) : c.token ≠ .string value := by
  intro token
  rcases h.steps with (star | brace) | ⟨binding, -⟩
  · simp [token] at star
  · simp [token] at brace
  · simp [token, Token.isBinding] at binding

theorem modifiesImport_eq_false (h : Named false c d) (token : c.token = .word "type" false) :
    modifiesImport.run (.module_ dialect limit) c = .ok (false, c) := by
  rcases h.steps with (star | brace) | ⟨-, l, f, first, ⟨comma, -⟩ | ⟨word, m, second⟩⟩
  · simp [token] at star
  · simp [token] at brace
  · refine run_ahead_eq_ok.2 ⟨succeeds_of_run (d := f) ?_, rfl⟩
    refine run_bind_eq_ok.2 ⟨(), f, run_needWord_eq_ok.2 ⟨token, first.advance _⟩, ?_⟩
    refine run_bind_eq_ok.2 ⟨false, f, run_eatWord_eq_ok.2 (.inr ⟨by simp [comma], rfl, rfl⟩), ?_⟩
    refine run_bind_eq_ok.2
      ⟨false, f, run_atIdentifier_eq_ok.2 ⟨by simp [comma, Token.isBinding], rfl⟩, ?_⟩
    refine run_bind_eq_ok.2 ⟨false, f, run_atSymbol_eq_ok.2 ⟨by simp [comma], rfl⟩, ?_⟩
    exact run_bind_eq_ok.2 ⟨false, f, run_atSymbol_eq_ok.2 ⟨by simp [comma], rfl⟩, rfl⟩
  · obtain ⟨value, literal⟩ := h.value
    refine run_ahead_eq_ok.2 ⟨succeeds_of_run (d := d) ?_, rfl⟩
    refine run_bind_eq_ok.2 ⟨(), f, run_needWord_eq_ok.2 ⟨token, first.advance _⟩, ?_⟩
    refine run_bind_eq_ok.2 ⟨true, d, run_eatWord_eq_ok.2 (.inl ⟨word, rfl, second.advance _⟩), ?_⟩
    refine run_bind_eq_ok.2 ⟨false, d, run_atWord_eq_ok.2 ⟨by simp [literal], rfl⟩, ?_⟩
    exact run_bind_eq_ok.2 ⟨false, d, run_atSymbol_eq_ok.2 ⟨by simp [literal], rfl⟩, rfl⟩

theorem run_eatImportModifier_of_values (h : Named false c d) :
    eatImportModifier.run (.module_ dialect limit) c = .ok (false, c) := by
  obtain ⟨modifies, hmodifies⟩ :
      ∃ b, modifiesImport.run (.module_ dialect limit) c = .ok (b, c) :=
    ⟨_, run_ahead_eq_ok.2 ⟨rfl, rfl⟩⟩
  have declines : (dialect.types && (c.token == .word "type" false) && modifies) = false := by
    by_cases token : c.token = .word "type" false
    · have same : modifiesImport.run (.module_ dialect limit) c = .ok (false, c) :=
        h.modifiesImport_eq_false token
      rw [hmodifies] at same
      cases same
      rw [Bool.and_false]
    · simp [token]
  refine run_bind_eq_ok.2 ⟨_, c, run_hasTypes_eq_ok.2 ⟨rfl, rfl⟩, ?_⟩
  refine run_bind_eq_ok.2 ⟨_, c, run_atWord_eq_ok.2 ⟨rfl, rfl⟩, ?_⟩
  refine run_bind_eq_ok.2 ⟨_, c, hmodifies, ?_⟩
  rw [Context.module_, declines]
  rfl

theorem run_eatImportModifier_of_types {l : Lexeme} (h : Named true d e) (first : c.Passes l d)
    (types : dialect.types = true) (token : c.token = .word "type" false) :
    eatImportModifier.run (.module_ dialect limit) c = .ok (true, d) := by
  have modifies : modifiesImport.run (.module_ dialect limit) c = .ok (true, c) := by
    have plain (other : d.token ≠ .word "from" false)
        (named : (d.token.isBinding || (d.token == .symbol "*" || d.token == .symbol "\x7b")) = true) :
        modifiesImport.run (.module_ dialect limit) c = .ok (true, c) := by
      refine run_ahead_eq_ok.2 ⟨succeeds_of_run (d := d) ?_, rfl⟩
      refine run_bind_eq_ok.2 ⟨(), d, run_needWord_eq_ok.2 ⟨token, first.advance _⟩, ?_⟩
      refine run_bind_eq_ok.2 ⟨false, d, run_eatWord_eq_ok.2 (.inr ⟨other, rfl, rfl⟩), ?_⟩
      refine run_bind_eq_ok.2 ⟨_, d, run_atIdentifier_eq_ok.2 ⟨rfl, rfl⟩, ?_⟩
      refine run_bind_eq_ok.2 ⟨_, d, run_atSymbol_eq_ok.2 ⟨rfl, rfl⟩, ?_⟩
      refine run_bind_eq_ok.2 ⟨_, d, run_atSymbol_eq_ok.2 ⟨rfl, rfl⟩, ?_⟩
      rw [Bool.or_assoc, named]
      rfl
    rcases h.steps with (star | brace) | ⟨binding, m, f, second, behind⟩
    · exact plain (by simp [star]) (by simp [star])
    · exact plain (by simp [brace]) (by simp [brace])
    · by_cases word : d.token = .word "from" false
      · obtain ⟨-, other⟩ | ⟨word', -⟩ := behind
        · exact absurd word (other rfl)
        · refine run_ahead_eq_ok.2 ⟨succeeds_of_run (d := f) ?_, rfl⟩
          refine run_bind_eq_ok.2 ⟨(), d, run_needWord_eq_ok.2 ⟨token, first.advance _⟩, ?_⟩
          refine run_bind_eq_ok.2
            ⟨true, f, run_eatWord_eq_ok.2 (.inl ⟨word, rfl, second.advance _⟩), ?_⟩
          refine run_bind_eq_ok.2 ⟨true, f, run_atWord_eq_ok.2 ⟨by simp [word'], rfl⟩, ?_⟩
          exact run_bind_eq_ok.2 ⟨_, f, run_atSymbol_eq_ok.2 ⟨rfl, rfl⟩, rfl⟩
      · exact plain word (by simp [binding])
  refine run_bind_eq_ok.2 ⟨_, c, run_hasTypes_eq_ok.2 ⟨rfl, rfl⟩, ?_⟩
  refine run_bind_eq_ok.2 ⟨_, c, run_atWord_eq_ok.2 ⟨rfl, rfl⟩, ?_⟩
  refine run_bind_eq_ok.2 ⟨_, c, modifies, ?_⟩
  rw [Context.module_, types, token]
  exact run_bind_eq_ok.2 ⟨(), d, first.advance _, rfl⟩

theorem run_eatPhase (h : Named isType c d) :
    eatPhase.run (.module_ dialect limit) c = .ok (false, c) := by
  refine run_bind_eq_ok.2 ⟨false, c, run_ahead_eq_ok.2 ⟨?_, rfl⟩, rfl⟩
  by_contra found
  rw [Bool.not_eq_false, succeeds_eq_true_iff] at found
  obtain ⟨_, test⟩ := found
  -- A name is followed by a comma or the word `from`, and that word by the literal.
  have follows {name : String} {f : Cursor} (token : c.token = .word name false)
      (moved : advance.run (.module_ dialect limit) c = .ok ((), f)) :
      f.token = .symbol "," ∨ f.token = .word "from" false ∧
        advance.run (.module_ dialect limit) f = .ok ((), d) := by
    rcases h.steps with (star | brace) | ⟨-, l, f, first, behind⟩
    · simp [token] at star
    · simp [token] at brace
    · cases (first.advance _).symm.trans moved
      exact behind.imp And.left fun ⟨word, m, second⟩ => ⟨word, second.advance _⟩
  obtain ⟨_, _, eaten, test⟩ := run_bind_eq_ok.1 test
  rcases run_eatWord_eq_ok.1 eaten with ⟨token, rfl, moved⟩ | ⟨-, rfl, rfl⟩
  · obtain ⟨star, -⟩ := run_atSymbol_eq_ok.1 test
    rcases follows token moved with comma | ⟨word, -⟩
    · simp [comma] at star
    · simp [word] at star
  · obtain ⟨_, _, hsource, test⟩ := run_bind_eq_ok.1 test
    obtain ⟨token, moved⟩ := run_needWord_eq_ok.1 hsource
    obtain ⟨_, _, eaten, test⟩ := run_bind_eq_ok.1 test
    rcases follows token moved with comma | ⟨word, moved'⟩
    · rcases run_eatWord_eq_ok.1 eaten with ⟨word, -⟩ | ⟨-, rfl, rfl⟩
      · simp [comma] at word
      · obtain ⟨binding, -⟩ := run_atIdentifier_eq_ok.1 test
        simp [comma, Token.isBinding] at binding
    · rcases run_eatWord_eq_ok.1 eaten with ⟨-, rfl, moved''⟩ | ⟨other, -⟩
      · cases moved'.symm.trans moved''
        obtain ⟨value, literal⟩ := h.value
        obtain ⟨again, -⟩ := run_atWord_eq_ok.1 test
        simp [literal] at again
      · exact absurd word other

theorem no_equals (h : Named isType c d) :
    (c.token.isBinding && succeeds (do advance; atSymbol "=") (.module_ dialect limit) c) = false := by
  rcases h.steps with (star | brace) | ⟨-, l, f, first, behind⟩
  · simp [star, Token.isBinding]
  · simp [brace, Token.isBinding]
  · have test : (do advance; atSymbol "=" : Parser Bool).run (.module_ dialect limit) c =
        .ok (false, f) := by
      refine run_bind_eq_ok.2 ⟨(), f, first.advance _, run_atSymbol_eq_ok.2 ⟨?_, rfl⟩⟩
      rcases behind with ⟨comma, -⟩ | ⟨word, -⟩
      · simp [comma]
      · simp [word]
    rw [succeeds_of_run test, Bool.and_false]

end Named

variable {w : Wording}

theorem run_eatPhase_of_phase {l : Lexeme} {ls : List Lexeme} {name : String} (first : c.Passes l d)
    (token : l.token = .word name false) (chain : d.Chain ls e)
    (follows : PhaseTokens name (ls.map Lexeme.token)) :
    eatPhase.run (.module_ dialect limit) c = .ok (true, d) := by
  have own : c.token = .word name false := by rw [first.token, token]
  refine run_bind_eq_ok.2 ⟨true, c, run_ahead_eq_ok.2 ⟨?_, rfl⟩,
    run_bind_eq_ok.2 ⟨(), d, first.advance _, rfl⟩⟩
  generalize htokens : ls.map Lexeme.token = tokens at follows
  cases follows with
  | deferred more =>
      obtain ⟨m, ms, rfl, star, -⟩ := List.map_eq_cons_iff.1 htokens
      obtain _ | ⟨second, -⟩ := chain
      refine succeeds_of_run (d := d) (run_bind_eq_ok.2 ⟨true, d, run_eatWord_eq_ok.2
        (.inl ⟨own, rfl, first.advance _⟩), ?_⟩)
      exact run_atSymbol_eq_ok.2 ⟨by simp [second.token, star], rfl⟩
  | source binding other more =>
      obtain ⟨m, ms, rfl, rfl, -⟩ := List.map_eq_cons_iff.1 htokens
      obtain _ | ⟨second, -⟩ := chain
      rw [← second.token] at binding other
      refine succeeds_of_run (d := d) (run_bind_eq_ok.2 ⟨false, c, run_eatWord_eq_ok.2
        (.inr ⟨by simp [own], rfl, rfl⟩), ?_⟩)
      refine run_bind_eq_ok.2 ⟨(), d, run_needWord_eq_ok.2 ⟨own, first.advance _⟩, ?_⟩
      refine run_bind_eq_ok.2 ⟨false, d, run_eatWord_eq_ok.2 (.inr ⟨other, rfl, rfl⟩), ?_⟩
      exact run_atIdentifier_eq_ok.2 ⟨binding, rfl⟩
  | sourceFrom more =>
      obtain ⟨m, ms, rfl, word, hms⟩ := List.map_eq_cons_iff.1 htokens
      obtain ⟨n, ns, rfl, again, -⟩ := List.map_eq_cons_iff.1 hms
      obtain _ | @⟨_, f, _, _, _, second, _ | ⟨third, -⟩⟩ := chain
      refine succeeds_of_run (d := f) (run_bind_eq_ok.2 ⟨false, c, run_eatWord_eq_ok.2
        (.inr ⟨by simp [own], rfl, rfl⟩), ?_⟩)
      refine run_bind_eq_ok.2 ⟨(), d, run_needWord_eq_ok.2 ⟨own, first.advance _⟩, ?_⟩
      refine run_bind_eq_ok.2 ⟨true, f, run_eatWord_eq_ok.2
        (.inl ⟨by rw [second.token, word], rfl, second.advance _⟩), ?_⟩
      exact run_atWord_eq_ok.2 ⟨by simp [third.token, again], rfl⟩

theorem run_eatImportModifier_of_phase {name : String} {tokens : List Token}
    (token : c.token = .word name false) (follows : PhaseTokens name tokens) :
    eatImportModifier.run (.module_ dialect limit) c = .ok (false, c) := by
  have other : (c.token == .word "type" false) = false := by
    rw [token]
    cases follows <;> rfl
  refine run_bind_eq_ok.2 ⟨_, c, run_hasTypes_eq_ok.2 ⟨rfl, rfl⟩, ?_⟩
  refine run_bind_eq_ok.2 ⟨_, c, run_atWord_eq_ok.2 ⟨rfl, rfl⟩, ?_⟩
  refine run_bind_eq_ok.2 ⟨_, c, run_ahead_eq_ok.2 ⟨rfl, rfl⟩, ?_⟩
  rw [other, Bool.and_false, Bool.false_and]
  rfl

theorem run_importClause {start : Nat} {isType hasPhase : Bool} {binders : Binders} {from' : Lexeme}
    {value : Text} {result : StatementKind × Outline}
    (valid : binders.Valid dialect.types isType) (word : from'.token = .word "from" false)
    (chain : c.Chain (boundBy (some (binders, from'))) d) (token : d.token = .string value)
    (bound : binders.lexemes.length < limit)
    (rest : (importRest start isType hasPhase (binders.specifiers c.start)).run
      (.module_ dialect limit) d = .ok (result, e)) :
    (importClause start isType hasPhase).run (.module_ dialect limit) c = .ok (result, e) := by
  have named := named_of_valid valid word chain token
  obtain ⟨f, inner, _ | ⟨last, ⟨⟩⟩⟩ := chain.split
  have own : f.token = .word "from" false := by rw [last.token, word]
  have run := run_importSpecifiers valid inner (by simp [own]) bound
  refine run_bind_eq_ok.2 ⟨_, c, run_hasTypes_eq_ok.2 ⟨rfl, rfl⟩, ?_⟩
  refine run_bind_eq_ok.2 ⟨_, c, run_atIdentifier_eq_ok.2 ⟨rfl, rfl⟩, ?_⟩
  refine run_bind_eq_ok.2 ⟨_, c, run_ahead_eq_ok.2 ⟨rfl, rfl⟩, ?_⟩
  rw [Bool.and_assoc, named.no_equals, Bool.and_false]
  refine run_bind_eq_ok.2 ⟨_, f, run, ?_⟩
  exact run_bind_eq_ok.2 ⟨(), d, run_needWord_eq_ok.2 ⟨own, last.advance _⟩, rest⟩

theorem run_importRest_of_wording {first d : Cursor} (valid : w.Valid dialect.types)
    (opening : c.Chain w.opening first) (inner : first.Chain w.bound d)
    (rest : d.Chain (w.source :: (w.attributes ++ w.ending)) e) (apart : w.ending = [] → e.Apart)
    (bound : w.attributes.length < limit) :
    (importRest c.start w.isType w.hasPhase (w.specifiers c.start)).run (.module_ dialect limit) d =
      .ok ((.importing (w.declaration c.start), (w.declaration c.start).outline), e) := by
  have stop : e.previous = c.start + (spelled w.lexemes).width :=
    (opening.append (inner.append rest)).previous (by simp)
  have start : d.start = w.sourceAt c.start := by rw [inner.start, opening.start, Wording.sourceAt]
  have room : w.attributes.length < (Context.module_ dialect limit).limit := bound
  have run := run_importRest c.start w.isType w.hasPhase (w.specifiers c.start) rest
    valid.source valid.attributes valid.ending apart room
  rw [stop, start] at run
  exact run

theorem Wording.Valid.exists_binders (valid : w.Valid types) (isType : w.isType = true) :
    ∃ binders from', w.binders = some (binders, from') := by
  cases hbinders : w.binders with
  | none => exact absurd isType (by simp [(valid.bare hbinders).1])
  | some found => exact ⟨found.1, found.2, rfl⟩

section Openings

variable {context : Context} {dialect : Dialect} {f g : Cursor} {l m : Lexeme}
  {result : StatementKind × Outline}

theorem run_importStatement_of_literal {value : Text} (first : c.Passes l d)
    (word : l.token = .word "import" false) (literal : d.token = .string value)
    (rest : (importRest c.start false false []).run context d = .ok (result, e)) :
    importStatement.run context c = .ok (result, e) := by
  refine run_bind_eq_ok.2 ⟨c, c, run_cursor_eq_ok.2 ⟨rfl, rfl⟩, ?_⟩
  refine run_bind_eq_ok.2 ⟨(), d, run_needWord_eq_ok.2 ⟨by rw [first.token, word], first.advance _⟩, ?_⟩
  refine run_bind_eq_ok.2 ⟨_, d, run_token_eq_ok.2 ⟨rfl, rfl⟩, ?_⟩
  rw [literal]
  exact rest

theorem run_importStatement_of_names (first : c.Passes l d) (word : l.token = .word "import" false)
    (named : Named false d f)
    (clause : (importClause c.start false false).run (.module_ dialect limit) d = .ok (result, e)) :
    importStatement.run (.module_ dialect limit) c = .ok (result, e) := by
  refine run_bind_eq_ok.2 ⟨c, c, run_cursor_eq_ok.2 ⟨rfl, rfl⟩, ?_⟩
  refine run_bind_eq_ok.2 ⟨(), d, run_needWord_eq_ok.2 ⟨by rw [first.token, word], first.advance _⟩, ?_⟩
  refine run_bind_eq_ok.2 ⟨_, d, run_token_eq_ok.2 ⟨rfl, rfl⟩, ?_⟩
  split
  · next value token => exact absurd token (named.ne_string value)
  · refine run_bind_eq_ok.2 ⟨false, d, named.run_eatImportModifier_of_values, ?_⟩
    exact run_bind_eq_ok.2 ⟨false, d, named.run_eatPhase, clause⟩

theorem run_importStatement_of_types (first : c.Passes l d) (word : l.token = .word "import" false)
    (second : d.Passes m f) (types : dialect.types = true) (token : m.token = .word "type" false)
    (named : Named true f g)
    (clause : (importClause c.start true false).run (.module_ dialect limit) f = .ok (result, e)) :
    importStatement.run (.module_ dialect limit) c = .ok (result, e) := by
  have modifier := second.token.trans token
  refine run_bind_eq_ok.2 ⟨c, c, run_cursor_eq_ok.2 ⟨rfl, rfl⟩, ?_⟩
  refine run_bind_eq_ok.2 ⟨(), d, run_needWord_eq_ok.2 ⟨by rw [first.token, word], first.advance _⟩, ?_⟩
  refine run_bind_eq_ok.2 ⟨_, d, run_token_eq_ok.2 ⟨rfl, rfl⟩, ?_⟩
  rw [modifier]
  refine run_bind_eq_ok.2 ⟨true, f, named.run_eatImportModifier_of_types second types modifier, ?_⟩
  exact run_bind_eq_ok.2 ⟨false, f, rfl, clause⟩

theorem run_importStatement_of_phase {name : String} {ls : List Lexeme} (first : c.Passes l d)
    (word : l.token = .word "import" false) (second : d.Passes m f) (token : m.token = .word name false)
    (inner : f.Chain ls g) (follows : PhaseTokens name (ls.map Lexeme.token))
    (clause : (importClause c.start false true).run (.module_ dialect limit) f = .ok (result, e)) :
    importStatement.run (.module_ dialect limit) c = .ok (result, e) := by
  have own := second.token.trans token
  refine run_bind_eq_ok.2 ⟨c, c, run_cursor_eq_ok.2 ⟨rfl, rfl⟩, ?_⟩
  refine run_bind_eq_ok.2 ⟨(), d, run_needWord_eq_ok.2 ⟨by rw [first.token, word], first.advance _⟩, ?_⟩
  refine run_bind_eq_ok.2 ⟨_, d, run_token_eq_ok.2 ⟨rfl, rfl⟩, ?_⟩
  rw [own]
  refine run_bind_eq_ok.2 ⟨false, d, run_eatImportModifier_of_phase own follows, ?_⟩
  exact run_bind_eq_ok.2 ⟨true, f, run_eatPhase_of_phase second token inner follows, clause⟩

theorem run_importClause_of_wording {start : Nat} {first : Cursor} {binders : Binders} {from' : Lexeme}
    (valid : w.Valid dialect.types) (opening : c.Chain w.opening first) (inner : first.Chain w.bound d)
    (literal : d.token = .string w.value) (names : w.binders = some (binders, from'))
    (bound : w.bound.length < limit)
    (rest : (importRest start w.isType w.hasPhase (w.specifiers c.start)).run (.module_ dialect limit) d =
      .ok (result, e)) : Named w.isType first d ∧
    (importClause start w.isType w.hasPhase).run (.module_ dialect limit) first = .ok (result, e) := by
  obtain ⟨valid, word⟩ := valid.binders _ _ names
  have specifiers : w.specifiers c.start = binders.specifiers first.start := by
    rw [Wording.specifiers, names, opening.start]
    rfl
  rw [Wording.bound, names] at inner bound
  rw [specifiers] at rest
  simp only [boundBy, List.length_append] at bound
  exact ⟨named_of_valid valid word inner literal,
    run_importClause valid word inner literal (by omega) rest⟩

end Openings

/-- The lexemes of a wording are read as its declaration. -/
theorem run_importStatement (valid : w.Valid dialect.types) (chain : c.Chain w.lexemes e)
    (apart : w.ending = [] → e.Apart) (bound : w.lexemes.length < limit) :
    importStatement.run (.module_ dialect limit) c =
      .ok ((.importing (w.declaration c.start), (w.declaration c.start).outline), e) := by
  obtain ⟨c₁, opening, behind⟩ := chain.split
  obtain ⟨c₂, inner, rest⟩ := behind.split
  have literal : c₂.token = .string w.value := by
    obtain _ | ⟨first, -⟩ := rest
    rw [first.token, valid.source]
  simp only [Wording.lexemes, List.length_append, List.length_cons] at bound
  have run := run_importRest_of_wording valid opening inner rest apart
    (show w.attributes.length < limit by omega)
  -- Behind the opening stand the names, or the literal at once.
  have clause {binders : Binders} {from' : Lexeme} (names : w.binders = some (binders, from')) :=
    run_importClause_of_wording valid opening inner literal names (by omega) run
  have tokens := valid.opening
  generalize htokens : w.opening.map Lexeme.token = row at tokens
  generalize hisType : w.isType = isType at tokens clause run
  generalize hhasPhase : w.hasPhase = hasPhase at tokens clause run
  cases tokens with
  | plain =>
      obtain ⟨keyword, hopening, word⟩ := List.map_eq_singleton_iff.1 htokens
      rw [hopening] at opening
      obtain _ | ⟨first, ⟨⟩⟩ := opening
      cases hbinders : w.binders with
      | none =>
          rw [Wording.bound, hbinders] at inner
          obtain _ | _ := inner
          rw [Wording.specifiers, hbinders] at run
          exact run_importStatement_of_literal first word literal run
      | some found =>
          obtain ⟨named, clause⟩ := clause hbinders
          exact run_importStatement_of_names first word named clause
  | typed types =>
      obtain ⟨keyword, ls, hopening, word, hls⟩ := List.map_eq_cons_iff.1 htokens
      obtain ⟨modifier, rfl, token⟩ := List.map_eq_singleton_iff.1 hls
      rw [hopening] at opening
      obtain _ | ⟨first, _ | ⟨second, ⟨⟩⟩⟩ := opening
      obtain ⟨binders, from', hbinders⟩ := valid.exists_binders hisType
      obtain ⟨named, clause⟩ := clause hbinders
      exact run_importStatement_of_types first word second types token named clause
  | phase follows =>
      obtain ⟨keyword, ls, hopening, word, hls⟩ := List.map_eq_cons_iff.1 htokens
      obtain ⟨phase, rfl, token⟩ := List.map_eq_singleton_iff.1 hls
      rw [hopening] at opening
      obtain _ | ⟨first, _ | ⟨second, ⟨⟩⟩⟩ := opening
      obtain ⟨found, hbinders⟩ : ∃ found, w.binders = some found :=
        Option.ne_none_iff_exists'.1 fun none => by simpa [hhasPhase] using (valid.bare none).2
      exact run_importStatement_of_phase first word second token inner follows (clause hbinders).2

end TidyImports.Script
