import TidyImports.Proofs.Script.Listed

/-! The parts of import declarations as lexemes: the names that are bound, the literal of the module, the
attributes and the end. What is read as such a part has lexemes with the tokens of one, and lexemes with
these tokens are read as the part that they say. -/
namespace TidyImports.Script

open Script.Parser Script.Grammar

variable {context : Context} {c d e : Cursor} {dialect : Dialect} {limit : Nat}

structure Naming where
  imported : Text
  name : Text
  isType : Bool
  deriving DecidableEq, Repr

namespace Naming

def specifier (start stop : Nat) (n : Naming) : ImportSpecifier :=
  .named n.imported n.name n.isType (Edit.Span.ofBounds start stop)

def Tokens (types declarationIsType : Bool) (tokens : List Token) (n : Naming) : Prop :=
  SpecifierTokens types declarationIsType tokens n.imported n.name n.isType

end Naming

/-- What may stand behind a default name: a name for the whole module, or specifiers in braces. -/
inductive Tail
  | whole (star as name : Lexeme)
  | braces (opening : Lexeme) (items : List (Listed Naming)) (closing : Lexeme)
  deriving DecidableEq, Repr

namespace Tail

def lexemes : Tail → List Lexeme
  | whole star as name => [star, as, name]
  | braces opening items closing => opening :: (items.flatMap Listed.lexemes ++ [closing])

def specifiers (offset : Nat) : Tail → List ImportSpecifier
  | whole star as name =>
    [.namespaceName name.token.name
      (Edit.Span.ofBounds offset (offset + (spelled [star, as, name]).width))]
  | braces opening items _ => Listed.valuesAt Naming.specifier (offset + opening.full.width) items

inductive Valid (types isType : Bool) : Tail → Prop
  | whole {star as name : Lexeme} (mark : star.token = .symbol "*")
    (word : as.token = .word "as" false) (binding : name.token.isBinding = true) :
    Valid types isType (.whole star as name)
  | braces {opening closing : Lexeme} {items : List (Listed Naming)}
    (opens : opening.token = .symbol "\x7b") (list : IsList (Naming.Tokens types isType) items)
    (closes : closing.token = .symbol "\x7d") : Valid types isType (.braces opening items closing)

end Tail

/-- What stands between the word `import` and the word `from`. -/
inductive Binders
  | default (name : Lexeme)
  | tail (rest : Tail)
  | both (name comma : Lexeme) (rest : Tail)
  deriving DecidableEq, Repr

namespace Binders

def lexemes : Binders → List Lexeme
  | default name => [name]
  | tail rest => rest.lexemes
  | both name comma rest => name :: comma :: rest.lexemes

def defaultAt (offset : Nat) (name : Lexeme) : ImportSpecifier :=
  .defaultName name.token.name (Edit.Span.ofBounds offset (offset + name.text.width))

def specifiers (offset : Nat) : Binders → List ImportSpecifier
  | default name => [defaultAt offset name]
  | tail rest => rest.specifiers offset
  | both name comma rest =>
    defaultAt offset name :: rest.specifiers (offset + name.full.width + comma.full.width)

/-- The lexemes have the tokens that they stand for. A name `from` behind the word `type` stands
alone. -/
inductive Valid (types isType : Bool) : Binders → Prop
  | default {name : Lexeme} (binding : name.token.isBinding = true) :
    Valid types isType (.default name)
  | tail {rest : Tail} (more : rest.Valid types isType) : Valid types isType (.tail rest)
  | both {name comma : Lexeme} {rest : Tail} (binding : name.token.isBinding = true)
    (mark : comma.token = .symbol ",") (more : rest.Valid types isType)
    (other : isType = true → name.token ≠ .word "from" false) :
    Valid types isType (.both name comma rest)

end Binders

theorem Naming.Tokens.opens {types isType : Bool} {tokens : List Token} {n : Naming}
    (h : n.Tokens types isType tokens) : ∃ token more, tokens = token :: more ∧
      token ≠ .symbol "\x7d" := by
  have named {token : Token} {name : Text} (h : token.outerName? = some name) :
      token ≠ .symbol "\x7d" := by
    rintro rfl
    cases h
  have names {tokens : List Token} {imported name : Text} (h : NameTokens tokens imported name) :
      ∃ token more, tokens = token :: more ∧ token ≠ .symbol "\x7d" := by
    cases h with
    | same binding => exact ⟨_, [], rfl, named (outerName?_isSome_of_isBinding binding)⟩
    | renamed outer binding => exact ⟨_, _, rfl, named outer⟩
  unfold Naming.Tokens at h
  generalize n.isType = isType at h
  cases h with
  | plain h => exact names h
  | typed _ _ _ => exact ⟨_, _, rfl, by simp⟩

theorem readsItem_importSpecifier (isType : Bool) :
    ReadsItem (importSpecifier isType) (.module_ dialect limit)
      (Naming.Tokens dialect.types isType) Naming.specifier where
  exists_chain h scanned := by
    obtain ⟨ls, imported, name, isType, chain, tokens, rfl⟩ :=
      exists_chain_of_importSpecifier h scanned
    have own : (⟨imported, name, isType⟩ : Naming).Tokens dialect.types _ _ := tokens
    refine ⟨ls, ⟨imported, name, isType⟩, chain, ?_, own, rfl⟩
    rintro rfl
    obtain ⟨_, _, empty, -⟩ := own.opens
    cases empty
  run chain tokens follows := by
    refine run_importSpecifier chain tokens ?_
    rcases follows with token | token <;> rw [token] <;> rfl
  opens tokens := tokens.opens

theorem exists_chain_of_specifiersBehindDefault {isType : Bool} {specifiers : List ImportSpecifier}
    (h : (specifiersBehindDefault isType).run (.module_ dialect limit) c = .ok (specifiers, d))
    (scanned : c.Scanned) : ∃ rest : Tail, rest.Valid dialect.types isType ∧
      c.Chain rest.lexemes d ∧ specifiers = rest.specifiers c.start := by
  obtain ⟨_, _, hstar, h⟩ := run_bind_eq_ok.1 h
  obtain ⟨rfl, rfl⟩ := run_atSymbol_eq_ok.1 hstar
  split at h
  · obtain ⟨specifier, e, hwhole, h⟩ := run_bind_eq_ok.1 h
    obtain ⟨rfl, rfl⟩ := run_pure_eq_ok.1 h
    simp only [namespaceSpecifier, run_bind_eq_ok, run_cursor_eq_ok, run_needSymbol_eq_ok,
      run_needWord_eq_ok, run_identifier_eq_ok, run_spanFrom_eq_ok, run_pure_eq_ok] at hwhole
    obtain ⟨_, _, ⟨rfl, rfl⟩, _, c₁, ⟨mark, moved⟩, _, c₂, ⟨word, moved'⟩, _, c₃,
      ⟨binding, rfl, moved''⟩, _, _, ⟨rfl, rfl⟩, rfl, rfl⟩ := hwhole
    obtain ⟨star, first⟩ := scanned.exists_passes (by simp [mark, Token.isSimple, marks]) moved
    obtain ⟨as, second⟩ := first.scanned.exists_passes (by simp [word, Token.isSimple]) moved'
    obtain ⟨name, third⟩ :=
      second.scanned.exists_passes (Token.isSimple_of_isBinding binding) moved''
    have chain : c.Chain [star, as, name] c₃ := .cons first (.cons second (.cons third (.nil _)))
    refine ⟨.whole star as name, .whole (by rw [← first.token, mark]) (by rw [← second.token, word])
      (by rw [← third.token, binding]), chain, ?_⟩
    rw [chain.previous (by simp), third.token]
    rfl
  · obtain ⟨_, _, hopen, h⟩ := run_bind_eq_ok.1 h
    obtain ⟨mark, moved⟩ := run_needSymbol_eq_ok.1 hopen
    obtain ⟨opening, first⟩ := scanned.exists_passes (by simp [mark, Token.isSimple, marks]) moved
    obtain ⟨items, closing, list, closes, chain, rfl⟩ :=
      exists_chain_of_commaList (readsItem_importSpecifier isType) h first.scanned
    refine ⟨.braces opening items closing, .braces (by rw [← first.token, mark]) list closes,
      .cons first chain, ?_⟩
    rw [first.start]
    rfl

theorem run_specifiersBehindDefault {isType : Bool} {rest : Tail} (limit : Nat)
    (valid : rest.Valid dialect.types isType) (chain : c.Chain rest.lexemes d)
    (bound : rest.lexemes.length < limit) :
    (specifiersBehindDefault isType).run (.module_ dialect limit) c =
      .ok (rest.specifiers c.start, d) := by
  cases valid with
  | @whole star as name mark word binding =>
      have stop := chain.previous (by simp [Tail.lexemes])
      obtain _ | ⟨first, _ | ⟨second, _ | ⟨third, ⟨⟩⟩⟩⟩ := chain
      rw [← first.token] at mark
      rw [← second.token] at word
      rw [← third.token] at binding
      refine run_bind_eq_ok.2 ⟨true, c, run_atSymbol_eq_ok.2 ⟨by simp [mark], rfl⟩, ?_⟩
      refine run_bind_eq_ok.2 ⟨_, d, ?_, rfl⟩
      refine run_bind_eq_ok.2 ⟨c, c, run_cursor_eq_ok.2 ⟨rfl, rfl⟩, ?_⟩
      refine run_bind_eq_ok.2 ⟨(), _, run_needSymbol_eq_ok.2 ⟨mark, first.advance _⟩, ?_⟩
      refine run_bind_eq_ok.2 ⟨(), _, run_needWord_eq_ok.2 ⟨word, second.advance _⟩, ?_⟩
      refine run_bind_eq_ok.2 ⟨_, d, run_identifier_eq_ok.2 ⟨binding, rfl, third.advance _⟩, ?_⟩
      refine run_bind_eq_ok.2 ⟨_, d, run_spanFrom_eq_ok.2 ⟨rfl, rfl⟩, ?_⟩
      rw [stop, third.token]
      rfl
  | @braces opening closing items opens list closes =>
      obtain _ | ⟨first, more⟩ := chain
      rw [← first.token] at opens
      refine run_bind_eq_ok.2 ⟨false, c, run_atSymbol_eq_ok.2 ⟨by simp [opens], rfl⟩, ?_⟩
      refine run_bind_eq_ok.2 ⟨(), _, run_needSymbol_eq_ok.2 ⟨opens, first.advance _⟩, ?_⟩
      rw [Tail.specifiers, ← first.start]
      have reads : ReadsItem _ (.module_ dialect limit) _ _ := readsItem_importSpecifier isType
      have count := length_le_of_list reads list
      simp only [Tail.lexemes, List.length_cons, List.length_append] at bound
      exact run_commaList reads list closes more (by simp only [Context.module_]; omega)

theorem exists_chain_of_importSpecifiers {isType : Bool} {specifiers : List ImportSpecifier}
    (h : (importSpecifiers isType).run (.module_ dialect limit) c = .ok (specifiers, d))
    (scanned : c.Scanned)
    (other : isType = true → c.token = .word "from" false → ∀ e,
      advance.run (.module_ dialect limit) c = .ok ((), e) → e.token ≠ .symbol ",") :
    ∃ binders : Binders, binders.Valid dialect.types isType ∧
      c.Chain binders.lexemes d ∧ specifiers = binders.specifiers c.start := by
  obtain ⟨_, _, hdefault, h⟩ := run_bind_eq_ok.1 h
  obtain ⟨rfl, rfl⟩ := run_atIdentifier_eq_ok.1 hdefault
  split at h
  · simp only [run_bind_eq_ok, run_cursor_eq_ok, run_identifier_eq_ok, run_spanFrom_eq_ok] at h
    obtain ⟨_, _, ⟨rfl, rfl⟩, _, c₁, ⟨binding, rfl, moved⟩, _, _, ⟨rfl, rfl⟩, more, c₂, hcomma, h⟩ := h
    obtain ⟨name, first⟩ := scanned.exists_passes (Token.isSimple_of_isBinding binding) moved
    have own : ImportSpecifier.defaultName c.token.name (Edit.Span.ofBounds c.start c₁.previous) =
        Binders.defaultAt c.start name := by
      rw [first.previous, first.token]
      rfl
    rcases run_eatSymbol_eq_ok.1 hcomma with ⟨mark, rfl, moved'⟩ | ⟨-, rfl, rfl⟩
    · obtain ⟨_, _, hrest, h⟩ := run_bind_eq_ok.1 h
      obtain ⟨rfl, rfl⟩ := run_pure_eq_ok.1 h
      obtain ⟨comma, second⟩ := first.scanned.exists_passes
        (by simp [mark, Token.isSimple, marks]) moved'
      obtain ⟨rest, valid, chain, rfl⟩ :=
        exists_chain_of_specifiersBehindDefault hrest second.scanned
      refine ⟨.both name comma rest, .both (by rw [← first.token, binding])
        (by rw [← second.token, mark]) valid fun isType token => ?_,
        .cons first (.cons second chain), ?_⟩
      · exact other isType (by rw [first.token, token]) c₁ moved mark
      · rw [own, second.start, first.start]
        rfl
    · obtain ⟨rfl, rfl⟩ := run_pure_eq_ok.1 h
      refine ⟨.default name, .default (by rw [← first.token, binding]), .cons first (.nil _), ?_⟩
      rw [own]
      rfl
  · obtain ⟨rest, valid, chain, rfl⟩ := exists_chain_of_specifiersBehindDefault h scanned
    exact ⟨.tail rest, .tail valid, chain, rfl⟩

theorem Tail.Valid.token {types isType : Bool} {rest : Tail} (valid : rest.Valid types isType)
    (chain : c.Chain rest.lexemes d) : c.token = .symbol "*" ∨ c.token = .symbol "\x7b" := by
  cases valid with
  | whole mark _ _ =>
      obtain _ | ⟨first, -⟩ := chain
      exact .inl (by rw [first.token, mark])
  | braces opens _ _ =>
      obtain _ | ⟨first, -⟩ := chain
      exact .inr (by rw [first.token, opens])

theorem run_importSpecifiers {isType : Bool} {binders : Binders}
    (valid : binders.Valid dialect.types isType) (chain : c.Chain binders.lexemes d)
    (follows : d.token ≠ .symbol ",") (bound : binders.lexemes.length < limit) :
    (importSpecifiers isType).run (.module_ dialect limit) c =
      .ok (binders.specifiers c.start, d) := by
  cases valid with
  | @default name binding =>
      obtain _ | ⟨first, ⟨⟩⟩ := chain
      rw [← first.token] at binding
      refine run_bind_eq_ok.2 ⟨true, c, run_atIdentifier_eq_ok.2 ⟨binding, rfl⟩, ?_⟩
      refine run_bind_eq_ok.2 ⟨c, c, run_cursor_eq_ok.2 ⟨rfl, rfl⟩, ?_⟩
      refine run_bind_eq_ok.2 ⟨_, d, run_identifier_eq_ok.2 ⟨binding, rfl, first.advance _⟩, ?_⟩
      refine run_bind_eq_ok.2 ⟨_, d, run_spanFrom_eq_ok.2 ⟨rfl, rfl⟩, ?_⟩
      refine run_bind_eq_ok.2 ⟨false, d, run_eatSymbol_eq_ok.2 (.inr ⟨follows, rfl, rfl⟩), ?_⟩
      rw [first.previous, first.token]
      rfl
  | @tail rest more =>
      have noName : c.token.isBinding = false := by
        rcases more.token chain with token | token <;> rw [token] <;> rfl
      refine run_bind_eq_ok.2 ⟨false, c, run_atIdentifier_eq_ok.2 ⟨noName, rfl⟩, ?_⟩
      exact run_specifiersBehindDefault limit more chain bound
  | @both name comma rest binding mark more other =>
      obtain _ | ⟨first, _ | ⟨second, behind⟩⟩ := chain
      rw [← first.token] at binding
      rw [← second.token] at mark
      simp only [Binders.lexemes, List.length_cons] at bound
      have run := run_specifiersBehindDefault limit more behind (by omega)
      refine run_bind_eq_ok.2 ⟨true, c, run_atIdentifier_eq_ok.2 ⟨binding, rfl⟩, ?_⟩
      refine run_bind_eq_ok.2 ⟨c, c, run_cursor_eq_ok.2 ⟨rfl, rfl⟩, ?_⟩
      refine run_bind_eq_ok.2 ⟨_, _, run_identifier_eq_ok.2 ⟨binding, rfl, first.advance _⟩, ?_⟩
      refine run_bind_eq_ok.2 ⟨_, _, run_spanFrom_eq_ok.2 ⟨rfl, rfl⟩, ?_⟩
      refine run_bind_eq_ok.2 ⟨true, _, run_eatSymbol_eq_ok.2 (.inl ⟨mark, rfl, second.advance _⟩), ?_⟩
      refine run_bind_eq_ok.2 ⟨_, d, run, ?_⟩
      rw [first.previous, first.token, second.start, first.start]
      rfl

/-- The tokens of an attribute: a key, a colon and a string. -/
inductive AttributeTokens : List Token → Unit → Prop
  | mk {key : Token} {value : Text} (named : key.outerName?.isSome = true) :
    AttributeTokens [key, .symbol ":", .string value] ()

/-- The lexemes of the attributes of an import. The word `assert` opens them only on the line of the
source. -/
inductive AttributesValid (lineBreak : Bool) : List Lexeme → Prop
  | none : AttributesValid lineBreak []
  | some {keyword opening closing : Lexeme} {items : List (Listed Unit)}
    (word : keyword.token = .word "with" false ∨
      keyword.token = .word "assert" false ∧ lineBreak = false)
    (opens : opening.token = .symbol "\x7b") (list : IsList AttributeTokens items)
    (closes : closing.token = .symbol "\x7d") :
    AttributesValid lineBreak (keyword :: opening :: (items.flatMap Listed.lexemes ++ [closing]))

def attributesSpan? (offset : Nat) : List Lexeme → Option Edit.Span
  | [] => none
  | keyword :: rest =>
    some (Edit.Span.ofBounds (offset + keyword.full.width)
      (offset + keyword.full.width + (spelled rest).width))

theorem exists_passes_of_sourceLiteral {source : SourceLiteral}
    (h : sourceLiteral.run context c = .ok (source, d)) (scanned : c.Scanned) :
    ∃ l value, c.Passes l d ∧ l.token = .string value ∧
      source = ⟨value, Edit.Span.ofBounds c.start (c.start + l.text.width)⟩ := by
  simp only [sourceLiteral, run_bind_eq_ok, run_cursor_eq_ok, run_token_eq_ok] at h
  obtain ⟨_, _, ⟨rfl, rfl⟩, _, _, ⟨rfl, rfl⟩, h⟩ := h
  split at h
  · next value token =>
    simp only [run_bind_eq_ok, run_spanFrom_eq_ok, run_pure_eq_ok] at h
    obtain ⟨_, _, moved, _, _, ⟨rfl, rfl⟩, rfl, rfl⟩ := h
    obtain ⟨l, first⟩ := scanned.exists_passes (by simp [token, Token.isSimple]) moved
    exact ⟨l, value, first, by rw [← first.token, token], by rw [first.previous]⟩
  · cases run_refuse_eq_ok.1 h

theorem run_sourceLiteral {l : Lexeme} {value : Text} (first : c.Passes l d)
    (token : l.token = .string value) :
    sourceLiteral.run context c =
      .ok (⟨value, Edit.Span.ofBounds c.start (c.start + l.text.width)⟩, d) := by
  have own : c.token = .string value := by rw [first.token, token]
  refine run_bind_eq_ok.2 ⟨c, c, run_cursor_eq_ok.2 ⟨rfl, rfl⟩, ?_⟩
  refine run_bind_eq_ok.2 ⟨_, c, run_token_eq_ok.2 ⟨own, rfl⟩, ?_⟩
  refine run_bind_eq_ok.2 ⟨(), d, first.advance _, ?_⟩
  refine run_bind_eq_ok.2 ⟨_, d, run_spanFrom_eq_ok.2 ⟨rfl, rfl⟩, ?_⟩
  rw [first.previous]
  rfl

theorem run_importAttribute_eq_ok {done : Unit} :
    importAttribute.run context c = .ok (done, d) ↔
      c.token.outerName?.isSome = true ∧ ∃ c₁ c₂ source,
        advance.run context c = .ok ((), c₁) ∧ c₁.token = .symbol ":" ∧
          advance.run context c₁ = .ok ((), c₂) ∧ sourceLiteral.run context c₂ = .ok (source, d) := by
  have behind : (do
      advance
      needSymbol ":"
      let _ ← sourceLiteral : Parser Unit).run context c = .ok (done, d) ↔
        ∃ c₁ c₂ source, advance.run context c = .ok ((), c₁) ∧ c₁.token = .symbol ":" ∧
          advance.run context c₁ = .ok ((), c₂) ∧ sourceLiteral.run context c₂ = .ok (source, d) := by
    simp only [run_bind_eq_ok, run_needSymbol_eq_ok, run_pure_eq_ok]
    constructor
    · rintro ⟨_, c₁, moved, _, c₂, ⟨mark, moved'⟩, source, _, hsource, -, rfl⟩
      exact ⟨c₁, c₂, source, moved, mark, moved', hsource⟩
    · rintro ⟨c₁, c₂, source, moved, mark, moved', hsource⟩
      exact ⟨(), c₁, moved, (), c₂, ⟨mark, moved'⟩, source, d, hsource, trivial, rfl⟩
  rw [← behind, importAttribute, run_bind_eq_ok]
  simp only [run_token_eq_ok]
  constructor
  · rintro ⟨_, _, ⟨rfl, rfl⟩, h⟩
    split at h
    · next token => exact ⟨by rw [token]; rfl, h⟩
    · next token => exact ⟨by rw [token]; rfl, h⟩
    · obtain ⟨_, _, refused, -⟩ := run_bind_eq_ok.1 h
      cases run_refuse_eq_ok.1 refused
  · rintro ⟨named, h⟩
    refine ⟨_, c, ⟨rfl, rfl⟩, ?_⟩
    cases token : c.token with
    | word | string => exact h
    | _ => simp [token, Token.outerName?] at named

theorem readsItem_importAttribute :
    ReadsItem importAttribute context AttributeTokens fun _ _ => id where
  exists_chain {c d v} h scanned := by
    obtain ⟨named, c₁, c₂, source, moved, mark, moved', hsource⟩ := run_importAttribute_eq_ok.1 h
    obtain ⟨name, hname⟩ := Option.isSome_iff_exists.1 named
    obtain ⟨key, first⟩ := scanned.exists_passes (Token.isSimple_of_outerName? hname) moved
    obtain ⟨colon, second⟩ := first.scanned.exists_passes
      (by simp [mark, Token.isSimple, marks]) moved'
    obtain ⟨l, value, third, token, -⟩ := exists_passes_of_sourceLiteral hsource second.scanned
    refine ⟨[key, colon, l], (), .cons first (.cons second (.cons third (.nil _))), by simp, ?_, rfl⟩
    simp only [List.map_cons, List.map_nil, ← first.token, ← second.token, mark, token]
    exact .mk named
  run {c d ls a} chain tokens follows := by
    generalize htokens : ls.map Lexeme.token = row at tokens
    obtain ⟨named⟩ := tokens
    obtain ⟨key, ls, rfl, rfl, hls⟩ := List.map_eq_cons_iff.1 htokens
    obtain ⟨colon, ls, rfl, hcolon, hls⟩ := List.map_eq_cons_iff.1 hls
    obtain ⟨source, rfl, hsource⟩ := List.map_eq_singleton_iff.1 hls
    obtain _ | ⟨first, _ | ⟨second, _ | ⟨third, ⟨⟩⟩⟩⟩ := chain
    rw [← first.token] at named
    rw [← second.token] at hcolon
    exact run_importAttribute_eq_ok.2 ⟨named, _, _, _, first.advance _, hcolon, second.advance _,
      run_sourceLiteral third hsource⟩
  opens tokens := by
    obtain ⟨named⟩ := tokens
    refine ⟨_, _, rfl, ?_⟩
    rintro rfl
    cases named

theorem run_afterBreak_eq_ok {b : Bool} :
    afterBreak.run context c = .ok (b, d) ↔ c.lineBreak = b ∧ c = d := by
  simp only [afterBreak, run_bind_eq_ok, run_cursor_eq_ok, run_pure_eq_ok]
  grind

theorem exists_chain_of_optionalAttributes {span : Option Edit.Span}
    (h : optionalAttributes.run context c = .ok (span, d)) (scanned : c.Scanned) :
    ∃ ls, AttributesValid c.lineBreak ls ∧ c.Chain ls d ∧ span = attributesSpan? c.start ls := by
  simp only [optionalAttributes, run_bind_eq_ok, run_atWord_eq_ok, run_afterBreak_eq_ok] at h
  obtain ⟨_, _, ⟨rfl, rfl⟩, _, _, ⟨rfl, rfl⟩, _, _, ⟨rfl, rfl⟩, h⟩ := h
  split at h
  · next opened =>
    simp only [Bool.or_eq_true, Bool.and_eq_true, beq_iff_eq, Bool.not_eq_true'] at opened
    simp only [run_bind_eq_ok, run_cursor_eq_ok, run_needSymbol_eq_ok, run_spanFrom_eq_ok,
      run_pure_eq_ok] at h
    obtain ⟨_, c₁, moved, _, _, ⟨rfl, rfl⟩, _, c₂, ⟨mark, moved'⟩, _, c₃, hlist, _, _, ⟨rfl, rfl⟩,
      rfl, rfl⟩ := h
    have simple : c.token.isSimple = true := by
      rcases opened with token | ⟨token, -⟩ <;> rw [token] <;> rfl
    obtain ⟨keyword, first⟩ := scanned.exists_passes simple moved
    obtain ⟨opening, second⟩ := first.scanned.exists_passes
      (by simp [mark, Token.isSimple, marks]) moved'
    obtain ⟨items, closing, list, closes, chain, -⟩ :=
      exists_chain_of_commaList readsItem_importAttribute hlist second.scanned
    have inner : c₁.Chain (opening :: (items.flatMap Listed.lexemes ++ [closing])) c₃ :=
      .cons second chain
    refine ⟨_, .some (by rwa [← first.token]) (by rw [← second.token, mark]) list closes,
      .cons first inner, ?_⟩
    rw [attributesSpan?, ← first.start, inner.previous (by simp)]
  · obtain ⟨rfl, rfl⟩ := run_pure_eq_ok.1 h
    exact ⟨[], .none, .nil _, rfl⟩

theorem run_optionalAttributes {ls : List Lexeme} (valid : AttributesValid c.lineBreak ls)
    (chain : c.Chain ls d)
    (follows : ls = [] → c.token ≠ .word "with" false ∧
      (c.token = .word "assert" false → c.lineBreak = true))
    (bound : ls.length < context.limit) :
    optionalAttributes.run context c = .ok (attributesSpan? c.start ls, d) := by
  cases valid with
  | none =>
      obtain _ | _ := chain
      obtain ⟨with', assert⟩ := follows rfl
      have closed : (c.token == .word "with" false ||
          (c.token == .word "assert" false && !c.lineBreak)) = false := by
        simpa [with'] using assert
      refine run_bind_eq_ok.2 ⟨_, c, run_atWord_eq_ok.2 ⟨rfl, rfl⟩, ?_⟩
      refine run_bind_eq_ok.2 ⟨_, c, run_atWord_eq_ok.2 ⟨rfl, rfl⟩, ?_⟩
      refine run_bind_eq_ok.2 ⟨_, c, run_afterBreak_eq_ok.2 ⟨rfl, rfl⟩, ?_⟩
      rw [closed]
      rfl
  | @some keyword opening closing items word opens list closes =>
      obtain _ | ⟨first, inner⟩ := chain
      have stop := inner.previous (by simp)
      obtain _ | ⟨second, more⟩ := inner
      rw [← first.token] at word
      rw [← second.token] at opens
      have opened : (c.token == .word "with" false ||
          (c.token == .word "assert" false && !c.lineBreak)) = true := by
        rcases word with token | ⟨token, same⟩
        · simp [token]
        · simp [token, same]
      have reads : ReadsItem _ context _ _ := readsItem_importAttribute
      have count := length_le_of_list reads list
      simp only [List.length_cons, List.length_append] at bound
      have run := run_commaList reads list closes more (by omega)
      refine run_bind_eq_ok.2 ⟨_, c, run_atWord_eq_ok.2 ⟨rfl, rfl⟩, ?_⟩
      refine run_bind_eq_ok.2 ⟨_, c, run_atWord_eq_ok.2 ⟨rfl, rfl⟩, ?_⟩
      refine run_bind_eq_ok.2 ⟨_, c, run_afterBreak_eq_ok.2 ⟨rfl, rfl⟩, ?_⟩
      rw [opened, if_pos rfl]
      refine run_bind_eq_ok.2 ⟨(), _, first.advance _, ?_⟩
      refine run_bind_eq_ok.2 ⟨_, _, run_cursor_eq_ok.2 ⟨rfl, rfl⟩, ?_⟩
      refine run_bind_eq_ok.2 ⟨(), _, run_needSymbol_eq_ok.2 ⟨opens, second.advance _⟩, ?_⟩
      refine run_bind_eq_ok.2 ⟨_, d, run, ?_⟩
      refine run_bind_eq_ok.2 ⟨_, d, run_spanFrom_eq_ok.2 ⟨rfl, rfl⟩, ?_⟩
      rw [stop, first.start]
      rfl

theorem exists_chain_of_endStatement {done : Unit} (h : endStatement.run context c = .ok (done, d))
    (scanned : c.Scanned) :
    ∃ ls, (ls = [] ∨ ∃ l, ls = [l] ∧ l.token = .symbol ";") ∧ c.Chain ls d := by
  obtain ⟨_, _, hsemicolon, h⟩ := run_bind_eq_ok.1 h
  rcases run_eatSymbol_eq_ok.1 hsemicolon with ⟨mark, rfl, moved⟩ | ⟨-, rfl, rfl⟩
  · obtain ⟨-, rfl⟩ := run_pure_eq_ok.1 h
    obtain ⟨l, first⟩ := scanned.exists_passes (by simp [mark, Token.isSimple, marks]) moved
    exact ⟨[l], .inr ⟨l, rfl, by rw [← first.token, mark]⟩, .cons first (.nil _)⟩
  · obtain ⟨_, _, hcursor, h⟩ := run_bind_eq_ok.1 h
    obtain ⟨rfl, rfl⟩ := run_cursor_eq_ok.1 hcursor
    split at h
    · obtain ⟨-, rfl⟩ := run_pure_eq_ok.1 h
      exact ⟨[], .inl rfl, .nil _⟩
    · cases run_refuse_eq_ok.1 h

end TidyImports.Script
