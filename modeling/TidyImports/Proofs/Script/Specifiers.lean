import TidyImports.Proofs.Script.Passing

/-! Specifiers of imports as rows of tokens. A specifier consists of one name, or of two names with the
word `as` between them; the word `type` may stand before it. What a specifier in braces says depends
on its tokens alone, and whatever has these tokens is read as this specifier. -/
namespace TidyImports.Script

variable {context : Context} {c d e : Cursor} {dialect : Dialect} {limit : Nat}

def Token.isBinding : Token → Bool
  | .word name _ => !reservedWords.contains name && name != "await"
  | _ => false

def Token.name : Token → Text
  | .word name _ => name.toList
  | _ => []

def Token.outerName? : Token → Option Text
  | .word name _ => some name.toList
  | .string value => some value
  | _ => none

theorem Token.isSimple_of_isBinding {token : Token} (h : token.isBinding = true) :
    token.isSimple = true := by
  cases token <;> simp_all [Token.isBinding, Token.isSimple]

theorem Token.isSimple_of_outerName? {token : Token} {name : Text}
    (h : token.outerName? = some name) : token.isSimple = true := by
  cases token <;> simp_all [Token.outerName?, Token.isSimple]

theorem Token.outerName?_of_isBinding {token : Token} {name : Text} (binding : token.isBinding = true)
    (named : token.outerName? = some name) : name = token.name := by
  cases token <;> simp_all [Token.isBinding, Token.outerName?, Token.name]

namespace Parser

theorem run_read_eq_ok {found : Context} :
    (read : Parser Context).run context c = .ok (found, d) ↔ context = found ∧ c = d := by
  change Except.ok (context, c) = .ok (found, d) ↔ _
  simp

theorem run_hasTypes_eq_ok {b : Bool} :
    hasTypes.run context c = .ok (b, d) ↔ context.dialect.types = b ∧ c = d := by
  simp only [hasTypes, run_bind_eq_ok, run_read_eq_ok, run_pure_eq_ok]
  grind

theorem run_atSymbol_eq_ok {spelling : String} {b : Bool} :
    (atSymbol spelling).run context c = .ok (b, d) ↔
      (c.token == .symbol spelling) = b ∧ c = d := by
  simp only [atSymbol, run_bind_eq_ok, run_cursor_eq_ok, run_pure_eq_ok]
  grind

theorem run_atWord_eq_ok {name : String} {b : Bool} :
    (atWord name).run context c = .ok (b, d) ↔ (c.token == .word name false) = b ∧ c = d := by
  simp only [atWord, run_bind_eq_ok, run_cursor_eq_ok, run_pure_eq_ok]
  grind

theorem run_eatSymbol_eq_ok {spelling : String} {b : Bool} :
    (eatSymbol spelling).run context c = .ok (b, d) ↔
      (c.token = .symbol spelling ∧ b = true ∧ advance.run context c = .ok ((), d)) ∨
        (c.token ≠ .symbol spelling ∧ b = false ∧ c = d) := by
  simp only [eatSymbol, run_bind_eq_ok, run_atSymbol_eq_ok]
  by_cases h : c.token = .symbol spelling
  · simp [h, run_bind_eq_ok, run_pure_eq_ok]
    grind
  · simp [h, run_pure_eq_ok]

theorem run_eatWord_eq_ok {name : String} {b : Bool} :
    (eatWord name).run context c = .ok (b, d) ↔
      (c.token = .word name false ∧ b = true ∧ advance.run context c = .ok ((), d)) ∨
        (c.token ≠ .word name false ∧ b = false ∧ c = d) := by
  simp only [eatWord, run_bind_eq_ok, run_atWord_eq_ok]
  by_cases h : c.token = .word name false
  · simp [h, run_bind_eq_ok, run_pure_eq_ok]
    grind
  · simp [h, run_pure_eq_ok]

theorem run_needSymbol_eq_ok {spelling : String} {done : Unit} :
    (needSymbol spelling).run context c = .ok (done, d) ↔
      c.token = .symbol spelling ∧ advance.run context c = .ok ((), d) := by
  simp only [needSymbol, run_bind_eq_ok, run_eatSymbol_eq_ok]
  constructor
  · rintro ⟨b, e, ⟨token, rfl, moved⟩ | ⟨token, rfl, rfl⟩, h⟩
    · obtain ⟨-, rfl⟩ := run_pure_eq_ok.1 h
      exact ⟨token, moved⟩
    · cases run_refuse_eq_ok.1 h
  · rintro ⟨token, moved⟩
    exact ⟨true, d, .inl ⟨token, rfl, moved⟩, rfl⟩

theorem run_needWord_eq_ok {name : String} {done : Unit} :
    (needWord name).run context c = .ok (done, d) ↔
      c.token = .word name false ∧ advance.run context c = .ok ((), d) := by
  simp only [needWord, run_bind_eq_ok, run_eatWord_eq_ok]
  constructor
  · rintro ⟨b, e, ⟨token, rfl, moved⟩ | ⟨token, rfl, rfl⟩, h⟩
    · obtain ⟨-, rfl⟩ := run_pure_eq_ok.1 h
      exact ⟨token, moved⟩
    · cases run_refuse_eq_ok.1 h
  · rintro ⟨token, moved⟩
    exact ⟨true, d, .inl ⟨token, rfl, moved⟩, rfl⟩

def succeeds (test : Parser Bool) (context : Context) (c : Cursor) : Bool :=
  match test.run context c with
  | .ok (b, _) => b
  | .error _ => false

theorem run_ahead_eq_ok {test : Parser Bool} {b : Bool} :
    (ahead test).run context c = .ok (b, d) ↔ succeeds test context c = b ∧ c = d := by
  simp only [ahead, run_bind_eq_ok, run_pure_eq_ok, peek, attempt, succeeds]
  cases h : test.run context c with
  | error => simp [and_comm]
  | ok found => simp [and_comm]

theorem succeeds_eq_true_iff {test : Parser Bool} :
    succeeds test context c = true ↔ ∃ d, test.run context c = .ok (true, d) := by
  rw [succeeds]
  cases h : test.run context c with
  | error => simp
  | ok found =>
      obtain ⟨b, d⟩ := found
      simp

theorem succeeds_of_run {test : Parser Bool} {b : Bool} (h : test.run context c = .ok (b, d)) :
    succeeds test context c = b := by
  rw [succeeds, h]

theorem run_atIdentifier_eq_ok {b : Bool} :
    atIdentifier.run (.module_ dialect limit) c = .ok (b, d) ↔ c.token.isBinding = b ∧ c = d := by
  simp only [atIdentifier, run_bind_eq_ok, run_token_eq_ok]
  cases h : c.token with
  | word name escaped =>
      by_cases reserved : name ∈ reservedWords
      · simp [reserved, run_bind_eq_ok, run_read_eq_ok, run_pure_eq_ok, Token.isBinding, and_comm]
      · by_cases await : name = "await"
        · simp [await, run_bind_eq_ok, run_read_eq_ok, run_pure_eq_ok, Token.isBinding,
            Context.module_]
        · have other : (name != "await") = true := by simpa using await
          simp [reserved, await, other, run_bind_eq_ok, run_read_eq_ok, run_pure_eq_ok,
            Token.isBinding, Context.module_]
  | _ => simp [Token.isBinding, run_pure_eq_ok]

theorem run_identifier_eq_ok {name : Text} :
    identifier.run (.module_ dialect limit) c = .ok (name, d) ↔
      c.token.isBinding = true ∧ c.token.name = name ∧
        advance.run (.module_ dialect limit) c = .ok ((), d) := by
  simp only [identifier, run_bind_eq_ok, run_atIdentifier_eq_ok]
  cases h : c.token with
  | word word escaped =>
      by_cases binding : (Token.word word escaped).isBinding = true
      · simp [h, binding, run_bind_eq_ok, run_token_eq_ok, run_pure_eq_ok, Token.name]
        grind
      · simp [binding, run_bind_eq_ok, run_refuse_eq_ok]
  | _ => simp [Token.isBinding, run_bind_eq_ok, run_refuse_eq_ok]

end Parser

namespace Grammar

open Script.Parser

theorem run_atOuterName_eq_ok {b : Bool} :
    atOuterName.run context c = .ok (b, d) ↔ c.token.outerName?.isSome = b ∧ c = d := by
  simp only [atOuterName, run_bind_eq_ok, run_token_eq_ok]
  cases h : c.token <;> simp [Token.outerName?, run_pure_eq_ok]

theorem run_outerName_eq_ok {found : OuterName} :
    outerName.run (.module_ dialect limit) c = .ok (found, d) ↔
      c.token.outerName? = some found.text ∧ c.token.isBinding = found.isIdentifier ∧
        advance.run (.module_ dialect limit) c = .ok ((), d) := by
  obtain ⟨text, isIdentifier⟩ := found
  simp only [outerName, run_bind_eq_ok, run_token_eq_ok]
  cases h : c.token with
  | word name escaped =>
      simp [h, run_bind_eq_ok, run_atIdentifier_eq_ok, run_pure_eq_ok, Token.outerName?]
      grind
  | string value =>
      simp [run_bind_eq_ok, run_pure_eq_ok, Token.outerName?, Token.isBinding]
      grind
  | _ => simp [Token.outerName?, run_refuse_eq_ok]

end Grammar

/-- Tokens that name a binding of an import: one name, or an outer name and a binding. -/
inductive NameTokens : List Token → Text → Text → Prop
  | same {token : Token} (binding : token.isBinding = true) :
    NameTokens [token] token.name token.name
  | renamed {outer own : Token} {imported : Text} (named : outer.outerName? = some imported)
    (binding : own.isBinding = true) :
    NameTokens [outer, .word "as" false, own] imported own.name

/-- Tokens of a specifier in braces; only one of an import of values may be marked as a type. -/
inductive SpecifierTokens (types declarationIsType : Bool) :
    List Token → Text → Text → Bool → Prop
  | plain {tokens : List Token} {imported name : Text} (names : NameTokens tokens imported name) :
    SpecifierTokens types declarationIsType tokens imported name false
  | typed {tokens : List Token} {imported name : Text} (dialect : types = true)
    (values : declarationIsType = false) (names : NameTokens tokens imported name) :
    SpecifierTokens types declarationIsType (.word "type" false :: tokens) imported name true

theorem SpecifierTokens.unique {types declarationIsType types' declarationIsType' : Bool}
    {tokens : List Token} {imported name imported' name' : Text} {isType isType' : Bool}
    (h : SpecifierTokens types declarationIsType tokens imported name isType)
    (k : SpecifierTokens types' declarationIsType' tokens imported' name' isType') :
    imported = imported' ∧ name = name' ∧ isType = isType' := by
  cases h with
  | plain names =>
      cases k with
      | plain names' => cases names <;> cases names' <;> simp_all
      | typed _ _ names' => cases names <;> cases names'
  | typed _ _ names =>
      cases k with
      | plain names' => cases names <;> cases names'
      | typed _ _ names' => cases names <;> cases names' <;> simp_all

namespace Grammar

open Script.Parser

variable {specifier : ImportSpecifier} {declarationIsType : Bool}

theorem token_of_eatSpecifierModifier {isType : Bool}
    (h : (eatSpecifierModifier declarationIsType).run context c = .ok (isType, d)) :
    isType = false ∧ c = d ∨
      isType = true ∧ context.dialect.types = true ∧ declarationIsType = false ∧
        c.token = .word "type" false ∧ advance.run context c = .ok ((), d) := by
  simp only [eatSpecifierModifier, modifiesSpecifier, run_bind_eq_ok, run_hasTypes_eq_ok,
    run_atWord_eq_ok, run_ahead_eq_ok] at h
  obtain ⟨types, _, ⟨rfl, rfl⟩, atType, _, ⟨rfl, rfl⟩, modifies, _, ⟨-, rfl⟩, h⟩ := h
  split at h
  · next modified =>
    simp only [Bool.and_eq_true, beq_iff_eq] at modified
    split at h
    · obtain ⟨_, _, refused, -⟩ := run_bind_eq_ok.1 h
      cases run_refuse_eq_ok.1 refused
    · next values =>
      obtain ⟨_, _, moved, h⟩ := run_bind_eq_ok.1 h
      obtain ⟨rfl, rfl⟩ := run_pure_eq_ok.1 h
      exact .inr ⟨rfl, modified.1.1, eq_false_of_ne_true values, modified.1.2, moved⟩
  · obtain ⟨rfl, rfl⟩ := run_pure_eq_ok.1 h
    exact .inl ⟨rfl, rfl⟩

theorem exists_chain_of_importSpecifier
    (h : (importSpecifier declarationIsType).run (.module_ dialect limit) c = .ok (specifier, d))
    (scanned : c.Scanned) : ∃ ls imported name isType, c.Chain ls d ∧
      SpecifierTokens dialect.types declarationIsType (ls.map Lexeme.token) imported name isType ∧
      specifier = .named imported name isType (Edit.Span.ofBounds c.start d.previous) := by
  simp only [importSpecifier, run_bind_eq_ok, run_cursor_eq_ok] at h
  obtain ⟨_, _, ⟨rfl, rfl⟩, isType, c₁, hmodifier, outer, c₂, houter, renamed, c₃, hrenamed, h⟩ := h
  obtain ⟨named, isIdentifier, moved⟩ := run_outerName_eq_ok.1 houter
  -- The tokens behind the modifier name a binding.
  have names (scanned : c₁.Scanned) : ∃ ls name, c₁.Chain ls d ∧
      NameTokens (ls.map Lexeme.token) outer.text name ∧
      specifier = .named outer.text name isType (Edit.Span.ofBounds c.start d.previous) := by
    obtain ⟨l, first⟩ := scanned.exists_passes (Token.isSimple_of_outerName? named) moved
    rcases run_eatWord_eq_ok.1 hrenamed with ⟨token, rfl, moved'⟩ | ⟨-, rfl, rfl⟩
    · simp only [if_true, run_bind_eq_ok, run_spanFrom_eq_ok, run_pure_eq_ok] at h
      obtain ⟨name, _, hname, _, _, ⟨rfl, rfl⟩, rfl, rfl⟩ := h
      obtain ⟨binding, rfl, moved''⟩ := run_identifier_eq_ok.1 hname
      obtain ⟨m, second⟩ := first.scanned.exists_passes (by simp [token, Token.isSimple]) moved'
      obtain ⟨n, third⟩ := second.scanned.exists_passes (Token.isSimple_of_isBinding binding) moved''
      refine ⟨[l, m, n], _, .cons first (.cons second (.cons third (.nil _))), ?_, rfl⟩
      simp only [List.map_cons, List.map_nil, ← first.token, ← second.token, ← third.token, token]
      exact .renamed named binding
    · simp only [Bool.false_eq_true, if_false] at h
      split at h
      · next binding =>
        simp only [run_bind_eq_ok, run_spanFrom_eq_ok, run_pure_eq_ok] at h
        obtain ⟨_, _, ⟨rfl, rfl⟩, rfl, rfl⟩ := h
        rw [binding] at isIdentifier
        refine ⟨[l], _, .cons first (.nil _), ?_, rfl⟩
        rw [List.map_singleton, ← first.token, Token.outerName?_of_isBinding isIdentifier named]
        exact .same isIdentifier
      · obtain ⟨_, _, refused, -⟩ := run_bind_eq_ok.1 h
        cases run_refuse_eq_ok.1 refused
  rcases token_of_eatSpecifierModifier hmodifier with ⟨rfl, rfl⟩ | ⟨rfl, types, values, token, moved⟩
  · obtain ⟨ls, name, chain, own, rfl⟩ := names scanned
    exact ⟨ls, _, name, false, chain, .plain own, rfl⟩
  · obtain ⟨l, first⟩ := scanned.exists_passes (by simp [token, Token.isSimple]) moved
    obtain ⟨ls, name, chain, own, rfl⟩ := names first.scanned
    refine ⟨l :: ls, _, name, true, .cons first chain, ?_, rfl⟩
    rw [List.map_cons, ← first.token, token]
    exact .typed types values own

section Modifier

variable {l m n : Lexeme} {c₁ c₂ c₃ : Cursor}

theorem modifiesSpecifier_of_ne (context : Context) (first : c.Passes l c₁)
    (token : c.token = .word "type" false)
    (other : c₁.token ≠ .word "as" false) :
    modifiesSpecifier.run context c = .ok (c₁.token.outerName?.isSome, c) := by
  refine run_ahead_eq_ok.2 ⟨succeeds_of_run (d := c₁) ?_, rfl⟩
  refine run_bind_eq_ok.2 ⟨(), c₁, run_needWord_eq_ok.2 ⟨token, first.advance _⟩, ?_⟩
  refine run_bind_eq_ok.2 ⟨false, c₁, run_eatWord_eq_ok.2 (.inr ⟨other, rfl, rfl⟩), ?_⟩
  exact run_atOuterName_eq_ok.2 ⟨rfl, rfl⟩

theorem modifiesSpecifier_of_as (context : Context) (first : c.Passes l c₁)
    (second : c₁.Passes m c₂)
    (token : c.token = .word "type" false) (token' : c₁.token = .word "as" false)
    (other : c₂.token ≠ .word "as" false) :
    modifiesSpecifier.run context c = .ok (!c₂.token.outerName?.isSome, c) := by
  refine run_ahead_eq_ok.2 ⟨succeeds_of_run (d := c₂) ?_, rfl⟩
  refine run_bind_eq_ok.2 ⟨(), c₁, run_needWord_eq_ok.2 ⟨token, first.advance _⟩, ?_⟩
  refine run_bind_eq_ok.2 ⟨true, c₂, run_eatWord_eq_ok.2 (.inl ⟨token', rfl, second.advance _⟩), ?_⟩
  refine run_bind_eq_ok.2 ⟨false, c₂, run_eatWord_eq_ok.2 (.inr ⟨other, rfl, rfl⟩), ?_⟩
  exact run_bind_eq_ok.2 ⟨_, c₂, run_atOuterName_eq_ok.2 ⟨rfl, rfl⟩, rfl⟩

theorem modifiesSpecifier_of_as_as (context : Context) (first : c.Passes l c₁)
    (second : c₁.Passes m c₂)
    (third : c₂.Passes n c₃) (token : c.token = .word "type" false)
    (token' : c₁.token = .word "as" false) (token'' : c₂.token = .word "as" false) :
    modifiesSpecifier.run context c = .ok (c₃.token.outerName?.isSome, c) := by
  refine run_ahead_eq_ok.2 ⟨succeeds_of_run (d := c₃) ?_, rfl⟩
  refine run_bind_eq_ok.2 ⟨(), c₁, run_needWord_eq_ok.2 ⟨token, first.advance _⟩, ?_⟩
  refine run_bind_eq_ok.2 ⟨true, c₂, run_eatWord_eq_ok.2 (.inl ⟨token', rfl, second.advance _⟩), ?_⟩
  refine run_bind_eq_ok.2 ⟨true, c₃, run_eatWord_eq_ok.2 (.inl ⟨token'', rfl, third.advance _⟩), ?_⟩
  exact run_atOuterName_eq_ok.2 ⟨rfl, rfl⟩

end Modifier

theorem eatSpecifierModifier_of_not (declarationIsType : Bool)
    (h : c.token = .word "type" false → modifiesSpecifier.run context c = .ok (false, c)) :
    (eatSpecifierModifier declarationIsType).run context c = .ok (false, c) := by
  obtain ⟨modifies, hmodifies⟩ : ∃ b, modifiesSpecifier.run context c = .ok (b, c) :=
    ⟨_, run_ahead_eq_ok.2 ⟨rfl, rfl⟩⟩
  have declines : (context.dialect.types && (c.token == .word "type" false) && modifies) = false := by
    by_cases token : c.token = .word "type" false
    · have same := h token
      rw [hmodifies] at same
      cases same
      rw [Bool.and_false]
    · simp [token]
  refine run_bind_eq_ok.2 ⟨_, c, run_hasTypes_eq_ok.2 ⟨rfl, rfl⟩, ?_⟩
  refine run_bind_eq_ok.2 ⟨_, c, run_atWord_eq_ok.2 ⟨rfl, rfl⟩, ?_⟩
  refine run_bind_eq_ok.2 ⟨_, c, hmodifies, ?_⟩
  rw [declines]
  rfl

theorem eatSpecifierModifier_of_modifies {l : Lexeme} (context : Context) (first : c.Passes l d)
    (types : context.dialect.types = true) (token : c.token = .word "type" false)
    (h : modifiesSpecifier.run context c = .ok (true, c)) :
    (eatSpecifierModifier false).run context c = .ok (true, d) := by
  refine run_bind_eq_ok.2 ⟨_, c, run_hasTypes_eq_ok.2 ⟨rfl, rfl⟩, ?_⟩
  refine run_bind_eq_ok.2 ⟨_, c, run_atWord_eq_ok.2 ⟨rfl, rfl⟩, ?_⟩
  refine run_bind_eq_ok.2 ⟨_, c, h, ?_⟩
  rw [types, token]
  exact run_bind_eq_ok.2 ⟨(), d, first.advance _, rfl⟩

variable {ls : List Lexeme} {imported name : Text} {isType : Bool}

theorem ne_word_of_outerName? {token : Token} {word : String} {escaped : Bool}
    (h : token.outerName? = none) : token ≠ .word word escaped := by
  rintro rfl
  cases h

theorem outerName?_isSome_of_isBinding {token : Token} (h : token.isBinding = true) :
    token.outerName? = some token.name := by
  cases token <;> simp_all [Token.isBinding, Token.outerName?, Token.name]

theorem steps_of_names (chain : c.Chain ls d) (names : NameTokens (ls.map Lexeme.token) imported name) :
    (∃ l, c.Passes l d ∧ c.token.isBinding = true ∧ imported = c.token.name ∧ name = c.token.name) ∨
      ∃ l m n c₁ c₂, c.Passes l c₁ ∧ c₁.Passes m c₂ ∧ c₂.Passes n d ∧
        c.token.outerName? = some imported ∧ c₁.token = .word "as" false ∧
        c₂.token.isBinding = true ∧ name = c₂.token.name := by
  generalize htokens : ls.map Lexeme.token = tokens at names
  cases names with
  | same binding =>
      obtain ⟨l, rfl, rfl⟩ := List.map_eq_singleton_iff.1 htokens
      obtain _ | ⟨first, ⟨⟩⟩ := chain
      rw [← first.token] at binding ⊢
      exact .inl ⟨l, first, binding, rfl, rfl⟩
  | renamed named binding =>
      obtain ⟨l, ls, rfl, rfl, hls⟩ := List.map_eq_cons_iff.1 htokens
      obtain ⟨m, ls, rfl, hm, hls⟩ := List.map_eq_cons_iff.1 hls
      obtain ⟨n, rfl, rfl⟩ := List.map_eq_singleton_iff.1 hls
      obtain _ | ⟨first, _ | ⟨second, _ | ⟨third, ⟨⟩⟩⟩⟩ := chain
      rw [← first.token] at named
      rw [← second.token] at hm
      rw [← third.token] at binding ⊢
      exact .inr ⟨l, m, n, _, _, first, second, third, named, hm, binding, rfl⟩

theorem run_names {start : Nat} (chain : c.Chain ls d)
    (names : NameTokens (ls.map Lexeme.token) imported name) (closes : d.token.outerName? = none) :
    (do
      let imported ← outerName
      if ← eatWord "as" then
        let name ← identifier
        return .named imported.text name isType (← spanFrom start)
      unless imported.isIdentifier do refuse
      return .named imported.text imported.text isType (← spanFrom start) :
        Parser ImportSpecifier).run (.module_ dialect limit) c =
      .ok (.named imported name isType (Edit.Span.ofBounds start d.previous), d) := by
  rcases steps_of_names chain names with ⟨l, first, binding, rfl, rfl⟩ |
    ⟨l, m, n, c₁, c₂, first, second, third, named, token, binding, rfl⟩
  · have outer := outerName?_isSome_of_isBinding binding
    refine run_bind_eq_ok.2 ⟨⟨_, true⟩, d,
      run_outerName_eq_ok.2 ⟨outer, binding, first.advance _⟩, ?_⟩
    refine run_bind_eq_ok.2 ⟨false, d, run_eatWord_eq_ok.2
      (.inr ⟨ne_word_of_outerName? closes, rfl, rfl⟩), ?_⟩
    exact run_bind_eq_ok.2 ⟨_, d, run_spanFrom_eq_ok.2 ⟨rfl, rfl⟩, rfl⟩
  · refine run_bind_eq_ok.2 ⟨⟨_, _⟩, c₁, run_outerName_eq_ok.2 ⟨named, rfl, first.advance _⟩, ?_⟩
    refine run_bind_eq_ok.2 ⟨true, c₂, run_eatWord_eq_ok.2 (.inl ⟨token, rfl, second.advance _⟩), ?_⟩
    refine run_bind_eq_ok.2 ⟨_, d, run_identifier_eq_ok.2 ⟨binding, rfl, third.advance _⟩, ?_⟩
    exact run_bind_eq_ok.2 ⟨_, d, run_spanFrom_eq_ok.2 ⟨rfl, rfl⟩, rfl⟩

theorem modifiesSpecifier_of_names (context : Context) (chain : c.Chain ls d)
    (names : NameTokens (ls.map Lexeme.token) imported name) (closes : d.token.outerName? = none)
    (token : c.token = .word "type" false) :
    modifiesSpecifier.run context c = .ok (false, c) := by
  have other : d.token ≠ .word "as" false := ne_word_of_outerName? closes
  rcases steps_of_names chain names with ⟨l, first, -, -, -⟩ |
    ⟨l, m, n, c₁, c₂, first, second, third, -, token', binding, -⟩
  · have run := modifiesSpecifier_of_ne context first token other
    rwa [closes] at run
  · by_cases token'' : c₂.token = .word "as" false
    · have run := modifiesSpecifier_of_as_as context first second third token token'
        token''
      rwa [closes] at run
    · have run := modifiesSpecifier_of_as context first second token token' token''
      rwa [outerName?_isSome_of_isBinding binding] at run

theorem modifiesSpecifier_before_names {l : Lexeme} {c₁ : Cursor} (first : c.Passes l c₁)
    (chain : c₁.Chain ls d) (names : NameTokens (ls.map Lexeme.token) imported name)
    (closes : d.token.outerName? = none) (token : c.token = .word "type" false) :
    modifiesSpecifier.run context c = .ok (true, c) := by
  have other : d.token ≠ .word "as" false := ne_word_of_outerName? closes
  by_cases token' : c₁.token = .word "as" false
  · rcases steps_of_names chain names with ⟨m, second, -, -, -⟩ |
      ⟨m, n, o, c₂, c₃, second, third, fourth, -, token'', binding, -⟩
    · have run := modifiesSpecifier_of_as context first second token token' other
      rwa [closes] at run
    · have run := modifiesSpecifier_of_as_as context first second third token token'
        token''
      rwa [outerName?_isSome_of_isBinding binding] at run
  · have run := modifiesSpecifier_of_ne context first token token'
    rcases steps_of_names chain names with ⟨m, second, binding, -, -⟩ |
      ⟨m, n, o, c₂, c₃, second, third, fourth, named, -, -, -⟩
    · rwa [outerName?_isSome_of_isBinding binding] at run
    · rwa [named] at run

theorem run_importSpecifier (chain : c.Chain ls d)
    (tokens : SpecifierTokens dialect.types declarationIsType (ls.map Lexeme.token) imported name
      isType)
    (closes : d.token.outerName? = none) :
    (importSpecifier declarationIsType).run (.module_ dialect limit) c =
      .ok (.named imported name isType (Edit.Span.ofBounds c.start d.previous), d) := by
  refine run_bind_eq_ok.2 ⟨c, c, run_cursor_eq_ok.2 ⟨rfl, rfl⟩, ?_⟩
  generalize htokens : ls.map Lexeme.token = row at tokens
  cases tokens with
  | plain names =>
      subst htokens
      have run := eatSpecifierModifier_of_not declarationIsType
        (modifiesSpecifier_of_names (.module_ dialect limit) chain names closes)
      exact run_bind_eq_ok.2 ⟨false, c, run, run_names chain names closes⟩
  | typed types values names =>
      obtain ⟨l, ls, rfl, hl, rfl⟩ := List.map_eq_cons_iff.1 htokens
      obtain _ | ⟨first, more⟩ := chain
      rw [← first.token] at hl
      subst values
      have run := eatSpecifierModifier_of_modifies (.module_ dialect limit) first types hl
        (modifiesSpecifier_before_names first more names closes hl)
      exact run_bind_eq_ok.2 ⟨true, _, run, run_names more names closes⟩

end Grammar

end TidyImports.Script
