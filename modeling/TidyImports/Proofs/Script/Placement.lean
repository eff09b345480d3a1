import TidyImports.Proofs.Script.Runs
import TidyImports.Script.Program

/-! Where the parts of a parsed script stand. Statements follow each other in the text, cut no
character and do not share a byte; an import starts with a word; a literal that names a module lies
inside its statement, between two quotes of one byte each. -/
namespace TidyImports.Script

open Script.Parser Script.Grammar

def SourceLiteral.Quoted (text : Text) (literal : SourceLiteral) : Prop :=
  ∃ quote body rest, (quote = '"' ∨ quote = '\'') ∧
    text.RestAt literal.span.start (quote :: body ++ quote :: rest) ∧
    literal.span.length = Text.width body + 2

structure SourceLiteral.PlacedIn (text : Text) (start stop : Nat) (literal : SourceLiteral) :
    Prop where
  quoted : literal.Quoted text
  start_le : start ≤ literal.span.start
  stop_le : literal.span.stop ≤ stop

theorem SourceLiteral.PlacedIn.widen {text : Text} {start stop start' stop' : Nat}
    {literal : SourceLiteral} (h : literal.PlacedIn text start stop) (hstart : start' ≤ start)
    (hstop : stop ≤ stop') : literal.PlacedIn text start' stop' :=
  ⟨h.quoted, Nat.le_trans hstart h.start_le, Nat.le_trans h.stop_le hstop⟩

def StatementKind.SourcedIn (text : Text) (start stop : Nat) (kind : StatementKind) : Prop :=
  ∀ literal, kind.source? = some literal → literal.PlacedIn text start stop

namespace StatementKind.SourcedIn

variable {text : Text} {start stop start' stop' : Nat} {kind : StatementKind}

theorem other : SourcedIn text start stop .other := by
  intro literal h
  simp [StatementKind.source?] at h

theorem widen (h : kind.SourcedIn text start stop) (hstart : start' ≤ start) (hstop : stop ≤ stop') :
    kind.SourcedIn text start' stop' :=
  fun literal hl => (h literal hl).widen hstart hstop

theorem shift {part : Text} {n : Nat} (h : kind.SourcedIn part start stop)
    (place : text.RestAt n (part ++ [])) :
    (kind.shift n).SourcedIn text (start + n) (stop + n) := by
  intro literal found
  obtain ⟨own, hown, rfl⟩ : ∃ own, kind.source? = some own ∧ literal = own.shift n := by
    cases kind <;> simp_all [StatementKind.shift, StatementKind.source?, ImportDeclaration.shift]
  obtain ⟨⟨quote, body, rest, quoted, inside, length⟩, start_le, stop_le⟩ := h own hown
  have inside := place.inner inside
  rw [List.append_nil, Nat.add_comm] at inside
  refine ⟨⟨quote, body, rest, quoted, inside, length⟩, Nat.add_le_add_right start_le n, ?_⟩
  rw [SourceLiteral.shift, Edit.Span.stop_shift]
  exact Nat.add_le_add_right stop_le n

end StatementKind.SourcedIn

def ImportSpecifier.isNamed : ImportSpecifier → Bool
  | .named _ _ _ _ => true
  | _ => false

/-- What follows a default name: the name of the whole module, or specifiers in braces. -/
inductive BindingTail : List ImportSpecifier → Prop
  | whole (name : Text) (span : Edit.Span) : BindingTail [.namespaceName name span]
  | braces {specifiers : List ImportSpecifier} (h : ∀ s ∈ specifiers, s.isNamed = true) :
    BindingTail specifiers

/-- The specifiers of one declaration: at most one default name, in front. -/
inductive Clause : List ImportSpecifier → Prop
  | plain {specifiers : List ImportSpecifier} (h : BindingTail specifiers) : Clause specifiers
  | withDefault (name : Text) (span : Edit.Span) {specifiers : List ImportSpecifier}
    (h : BindingTail specifiers) : Clause (.defaultName name span :: specifiers)

theorem ImportSpecifier.isNamed_shift (delta : Nat) (s : ImportSpecifier) :
    (s.shift delta).isNamed = s.isNamed := by
  cases s <;> rfl

theorem BindingTail.shift {specifiers : List ImportSpecifier} (h : BindingTail specifiers)
    (delta : Nat) : BindingTail (specifiers.map (ImportSpecifier.shift delta)) := by
  cases h with
  | whole name span => exact .whole name (span.shift delta)
  | braces h =>
    exact .braces (List.forall_mem_map.2 fun s hs => (s.isNamed_shift delta).trans (h s hs))

theorem Clause.shift {specifiers : List ImportSpecifier} (h : Clause specifiers) (delta : Nat) :
    Clause (specifiers.map (ImportSpecifier.shift delta)) := by
  cases h with
  | plain h => exact .plain (h.shift delta)
  | withDefault name span h => exact .withDefault name (span.shift delta) (h.shift delta)

/-- What an import statement yields that was read from `first` to `stop`. -/
structure StatementKind.ImportedIn (text : Text) (start first stop : Nat) (kind : StatementKind) :
    Prop where
  sourced : kind.SourcedIn text start stop
  importing : ∀ declaration, kind = .importing declaration →
    declaration.span = Edit.Span.ofBounds first stop ∧ Clause declaration.specifiers

def startsWord (c : Char) : Bool := Text.isIdentifierStart c || c == '\\'

/-- A statement stands between two characters, with the literal of its module inside; an import
starts with a word. -/
structure Statement.Placed (text : Text) (s : Statement) : Prop where
  start : text.isBoundary s.span.start = true
  stop : text.isBoundary s.span.stop = true
  sourced : s.kind.SourcedIn text s.span.start s.span.stop
  importing : ∀ d, s.kind = .importing d → d.span = s.span ∧ Clause d.specifiers ∧
    ∃ c rest, text.RestAt s.span.start (c :: rest) ∧ startsWord c = true

structure Statement.InOrder (text : Text) (statements : List Statement) : Prop where
  placed : ∀ s ∈ statements, s.Placed text
  ordered : statements.Pairwise fun a b => a.span.stop ≤ b.span.start

namespace Grammar

variable {context : Context} {c d : Cursor} {text : Text} {sub : Sub}

theorem run_spanFrom_eq_ok {start : Nat} {span : Edit.Span} :
    (spanFrom start).run context c = .ok (span, d) ↔
      Edit.Span.ofBounds start c.previous = span ∧ c = d := by
  simp only [spanFrom, run_bind_eq_ok, run_cursor_eq_ok, run_pure_eq_ok]
  constructor
  · rintro ⟨_, _, ⟨rfl, rfl⟩, rfl, rfl⟩
    exact ⟨rfl, rfl⟩
  · rintro ⟨rfl, rfl⟩
    exact ⟨c, c, ⟨rfl, rfl⟩, rfl, rfl⟩

theorem quoted_of_sourceLiteral {literal : SourceLiteral}
    (h : sourceLiteral.run context c = .ok (literal, d)) (fits : c.Fits text) :
    literal.Quoted text ∧ literal.span.start = c.start ∧ literal.span.stop = d.previous := by
  simp only [sourceLiteral, run_bind_eq_ok, run_cursor_eq_ok, run_token_eq_ok] at h
  obtain ⟨_, _, ⟨rfl, rfl⟩, _, _, ⟨rfl, rfl⟩, h⟩ := h
  split at h
  · next value htoken =>
    simp only [run_bind_eq_ok, run_spanFrom_eq_ok, run_pure_eq_ok] at h
    obtain ⟨_, _, hadvance, _, _, ⟨rfl, rfl⟩, rfl, rfl⟩ := h
    have hprevious := previous_of_advance hadvance
    have hopens := fits.opens
    rw [htoken] at hopens
    obtain ⟨quote, body, hquote, hsource⟩ := hopens
    have place : text.RestAt c.start (quote :: body ++ quote :: c.rest) := hsource ▸ fits.source
    have whole := place.add_width
    have behind := fits.rest.add_width
    have hsize : quote.utf8Size = 1 := by rcases hquote with rfl | rfl <;> rfl
    simp only [List.cons_append, Text.width_cons, Text.width_append, hsize] at whole
    refine ⟨⟨quote, body, c.rest, hquote, place, ?_⟩, rfl, ?_⟩
    · simp only [Edit.Span.ofBounds]
      omega
    · rw [Edit.Span.stop_ofBounds]
      omega
  · simp [run_refuse_eq_ok] at h

theorem from_sourceLiteral {start : Nat} :
    sourceLiteral.From text start fun stop literal => literal.PlacedIn text start stop := by
  constructor
  intro context c literal d fits hstart h
  obtain ⟨quoted, hfirst, hlast⟩ := quoted_of_sourceLiteral h fits
  exact ⟨quoted, by omega, by omega⟩

theorem from_exportSource {start : Nat} :
    exportSource.From text start fun stop literal =>
      (StatementKind.sourced literal).SourcedIn text start stop := by
  unfold exportSource
  refine from_sourceLiteral.bind fun placed => .skip fun _ => .skip fun _ => .yield fun stop hle => ?_
  rintro _ ⟨⟩
  exact placed.widen (Nat.le_refl _) hle

def Exported.Placed (text : Text) (start stop : Nat) (exported : Exported) : Prop :=
  exported.kind.SourcedIn text start stop ∧ ∀ declaration, exported.kind ≠ .importing declaration

theorem Exported.Placed.widen {start stop stop' : Nat} {exported : Exported}
    (h : exported.Placed text start stop) (hle : stop ≤ stop') : exported.Placed text start stop' :=
  ⟨h.1.widen (Nat.le_refl _) hle, h.2⟩

theorem Exported.placed_other {start stop : Nat} {piece : Piece} {names : List Text} :
    Exported.Placed text start stop ⟨.other, piece, names⟩ := ⟨.other, by simp⟩

theorem from_sourced {start : Nat} {names : List Text} :
    (do return (⟨.sourced (← exportSource), plain .empty, names⟩ : Exported)).From text start
      (Exported.Placed text start) :=
  from_exportSource.map fun h => ⟨h, by simp⟩

theorem from_exportAll {start : Nat} : exportAll.From text start (Exported.Placed text start) := by
  unfold exportAll
  refine .skip fun _ => .skip fun named => ?_
  split
  · exact .skip fun _ => .skip fun _ => .skip fun _ => from_sourced
  · exact .skip fun _ => .skip fun _ => from_sourced

theorem from_exportNames {start : Nat} {isType : Bool} :
    (exportNames isType).From text start (Exported.Placed text start) := by
  unfold exportNames
  refine .skip fun _ => .skip fun specifiers => .skip fun sourced => ?_
  split
  · exact from_sourced
  · split
    · exact .skip fun _ => .yield fun _ => Exported.placed_other
    · exact .skip fun _ => .skip fun _ => .yield fun _ => Exported.placed_other

theorem from_typedExport? {start : Nat} :
    (typedExport? sub).From text start fun stop exported? =>
      ∀ exported, exported? = some exported → exported.Placed text start stop := by
  have other : ∀ {stop : Nat} {piece : Piece}, ∀ exported,
      some (⟨.other, piece, []⟩ : Exported) = some exported → exported.Placed text start stop := by
    rintro stop piece _ ⟨⟩
    exact Exported.placed_other
  unfold typedExport?
  refine .skip fun isImport => ?_
  split
  · exact .skip fun _ => .skip fun _ => .skip fun _ => .yield fun _ => other
  refine .skip fun isValue => ?_
  split
  · exact .skip fun _ => .yield fun _ => other
  refine .skip fun isAs => .skip fun isNamespace => ?_
  split
  · exact .skip fun _ => .skip fun _ => .skip fun _ => .skip fun _ => .yield fun _ => other
  refine .skip fun isType => ?_
  split
  · refine .skip fun follows => ?_
    split
    · refine .skip fun _ => .skip fun isAll => ?_
      split
      · exact from_exportAll.map fun h => by simpa using h
      · exact from_exportNames.map fun h => by simpa using h
    · exact .yield fun _ => by simp
  · exact .yield fun _ => by simp

theorem from_exportedDeclaration {start : Nat} :
    (exportedDeclaration sub).From text start (Exported.Placed text start) := by
  unfold exportedDeclaration
  refine .skip fun decoration => .skip fun found => ?_
  split
  · exact .yield fun _ => Exported.placed_other
  · exact .refuse

theorem from_untypedExport {start : Nat} :
    (untypedExport sub).From text start (Exported.Placed text start) := by
  unfold untypedExport
  refine .skip fun isDefault => ?_
  split
  · exact .skip fun _ => .yield fun _ => Exported.placed_other
  refine .skip fun isAll => ?_
  split
  · exact from_exportAll
  refine .skip fun isNames => ?_
  split
  · exact from_exportNames
  · exact from_exportedDeclaration

theorem from_exportStatement {start : Nat} :
    (exportStatement sub).From text start (Exported.Placed text start) := by
  unfold exportStatement
  refine .skip fun _ => .skip fun typed => ?_
  split
  · refine from_typedExport?.bind fun placed => ?_
    split
    · exact .yield fun _ hle => (placed _ rfl).widen hle
    · exact from_untypedExport.weaken fun h _ => h
  · exact from_untypedExport

theorem from_decoratedStatement {start : Nat} :
    (decoratedStatement sub).From text start (Exported.Placed text start) := by
  unfold decoratedStatement
  refine .skip fun decoration => .skip fun isExport => ?_
  split
  · exact from_exportStatement.map fun h => h
  · refine .skip fun found => ?_
    split
    · exact .yield fun _ => Exported.placed_other
    · exact .refuse

theorem from_spanFrom {start first : Nat} :
    (spanFrom first).From text start fun stop span => span = Edit.Span.ofBounds first stop := by
  constructor
  intro context c span d fits hstart h
  obtain ⟨rfl, rfl⟩ := run_spanFrom_eq_ok.1 h
  rfl

theorem from_namespaceSpecifier {start : Nat} :
    namespaceSpecifier.From text start fun _ specifier => BindingTail [specifier] := by
  unfold namespaceSpecifier
  exact .skip fun _ => .skip fun _ => .skip fun _ => .skip fun _ => .skip fun _ =>
    .yield fun _ => .whole _ _

theorem from_importSpecifier {start : Nat} {isType : Bool} :
    (importSpecifier isType).From text start fun _ specifier => specifier.isNamed = true := by
  unfold importSpecifier
  refine .skip fun _ => .skip fun _ => .skip fun imported => .skip fun renamed => ?_
  split
  · exact .skip fun _ => .skip fun _ => .yield fun _ => rfl
  · split
    · exact .skip fun _ => .yield fun _ => rfl
    · exact .skip fun _ => .skip fun _ => .yield fun _ => rfl

theorem from_specifiersBehindDefault {start : Nat} {isType : Bool} :
    (specifiersBehindDefault isType).From text start fun _ specifiers => BindingTail specifiers := by
  unfold specifiersBehindDefault
  refine .skip fun isWhole => ?_
  split
  · exact from_namespaceSpecifier.map id
  · exact .skip fun _ => (Parser.From.commaList from_importSpecifier).weaken .braces

theorem from_importSpecifiers {start : Nat} {isType : Bool} :
    (importSpecifiers isType).From text start fun _ specifiers => Clause specifiers := by
  unfold importSpecifiers
  refine .skip fun hasDefault => ?_
  split
  · refine .skip fun _ => .skip fun name => .skip fun span => .skip fun more => ?_
    split
    · exact from_specifiersBehindDefault.map (.withDefault _ _)
    · exact .yield fun _ => .withDefault _ _ (.braces (by simp))
  · exact from_specifiersBehindDefault.weaken .plain

theorem from_importRest {start first : Nat} {isType hasPhase : Bool}
    {specifiers : List ImportSpecifier} (clause : Clause specifiers) :
    (importRest first isType hasPhase specifiers).From text start fun stop result =>
      result.1.ImportedIn text start first stop := by
  unfold importRest
  refine from_sourceLiteral.bind fun placed => .skip fun attributes => .skip fun _ => ?_
  refine from_spanFrom.map fun hspan hle => ⟨?_, ?_⟩
  · rintro _ ⟨⟩
    exact placed.widen (Nat.le_refl _) hle
  · rintro _ ⟨⟩
    exact ⟨hspan, clause⟩

theorem from_importEquals {start first : Nat} {isType : Bool} :
    (importEquals isType).From text start fun stop result =>
      result.1.ImportedIn text start first stop := by
  unfold importEquals
  refine .skip fun name => .skip fun _ => .skip fun isRequire => .skip fun follows => ?_
  split
  · refine .skip fun _ => .skip fun _ => from_sourceLiteral.bind fun placed => ?_
    refine .skip fun _ => .skip fun _ => .yield fun _ hle => ⟨?_, by simp⟩
    rintro _ ⟨⟩
    exact placed.widen (Nat.le_refl _) hle
  · exact .skip fun _ => .skip fun _ => .skip fun _ => .yield fun _ => ⟨.other, by simp⟩

theorem from_importClause {start first : Nat} {isType hasPhase : Bool} :
    (importClause first isType hasPhase).From text start fun stop result =>
      result.1.ImportedIn text start first stop := by
  unfold importClause
  refine .skip fun _ => .skip fun _ => .skip fun _ => ?_
  split
  · exact from_importEquals
  · exact from_importSpecifiers.bind fun clause => .skip fun _ =>
      (from_importRest clause).weaken fun h _ => h

theorem importStatement_placed {result : StatementKind × Outline}
    (h : importStatement.run context c = .ok (result, d)) (fits : c.Fits text) :
    result.1.ImportedIn text c.start c.start d.previous ∧
      ∃ name escaped, c.token = .word name escaped := by
  unfold importStatement at h
  obtain ⟨_, _, hc, h⟩ := run_bind_eq_ok.1 h
  obtain ⟨rfl, rfl⟩ := run_cursor_eq_ok.1 hc
  obtain ⟨_, e, hword, h⟩ := run_bind_eq_ok.1 h
  obtain ⟨_, _, ht, h⟩ := run_bind_eq_ok.1 h
  obtain ⟨rfl, rfl⟩ := run_token_eq_ok.1 ht
  refine ⟨?_, _, _, token_of_needWord hword⟩
  obtain ⟨fits', hle, _⟩ := forward _ hword text fits
  split at h
  · exact (from_importRest (.plain (.braces (by simp)))).of_run fits' hle h
  · refine From.of_run (P := fun stop result => result.1.ImportedIn text c.start c.start stop)
      (.skip fun isType => ?_) fits' hle h
    split
    · exact .skip fun _ => from_importClause
    · exact .skip fun _ => from_importClause

end Grammar

open Grammar

variable {context : Context} {c d : Cursor} {text : Text} {sub : Sub}

/-- What a run of a statement that starts at a cursor yields, in view of where it ends. -/
structure TopStatement.ReadFrom (text : Text) (c : Cursor) (stop : Nat) (item : TopStatement) :
    Prop where
  span : item.statement.span = Edit.Span.ofBounds c.start stop
  sourced : item.statement.kind.SourcedIn text c.start stop
  importing : ∀ declaration, item.statement.kind = .importing declaration →
    declaration.span = Edit.Span.ofBounds c.start stop ∧ Clause declaration.specifiers ∧
      ∃ name escaped, c.token = .word name escaped

theorem from_exported {start : Nat} {p : Parser Exported}
    (h : p.From text start (Exported.Placed text c.start)) :
    (do
      let exported ← p
      return ⟨⟨← spanFrom c.start, exported.kind⟩, exported.piece.outline, exported.names⟩ :
        Parser TopStatement).From text start (TopStatement.ReadFrom text c) := by
  refine h.bind fun placed => from_spanFrom.map fun hspan hle => ⟨hspan, ?_, fun _ himport => ?_⟩
  · exact placed.1.widen (Nat.le_refl _) hle
  · exact absurd himport (placed.2 _)

theorem readFrom_of_topStatement {item : TopStatement}
    (h : (topStatement sub).run context c = .ok (item, d)) (fits : c.Fits text) :
    item.ReadFrom text c d.previous := by
  unfold topStatement at h
  obtain ⟨_, _, hc, h⟩ := run_bind_eq_ok.1 h
  obtain ⟨rfl, rfl⟩ := run_cursor_eq_ok.1 hc
  obtain ⟨isImport, _, hahead, h⟩ := run_bind_eq_ok.1 h
  obtain rfl := cursor_of_ahead hahead
  split at h
  · obtain ⟨result, e, himport, h⟩ := run_bind_eq_ok.1 h
    obtain ⟨span, _, hspan, h⟩ := run_bind_eq_ok.1 h
    obtain ⟨rfl, rfl⟩ := run_spanFrom_eq_ok.1 hspan
    obtain ⟨rfl, rfl⟩ := run_pure_eq_ok.1 h
    obtain ⟨placed, word⟩ := importStatement_placed himport fits
    refine ⟨rfl, placed.sourced, fun declaration hdecl => ?_⟩
    obtain ⟨hspan, clause⟩ := placed.importing declaration hdecl
    exact ⟨hspan, clause, word⟩
  · refine From.of_run (P := TopStatement.ReadFrom text c) ?_ fits (Nat.le_refl _) h
    refine .skip fun isExport => .skip fun isDecorated => ?_
    split
    · refine .skip fun isDecorated => ?_
      split
      · exact from_exported from_decoratedStatement
      · exact from_exported from_exportStatement
    · exact .skip fun piece => from_spanFrom.map fun hspan => ⟨hspan, .other, by simp⟩

namespace TopStatement.ReadFrom

variable {item : TopStatement}

theorem stop_le (h : item.ReadFrom text c d.previous) (hd : d.Fits text) (hle : c.start ≤ d.start) :
    item.statement.span.stop ≤ d.start := by
  rw [h.span, Edit.Span.stop_ofBounds]
  exact Nat.max_le.2 ⟨hle, hd.previous_le⟩

theorem placed (h : item.ReadFrom text c d.previous) (hc : c.Fits text) (hd : d.Fits text) :
    item.statement.Placed text := by
  have hstart : item.statement.span.start = c.start := by rw [h.span]; rfl
  have hstop : item.statement.span.stop = max c.start d.previous := by
    rw [h.span, Edit.Span.stop_ofBounds]
  refine ⟨?_, ?_, ?_, fun declaration hdecl => ?_⟩
  · rw [hstart]
    exact hc.source.isBoundary
  · rw [hstop]
    rcases Nat.le_total c.start d.previous with hle | hle
    · rw [Nat.max_eq_right hle]
      exact hd.previous
    · rw [Nat.max_eq_left hle]
      exact hc.source.isBoundary
  · exact h.sourced.widen (Nat.le_of_eq hstart) (by omega)
  · obtain ⟨hspan, clause, name, escaped, htoken⟩ := h.importing declaration hdecl
    have hopens := hc.opens
    rw [htoken] at hopens
    obtain ⟨⟨first, rest, hsource, hfirst⟩, -⟩ := hopens
    refine ⟨hspan.trans h.span.symm, clause, first, rest, ?_, hfirst⟩
    rw [hstart, ← hsource]
    exact hc.source

end TopStatement.ReadFrom

theorem run_fromHere_eq_ok {α : Type} {p : Parser α} {a : α} :
    (fromHere p).run context c = .ok (a, d) ↔
      ∃ e, p.run context c.here = .ok (a, e) ∧ d = c.behind e := by
  simp only [fromHere]
  cases p.run context c.here with
  | error e => simp
  | ok result =>
    obtain ⟨b, e⟩ := result
    simp only [Except.ok.injEq, Prod.mk.injEq]
    constructor
    · rintro ⟨rfl, rfl⟩
      exact ⟨e, ⟨rfl, rfl⟩, rfl⟩
    · rintro ⟨_, ⟨rfl, rfl⟩, rfl⟩
      exact ⟨rfl, rfl⟩

theorem run_nextStatement_eq_ok {item : TopStatement} :
    nextStatement.run context c = .ok (item, d) ↔
      ∃ own e, (topStatement (upTo (16 * (c.source.length + 4)))).run
          { context with limit := c.source.length + 4 } c.here = .ok (own, e) ∧
        0 < e.start ∧ item = own.shift c.start ∧ d = c.behind e := by
  have start (e : Cursor) : (c.behind e).start = e.start + c.start := rfl
  simp only [nextStatement, run_bind_eq_ok, run_cursor_eq_ok]
  constructor
  · rintro ⟨_, _, ⟨rfl, rfl⟩, own, _, hown, _, _, ⟨rfl, rfl⟩, h⟩
    obtain ⟨e, inner, rfl⟩ := run_fromHere_eq_ok.1 hown
    split at h
    · next moved =>
      obtain ⟨rfl, rfl⟩ := run_pure_eq_ok.1 h
      rw [start] at moved
      exact ⟨own, e, inner, by omega, rfl, rfl⟩
    · obtain ⟨_, _, refused, -⟩ := run_bind_eq_ok.1 h
      exact (run_refuse_eq_ok.1 refused).elim
  · rintro ⟨own, e, hown, moved, rfl, rfl⟩
    refine ⟨c, c, ⟨rfl, rfl⟩, own, _, run_fromHere_eq_ok.2 ⟨e, hown, rfl⟩, _, _, ⟨rfl, rfl⟩, ?_⟩
    rw [if_pos (by rw [start]; omega)]
    rfl

theorem TopStatement.ReadFrom.shift {item : TopStatement} {stop : Nat} (fits : c.Fits text)
    (h : item.ReadFrom c.source c.here stop) :
    (item.shift c.start).ReadFrom text c (stop + c.start) := by
  have moved : (Edit.Span.ofBounds 0 stop).shift c.start =
      Edit.Span.ofBounds c.start (stop + c.start) := by
    simp [Edit.Span.shift, Edit.Span.ofBounds]
  have place : text.RestAt c.start (c.source ++ []) := by simpa using fits.source
  refine ⟨?_, ?_, fun declaration hdecl => ?_⟩
  · exact (congrArg (Edit.Span.shift c.start) h.span).trans moved
  · have sourced := h.sourced.shift place
    rwa [show c.here.start + c.start = c.start from Nat.zero_add _] at sourced
  · obtain ⟨own, hown, rfl⟩ : ∃ own, item.statement.kind = .importing own ∧
        declaration = own.shift c.start := by
      have kind : item.statement.kind.shift c.start = .importing declaration := hdecl
      cases hkind : item.statement.kind <;> simp_all [StatementKind.shift]
    obtain ⟨span, clause, word⟩ := h.importing own hown
    exact ⟨(congrArg (Edit.Span.shift c.start) span).trans moved, clause.shift _, word⟩

theorem readFrom_of_nextStatement {item : TopStatement}
    (h : nextStatement.run context c = .ok (item, d)) (fits : c.Fits text) :
    item.ReadFrom text c d.previous := by
  obtain ⟨own, e, hown, -, rfl, rfl⟩ := run_nextStatement_eq_ok.1 h
  exact (readFrom_of_topStatement hown fits.here).shift fits

def topStep : Parser (Option TopStatement) := do
  if (← token) == .finish then return none
  return some (← nextStatement)

theorem run_topStep_eq_ok {found : Option TopStatement} :
    topStep.run context c = .ok (found, d) ↔
      (c.token = .finish ∧ found = none ∧ c = d) ∨
        (c.token ≠ .finish ∧ ∃ item, nextStatement.run context c = .ok (item, d) ∧
          found = some item) := by
  rw [topStep, run_bind_eq_ok]
  simp only [run_token_eq_ok]
  by_cases finish : c.token = .finish
  · simp only [finish, not_true, ne_eq, false_and, or_false, true_and]
    constructor
    · rintro ⟨_, _, ⟨rfl, rfl⟩, h⟩
      obtain ⟨rfl, rfl⟩ := run_pure_eq_ok.1 h
      exact ⟨rfl, rfl⟩
    · rintro ⟨rfl, rfl⟩
      exact ⟨_, c, ⟨rfl, rfl⟩, rfl⟩
  · simp only [finish, false_and, false_or, ne_eq, not_false_eq_true, true_and]
    constructor
    · rintro ⟨_, _, ⟨rfl, rfl⟩, h⟩
      rw [if_neg (by simpa using finish)] at h
      obtain ⟨item, _, hitem, h⟩ := run_bind_eq_ok.1 h
      obtain ⟨rfl, rfl⟩ := run_pure_eq_ok.1 h
      exact ⟨item, hitem, rfl⟩
    · rintro ⟨item, hitem, rfl⟩
      refine ⟨_, c, ⟨rfl, rfl⟩, ?_⟩
      rw [if_neg (by simpa using finish)]
      exact run_bind_eq_ok.2 ⟨item, d, hitem, rfl⟩

theorem inOrder_of_reads {items : List TopStatement} (h : Reads topStep context c items d)
    (fits : c.Fits text) : Statement.InOrder text (items.map TopStatement.statement) ∧
      ∀ item ∈ items, c.start ≤ item.statement.span.start := by
  -- By induction on the statements that are read: each is placed, and none starts before the
  -- cursor or before the end of one that was read earlier.
  induction h with
  | declined => exact ⟨⟨by simp, by simp⟩, by simp⟩
  | @item c d e a items hrun more ih =>
    obtain ⟨fits', hle, _⟩ := topStep.forward hrun text fits
    obtain ⟨⟨placed, ordered⟩, later⟩ := ih fits'
    obtain ⟨-, found, -⟩ | ⟨-, item, hitem, found⟩ := run_topStep_eq_ok.1 hrun
    · cases found
    cases found
    have first := readFrom_of_nextStatement hitem fits
    have hstart : a.statement.span.start = c.start := by rw [first.span]; rfl
    have hstop := first.stop_le fits' hle
    simp only [List.map_cons]
    refine ⟨⟨List.forall_mem_cons.2 ⟨first.placed fits fits', placed⟩,
      List.pairwise_cons.2 ⟨?_, ordered⟩⟩, List.forall_mem_cons.2 ⟨Nat.le_of_eq hstart.symm, ?_⟩⟩
    · rw [List.forall_mem_map]
      exact fun b hb => Nat.le_trans hstop (later b hb)
    · exact fun b hb => Nat.le_trans hle (later b hb)

theorem run_script_eq_ok {items : List TopStatement} : script.run context c = .ok (items, d) ↔
    ∃ c₁, advance.run context c = .ok ((), c₁) ∧ (many topStep).run context c₁ = .ok (items, d) ∧
      d.covers = [] ∧
      (context.dialect.types || decide (items.flatMap TopStatement.exports).Nodup) = true := by
  have last {found : List TopStatement} {e : Cursor} : (do
      unless (← hasTypes) || decide (found.flatMap TopStatement.exports).Nodup do refuse
      return found : Parser (List TopStatement)).run context e = .ok (items, d) ↔
      (context.dialect.types || decide (found.flatMap TopStatement.exports).Nodup) = true ∧
        found = items ∧ e = d := by
    have types : hasTypes.run context e = .ok (context.dialect.types, e) := rfl
    rw [run_bind_eq_ok]
    constructor
    · rintro ⟨_, _, htypes, h⟩
      rw [types] at htypes
      cases htypes
      split at h
      · next allowed => exact ⟨allowed, run_pure_eq_ok.1 h⟩
      · obtain ⟨_, _, refused, -⟩ := run_bind_eq_ok.1 h
        exact (run_refuse_eq_ok.1 refused).elim
    · rintro ⟨allowed, rfl, rfl⟩
      refine ⟨_, e, types, ?_⟩
      rw [if_pos allowed]
      rfl
  rw [script, run_bind_eq_ok]
  constructor
  · rintro ⟨_, c₁, moved, h⟩
    obtain ⟨found, e, hmany, h⟩ := run_bind_eq_ok.1 h
    obtain ⟨_, _, hcursor, h⟩ := run_bind_eq_ok.1 h
    obtain ⟨rfl, rfl⟩ := run_cursor_eq_ok.1 hcursor
    split at h
    · next empty =>
      obtain ⟨allowed, rfl, rfl⟩ := last.1 h
      exact ⟨c₁, moved, hmany, by simpa using empty, allowed⟩
    · obtain ⟨_, _, refused, -⟩ := run_bind_eq_ok.1 h
      exact (run_refuse_eq_ok.1 refused).elim
  · rintro ⟨c₁, moved, hmany, covers, allowed⟩
    refine ⟨(), c₁, moved, run_bind_eq_ok.2 ⟨items, d, hmany, ?_⟩⟩
    refine run_bind_eq_ok.2 ⟨d, d, run_cursor_eq_ok.2 ⟨rfl, rfl⟩, ?_⟩
    rw [if_pos (by simp [covers])]
    exact last.2 ⟨allowed, rfl, rfl⟩

theorem parse_eq_ok {dialect : Dialect} {program : Program} : parse dialect text = .ok program ↔
    ∃ items d, script.run (Context.module_ dialect (text.length + 4)) (Cursor.initial text) =
        .ok (items, d) ∧
      program = ⟨items.map TopStatement.statement, d.comments.reverse,
        (collect (items.map TopStatement.outline)).names⟩ := by
  simp only [parse]
  cases hrun : script.run (Context.module_ dialect (text.length + 4)) (Cursor.initial text) with
  | error e => simp [bind, Except.bind]
  | ok result =>
    constructor
    · rintro ⟨⟩
      exact ⟨result.1, result.2, rfl, rfl⟩
    · rintro ⟨items, d, same, rfl⟩
      cases same
      rfl

theorem initial_fits (text : Text) : (Cursor.initial text).Fits text := by
  have place : text.RestAt (scriptStart text).2 (scriptStart text).1 := by
    unfold scriptStart
    split
    · next rest => exact ⟨['\uFEFF'], rfl, rfl⟩
    · exact ⟨_, List.takeWhile_append_dropWhile, rfl⟩
    · exact Text.restAt_zero _
  exact ⟨place, place, place.isBoundary, Nat.le_refl _, Nat.le_refl _, trivial, by simp [Cursor.initial]⟩

/-- The statements of a parsed script stand in its text, one behind the other. -/
theorem inOrder_of_parse {dialect : Dialect} {program : Program}
    (h : parse dialect text = .ok program) : Statement.InOrder text program.statements := by
  obtain ⟨items, d, hrun, rfl⟩ := parse_eq_ok.1 h
  obtain ⟨c, moved, hmany, -⟩ := run_script_eq_ok.1 hrun
  have fits := (advance.forward moved text (initial_fits text)).1
  exact (inOrder_of_reads (reads_of_many hmany) fits).1

theorem eq_ok_of_toOption {ε α : Type} {x : Except ε α} {a : α} (h : x.toOption = some a) :
    x = .ok a := by
  cases x with
  | error e => simp [Except.toOption] at h
  | ok b => simpa [Except.toOption] using h

def parsed (dialect : Dialect) (text : Text) : Program :=
  (parse dialect text).toOption.getD ⟨[], [], Outline.empty.names⟩

theorem parse_eq_parsed {dialect : Dialect} (h : (parse dialect text).toOption.isSome = true) :
    parse dialect text = .ok (parsed dialect text) := by
  obtain ⟨program, hprogram⟩ := Option.isSome_iff_exists.1 h
  rw [parsed, hprogram]
  exact eq_ok_of_toOption hprogram

end TidyImports.Script
