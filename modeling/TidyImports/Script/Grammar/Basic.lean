import TidyImports.Script.Outline
import TidyImports.Script.Scanner
import TidyImports.Text.Offset

/-! The machinery of the grammar. A parser reads a cursor, which holds the token it stands on and
the text behind it, under a context that says which dialect is read and which words are special. A
failed alternative leaves the cursor where it was. A parser carries the proof that it only moves
forward in the text, so no production can lose its place. The productions call each other through a
`Sub`, a function from goals to parsers, so that each production is an ordinary definition and the
recursion is tied once, with the length of the text as its bound. -/
namespace TidyImports.Script

/-- Which additions to the base language a script may use. -/
structure Dialect where
  types : Bool
  jsx : Bool
  deriving DecidableEq, Repr

/-- The circumstances of a production. No list in the script has more items than `limit`. -/
structure Context where
  dialect : Dialect
  limit : Nat
  allowIn : Bool
  inAwait : Bool
  inYield : Bool
  inReturn : Bool
  inDecorator : Bool
  ambient : Bool
  conditionalTypes : Bool

def Context.module_ (dialect : Dialect) (limit : Nat) : Context :=
  ⟨dialect, limit, true, true, false, false, false, false, true⟩

structure Cursor where
  token : Token
  start : Nat
  stop : Nat
  lineBreak : Bool
  source : Text
  rest : Text
  previous : Nat
  comments : List Edit.Span
  covers : List Nat
  deriving DecidableEq

structure SyntaxError where
  offset : Nat
  deriving DecidableEq, Repr

/-- A cursor fits a text: its offsets are those of its pieces of the text, in order, its token is cut
off from the text that it stands on, and the comments that it has passed stand before it. -/
structure Cursor.Fits (c : Cursor) (text : Text) : Prop where
  source : text.RestAt c.start c.source
  rest : text.RestAt c.stop c.rest
  previous : text.isBoundary c.previous = true
  previous_le : c.previous ≤ c.start
  start_le : c.start ≤ c.stop
  opens : c.token.Opens c.source c.rest
  comments : ∀ s ∈ c.comments, s.start < s.stop ∧ s.stop ≤ c.start

/-- One cursor comes after another in every text that the other fits; it has passed the same comments
and those in between. -/
def Cursor.Reaches (c d : Cursor) : Prop :=
  ∀ text, c.Fits text → d.Fits text ∧ c.start ≤ d.start ∧ c.previous ≤ d.previous ∧
    ∃ new, d.comments = new ++ c.comments ∧ ∀ s ∈ new, c.start ≤ s.start

namespace Cursor.Reaches

variable {c d e : Cursor}

theorem same {c d : Cursor} (fits : ∀ text, c.Fits text → d.Fits text) (start : d.start = c.start)
    (previous : d.previous = c.previous) (comments : d.comments = c.comments) : c.Reaches d :=
  fun text h => ⟨fits text h, Nat.le_of_eq start.symm, Nat.le_of_eq previous.symm, [], comments,
    by simp⟩

theorem refl (c : Cursor) : c.Reaches c := same (fun _ h => h) rfl rfl rfl

theorem trans (h : c.Reaches d) (k : d.Reaches e) : c.Reaches e := by
  intro text fits
  obtain ⟨fits, hstart, hprevious, new, hnew, behind⟩ := h text fits
  obtain ⟨fits, kstart, kprevious, more, hmore, behind'⟩ := k text fits
  refine ⟨fits, Nat.le_trans hstart kstart, Nat.le_trans hprevious kprevious, more ++ new, ?_, ?_⟩
  · rw [hmore, hnew, List.append_assoc]
  · exact List.forall_mem_append.2 ⟨fun s hs => Nat.le_trans hstart (behind' s hs), behind⟩

end Cursor.Reaches

/-- A parser reads the context and moves the cursor forward, or fails. -/
structure Parser (α : Type) where
  run : Context → Cursor → Except SyntaxError (α × Cursor)
  forward : ∀ {context c a d}, run context c = .ok (a, d) → c.Reaches d

/-- The form of an expression, as far as assignment and a few operators ask for it. -/
inductive Shape
  | other
  | name (name : Text)
  | member
  | unary
  | logical (coalesce : Bool)
  | assigned
  | hole
  | spread (inner : Shape)
  | property (value : Shape)
  | shorthand (offset : Nat)
  | array (items : List Shape) (trailingComma : Bool)
  | object (fields : List Shape)
  | parenthesized (inner : Shape)
  | typed (inner : Shape)
  | typeStatement
  deriving Repr

/-- What a production yields: the form of what it read, and its outline. -/
structure Piece where
  shape : Shape
  outline : Outline

instance : Inhabited Piece := ⟨⟨.other, .empty⟩⟩

inductive Goal
  | expression
  | assignment (arrowType : Bool)
  | unary
  | leftHandSide
  | type
  | pattern (reach : Reach)
  | statement (single : Bool)
  | element (nested : Bool)
  | objectLiteral
  deriving Repr

abbrev Sub := Goal → Parser Piece

namespace Parser

def yields {α : Type} (a : α) : Parser α where
  run _ c := .ok (a, c)
  forward h := by
    simp only [Except.ok.injEq, Prod.mk.injEq] at h
    exact h.2 ▸ .refl _

def andThen {α β : Type} (p : Parser α) (f : α → Parser β) : Parser β where
  run context c :=
    match p.run context c with
    | .error e => .error e
    | .ok (a, d) => (f a).run context d
  forward h := by
    split at h
    · simp at h
    · next hp => exact (p.forward hp).trans ((f _).forward h)

instance : Monad Parser where
  pure := yields
  bind := andThen

def context : Parser Context where
  run context c := .ok (context, c)
  forward h := by
    simp only [Except.ok.injEq, Prod.mk.injEq] at h
    exact h.2 ▸ .refl _

instance : MonadReaderOf Context Parser := ⟨context⟩

def cursor : Parser Cursor where
  run _ c := .ok (c, c)
  forward h := by
    simp only [Except.ok.injEq, Prod.mk.injEq] at h
    exact h.2 ▸ .refl _

def refuse {α : Type} : Parser α where
  run _ c := .error ⟨c.start⟩
  forward h := by simp at h

def changeCovers (change : List Nat → List Nat) : Parser Unit where
  run _ c := .ok ((), { c with covers := change c.covers })
  forward h := by
    simp only [Except.ok.injEq, Prod.mk.injEq, true_and] at h
    subst h
    exact .same (fun _ fits => ⟨fits.source, fits.rest, fits.previous, fits.previous_le,
      fits.start_le, fits.opens, fits.comments⟩) rfl rfl rfl

def moveWith (scanner : Scanner) (skip : Bool) : Parser Unit where
  run _ c :=
    let gap := if skip then skipGap .blank c.stop false c.comments c.rest
      else some ⟨c.rest, c.stop, false, c.comments⟩
    match gap with
    | none => .error ⟨c.stop⟩
    | some gap =>
      match scanner.read? gap.rest with
      | none => .error ⟨gap.offset⟩
      | some (token, rest) =>
        let width := Text.width gap.rest - Text.width rest
        .ok ((), { c with
          token := token, start := gap.offset, stop := gap.offset + width,
          lineBreak := gap.lineBreak, source := gap.rest, rest := rest, previous := c.stop,
          comments := gap.comments })
  forward {_ c _ d} h := by
    intro text fits
    have skipped : ∀ gap, (if skip then skipGap .blank c.stop false c.comments c.rest
        else some ⟨c.rest, c.stop, false, c.comments⟩) = some gap →
        text.RestAt gap.offset gap.rest ∧ c.stop ≤ gap.offset ∧
          ∃ new, gap.comments = new ++ c.comments ∧
            ∀ s ∈ new, c.stop ≤ s.start ∧ s.start < s.stop ∧ s.stop ≤ gap.offset := by
      intro gap hgap
      split at hgap
      · exact ⟨(skipGap_restAt hgap fits.rest).1, skipGap_comments hgap (.inl rfl)⟩
      · simp only [Option.some.injEq] at hgap
        exact hgap ▸ ⟨fits.rest, Nat.le_refl _, [], rfl, by simp⟩
    simp only at h
    split at h
    · simp at h
    · next gap hgap =>
      obtain ⟨place, hle, new, hnew, hcomments⟩ := skipped gap hgap
      split at h
      · simp at h
      · next token rest hread =>
        simp only [Except.ok.injEq, Prod.mk.injEq, true_and] at h
        have hstart := fits.start_le
        have hprevious := fits.previous_le
        subst h
        refine ⟨⟨place, place.suffix (scanner.cuts hread).1, fits.rest.isBoundary, hle,
          Nat.le_add_right _ _, (scanner.cuts hread).2, ?_⟩, by simp only; omega,
          by simp only; omega, new, hnew, fun s hs => Nat.le_trans hstart (hcomments s hs).1⟩
        simp only [hnew]
        refine List.forall_mem_append.2 ⟨fun s hs => (hcomments s hs).2, fun s hs => ?_⟩
        have := fits.comments s hs
        omega

def advance : Parser Unit := moveWith .plain true

def rescan (scanner : Scanner) : Parser Unit where
  run _ c :=
    match scanner.read? c.source with
    | none => .error ⟨c.start⟩
    | some (token, rest) =>
      let width := Text.width c.source - Text.width rest
      .ok ((), { c with token := token, stop := c.start + width, rest := rest })
  forward h := by
    split at h
    · simp at h
    · next token rest hread =>
      simp only [Except.ok.injEq, Prod.mk.injEq, true_and] at h
      subst h
      refine .same (fun text fits => ?_) rfl rfl rfl
      exact ⟨fits.source, fits.source.suffix (scanner.cuts hread).1, fits.previous,
        fits.previous_le, Nat.le_add_right _ _, (scanner.cuts hread).2, fits.comments⟩

def token : Parser Token := return (← cursor).token

def atSymbol (spelling : String) : Parser Bool := return (← cursor).token == .symbol spelling

def atWord (name : String) : Parser Bool := return (← cursor).token == .word name false

def afterBreak : Parser Bool := return (← cursor).lineBreak

def onSameLine : Parser Bool := return !(← cursor).lineBreak

def eatSymbol (spelling : String) : Parser Bool := do
  if ← atSymbol spelling then
    advance
    return true
  return false

def eatWord (name : String) : Parser Bool := do
  if ← atWord name then
    advance
    return true
  return false

def needSymbol (spelling : String) : Parser Unit := do
  unless ← eatSymbol spelling do refuse

def needWord (name : String) : Parser Unit := do
  unless ← eatWord name do refuse

/-- The result of a parser, or nothing and an unmoved cursor. -/
def attempt {α : Type} (p : Parser α) : Parser (Option α) where
  run context c :=
    match p.run context c with
    | .error _ => .ok (none, c)
    | .ok (a, d) => .ok (some a, d)
  forward h := by
    split at h <;> simp only [Except.ok.injEq, Prod.mk.injEq] at h
    · exact h.2 ▸ .refl _
    · next hp => exact h.2 ▸ p.forward hp

def peek {α : Type} (p : Parser α) : Parser α where
  run context c :=
    match p.run context c with
    | .error e => .error e
    | .ok (a, _) => .ok (a, c)
  forward h := by
    split at h
    · simp at h
    · simp only [Except.ok.injEq, Prod.mk.injEq] at h
      exact h.2 ▸ .refl _

def ahead (test : Parser Bool) : Parser Bool := return (← peek (attempt test)).getD false

def optionally {α : Type} (p : Parser (Option α)) : Parser (Option α) where
  run context c :=
    match p.run context c with
    | .error e => .error e
    | .ok (some a, d) => .ok (some a, d)
    | .ok (none, _) => .ok (none, c)
  forward h := by
    split at h <;> simp only [Except.ok.injEq, Prod.mk.injEq, reduceCtorEq] at h
    · next hp => exact h.2 ▸ p.forward hp
    · exact h.2 ▸ .refl _

def endStatement : Parser Unit := do
  if ← eatSymbol ";" then return
  let c ← cursor
  if c.lineBreak || c.token == .symbol "\x7d" || c.token == .finish then return
  refuse

def within {α : Type} (change : Context → Context) (p : Parser α) : Parser α where
  run context c := p.run (change context) c
  forward h := p.forward h

def hasTypes : Parser Bool := return (← read).dialect.types

def hasJsx : Parser Bool := return (← read).dialect.jsx

/-- Repeats a step until it declines; the bound is the number of repetitions. -/
def repeatUpTo {α : Type} (step : Parser (Option α)) : Nat → List α → Parser (List α)
  | 0, _ => refuse
  | bound + 1, done => do
    match ← step with
    | none => return done.reverse
    | some item => repeatUpTo step bound (item :: done)

def many {α : Type} (step : Parser (Option α)) : Parser (List α) := do
  repeatUpTo step (← read).limit []

def collect (outlines : List Outline) : Outline := outlines.foldr (· ++ ·) .empty

def commaItems {α : Type} (close : String) (item : Parser α) : Parser (List α) := many do
  if ← atSymbol close then return none
  let value ← item
  unless ← atSymbol close do needSymbol ","
  return some value

def commaList {α : Type} (close : String) (item : Parser α) : Parser (List α) := do
  let items ← commaItems close item
  needSymbol close
  return items

end Parser

def reservedWords : List String :=
  ["break", "case", "catch", "class", "const", "continue", "debugger", "default", "delete", "do",
   "else", "enum", "export", "extends", "false", "finally", "for", "function", "if", "import",
   "in", "instanceof", "new", "null", "return", "super", "switch", "this", "throw", "true", "try",
   "typeof", "var", "void", "while", "with"]

namespace Parser

def atIdentifier : Parser Bool := do
  match ← token with
  | .word name _ =>
    let context ← read
    if reservedWords.contains name then return false
    if name == "await" && context.inAwait then return false
    if name == "yield" && context.inYield then return false
    return true
  | _ => return false

def atAnyWord : Parser Bool := do
  match ← token with
  | .word _ _ => return true
  | _ => return false

def identifier : Parser Text := do
  unless ← atIdentifier do refuse
  match ← token with
  | .word name _ =>
    advance
    return name.toList
  | _ => refuse

def anyWord : Parser Text := do
  match ← token with
  | .word name _ =>
    advance
    return name.toList
  | _ => refuse

def outlineOf (p : Parser Piece) : Parser Outline := return (← p).outline

end Parser

end TidyImports.Script
