import TidyImports.Script.Grammar.Statements

/-! Parsing of whole scripts. A script is read as a module, statement by statement, and each statement
as if the text began with it: the depth of its productions is bounded by the text that is left, and
what stands before it does not matter. A byte order mark or a line that names an interpreter may
stand before the first statement. -/
namespace TidyImports.Script

open Script.Parser Script.Grammar

/-- What is kept of a statement at the outermost level: where it is and what it has to do with other
modules, its outline, and the names it exports. -/
structure TopStatement where
  statement : Statement
  outline : Outline
  exports : List Text
  deriving DecidableEq

def TopStatement.shift (delta : Nat) (item : TopStatement) : TopStatement :=
  { item with statement := item.statement.shift delta }

def topStatement (sub : Sub) : Parser TopStatement := do
  let start := (← cursor).start
  if ← startsImport then
    let (kind, outline) ← importStatement
    return ⟨⟨← spanFrom start, kind⟩, outline, []⟩
  if (← atWord "export") || (← atSymbol "@") then
    let exported ← if ← atSymbol "@" then decoratedStatement sub else exportStatement sub
    return ⟨⟨← spanFrom start, exported.kind⟩, exported.piece.outline, exported.names⟩
  let piece ← sub (.statement false)
  return ⟨⟨← spanFrom start, .other⟩, piece.outline, []⟩

def Cursor.here (c : Cursor) : Cursor :=
  { c with
    start := 0, stop := c.stop - c.start, lineBreak := false, previous := 0, comments := [],
    covers := [] }

def Cursor.behind (c d : Cursor) : Cursor :=
  { d with
    start := d.start + c.start, stop := d.stop + c.start, previous := d.previous + c.start,
    comments := d.comments.map (Edit.Span.shift c.start) ++ c.comments,
    covers := d.covers.map (· + c.start) ++ c.covers }

theorem Cursor.Fits.here {c : Cursor} {text : Text} (h : c.Fits text) : c.here.Fits c.source := by
  obtain ⟨between, source, stop⟩ := h.source.split h.rest h.start_le
  have width : c.stop - c.start = 0 + between.width := by omega
  have place : c.source.RestAt 0 (between ++ c.rest) := source ▸ Text.restAt_zero c.source
  exact ⟨Text.restAt_zero _, show c.source.RestAt (c.stop - c.start) c.rest from width ▸ place.append,
    (Text.restAt_zero _).isBoundary, Nat.le_refl _, Nat.zero_le _, h.opens, by simp [Cursor.here]⟩

theorem Cursor.Fits.behind {c d : Cursor} {text : Text} (h : c.Fits text) (k : d.Fits c.source) :
    (c.behind d).Fits text := by
  have whole : text.RestAt c.start (c.source ++ []) := by simpa using h.source
  have place {n : Nat} {rest : Text} (k : c.source.RestAt n rest) : text.RestAt (n + c.start) rest := by
    have inner := whole.inner k
    rwa [List.append_nil, Nat.add_comm] at inner
  refine ⟨place k.source, place k.rest, ?_, ?_, ?_, k.opens, ?_⟩
  · obtain ⟨rest, previous⟩ := Text.restAt_of_isBoundary k.previous
    exact (place previous).isBoundary
  · exact Nat.add_le_add_right k.previous_le _
  · exact Nat.add_le_add_right k.start_le _
  · refine List.forall_mem_append.2 ⟨List.forall_mem_map.2 fun s hs => ?_, fun s hs => ?_⟩
    · have inside := k.comments s hs
      rw [Edit.Span.stop_shift]
      simp only [Edit.Span.shift, Cursor.behind]
      omega
    · have before := h.comments s hs
      simp only [Cursor.behind]
      omega

/-- Reads as if the text began at the cursor. -/
def fromHere {α : Type} (p : Parser α) : Parser α where
  run context c :=
    match p.run context c.here with
    | .error e => .error ⟨e.offset + c.start⟩
    | .ok (a, d) => .ok (a, c.behind d)
  forward {_ c _ _} h := by
    split at h <;> simp only [Except.ok.injEq, Prod.mk.injEq, reduceCtorEq] at h
    next a d hp =>
    obtain ⟨rfl, rfl⟩ := h
    intro text fits
    have inside := (p.forward hp c.source fits.here).1
    have previous := fits.previous_le
    refine ⟨fits.behind inside, Nat.le_add_left _ _, ?_, _, rfl, List.forall_mem_map.2 fun s _ => ?_⟩
    · simp only [Cursor.behind]
      omega
    · exact Nat.le_add_left _ _

def nextStatement : Parser TopStatement := do
  let c ← cursor
  let limit := c.source.length + 4
  let item ← fromHere (within (fun context => { context with limit }) (topStatement (upTo (16 * limit))))
  unless c.start < (← cursor).start do refuse
  return item.shift c.start

/-- All statements of a script. An initial value of an abbreviated property is only legal in a
pattern, so none may be left. No name may be exported twice, unless there are types: they let one
name be declared several times. -/
def script : Parser (List TopStatement) := do
  advance
  let items ← many do
    if (← token) == .finish then return none
    return some (← nextStatement)
  unless (← cursor).covers.isEmpty do refuse
  unless (← hasTypes) || decide (items.flatMap TopStatement.exports).Nodup do refuse
  return items

def scriptStart (text : Text) : Text × Nat :=
  match text with
  | '\uFEFF' :: rest => (rest, 3)
  | '#' :: '!' :: _ =>
    (text.dropWhile (!isLineBreak ·), Text.width (text.takeWhile (!isLineBreak ·)))
  | _ => (text, 0)

def Cursor.initial (text : Text) : Cursor :=
  let (rest, offset) := scriptStart text
  ⟨.finish, offset, offset, false, rest, rest, offset, [], []⟩

def parse (dialect : Dialect) (text : Text) : Except SyntaxError Program := do
  let (items, cursor) ←
    script.run (Context.module_ dialect (text.length + 4)) (Cursor.initial text)
  return ⟨items.map TopStatement.statement, cursor.comments.reverse,
    (collect (items.map TopStatement.outline)).names⟩

end TidyImports.Script
