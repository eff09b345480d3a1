import TidyImports.Document.Kind
import TidyImports.Import.Merge
import TidyImports.Import.Reading
import TidyImports.Import.Render

/-! Organizing the imports of a script. Import declarations that follow each other with nothing but
blanks and at most one line break between them form a group; each group is replaced as a whole. A
group that disappears takes the line break behind it along. -/
namespace TidyImports.Import

open Script

/-- Whether a declaration continues the group of the one before it. -/
def continuesGroup (text : Text) (previous next : ImportDeclaration) : Bool :=
  let between := text.slice previous.span.stop next.span.start
  between.allBlank && between.lineFeeds ≤ 1

/-- The groups of import declarations among statements, in order. -/
def importGroups (text : Text) : List Statement → List (List ImportDeclaration)
  | [] => []
  | statement :: rest =>
    match statement.kind with
    | .importing d =>
      match importGroups text rest, rest.head?.map Statement.kind with
      | group :: groups, some (.importing next) =>
        if continuesGroup text d next then (d :: group) :: groups else [d] :: group :: groups
      | groups, _ => [d] :: groups
    | _ => importGroups text rest

def newlineOf (text : Text) : Text :=
  if text.contains ['\r', '\n'] then ['\r', '\n'] else ['\n']

def lineBreakLength : Text → Nat
  | '\r' :: '\n' :: _ => 2
  | '\n' :: _ => 1
  | _ => 0

def organizedText (text : Text) (program : Program) (isUsed : Text → Bool) (order : TypeOrder)
    (group : List ImportDeclaration) : Text :=
  let imports := group.filterMap (Item.ofDeclaration? text program.comments isUsed)
  let newline := newlineOf text
  Text.glue newline ((organizeGroup order imports).map (Item.render newline))

def groupSpan (group : List ImportDeclaration) : Edit.Span :=
  match group.head?, group.getLast? with
  | some first, some last => Edit.Span.ofBounds first.span.start last.span.stop
  | _, _ => ⟨0, 0⟩

/-- The change that puts a group's new text in place, if the text is new. -/
def groupChange? (text new : Text) (span : Edit.Span) : Option Edit.Change :=
  if new = text.slice span.start span.stop then none
  else if new.isEmpty then
    some (.replace span.start (span.stop + lineBreakLength (text.after span.stop)) new)
  else some (.replace span.start span.stop new)

/-- Whether a name that an import binds is used; elements use one name without mentioning it. -/
def isUsedIn (program : Program) (keepUnused hasElements : Bool) (name : Text) : Bool :=
  keepUnused || (hasElements && name == "React".toList) || program.names.isUsed name

/-- The changes that organize the imports of a parsed script. -/
def organizeProgram (text : Text) (program : Program) (keepUnused hasElements : Bool)
    (order : TypeOrder) : List Edit.Change :=
  (importGroups text program.statements).filterMap fun group =>
    groupChange? text
      (organizedText text program (isUsedIn program keepUnused hasElements) order group)
      (groupSpan group)

end TidyImports.Import
