import TidyImports.Script.Grammar.Declarations
import TidyImports.Script.Module

/-! Imports and exports. An import binds its names in the scope it stands in: names of types can only
be used as types, all others in every way. An export of a name uses it, unless the name comes from
another module. -/
namespace TidyImports.Script.Grammar

open Script.Parser

def spanFrom (start : Nat) : Parser Edit.Span := return Edit.Span.ofBounds start (← cursor).previous

def sourceLiteral : Parser SourceLiteral := do
  let start := (← cursor).start
  match ← token with
  | .string value =>
    advance
    return ⟨value, ← spanFrom start⟩
  | _ => refuse

def importAttribute : Parser Unit := do
  match ← token with
  | .word _ _ => advance
  | .string _ => advance
  | _ => refuse
  needSymbol ":"
  let _ ← sourceLiteral

def optionalAttributes : Parser (Option Edit.Span) := do
  unless (← atWord "with") || ((← atWord "assert") && !(← afterBreak)) do return none
  advance
  let start := (← cursor).start
  needSymbol "\x7b"
  let _ ← commaList "\x7d" importAttribute
  return some (← spanFrom start)

/-- A name on the other side of an import or export: its text, and whether it is an identifier
here. -/
structure OuterName where
  text : Text
  isIdentifier : Bool

def outerName : Parser OuterName := do
  match ← token with
  | .word name _ =>
    let isIdentifier ← atIdentifier
    advance
    return ⟨name.toList, isIdentifier⟩
  | .string value =>
    advance
    return ⟨value, false⟩
  | _ => refuse

def atOuterName : Parser Bool := do
  match ← token with
  | .word _ _ => return true
  | .string _ => return true
  | _ => return false

def modifiesSpecifier : Parser Bool := ahead do
  needWord "type"
  unless ← eatWord "as" do return ← atOuterName
  if ← eatWord "as" then return ← atOuterName
  return !(← atOuterName)

/-- Moves past the modifier `type` of a specifier; under a declaration of types it is refused. -/
def eatSpecifierModifier (declarationIsType : Bool) : Parser Bool := do
  unless (← hasTypes) && (← atWord "type") && (← modifiesSpecifier) do return false
  if declarationIsType then refuse
  advance
  return true

def importedName (name : Text) (isType : Bool) : Outline :=
  .declare name (if isType then .typeImport else .both) .block

def importSpecifier (declarationIsType : Bool) : Parser ImportSpecifier := do
  let start := (← cursor).start
  let isType ← eatSpecifierModifier declarationIsType
  let imported ← outerName
  if ← eatWord "as" then
    let name ← identifier
    return .named imported.text name isType (← spanFrom start)
  unless imported.isIdentifier do refuse
  return .named imported.text imported.text isType (← spanFrom start)

def namespaceSpecifier : Parser ImportSpecifier := do
  let start := (← cursor).start
  needSymbol "*"
  needWord "as"
  let name ← identifier
  return .namespaceName name (← spanFrom start)

def specifiersBehindDefault (isType : Bool) : Parser (List ImportSpecifier) := do
  if ← atSymbol "*" then return [← namespaceSpecifier]
  needSymbol "\x7b"
  commaList "\x7d" (importSpecifier isType)

def importSpecifiers (isType : Bool) : Parser (List ImportSpecifier) := do
  unless ← atIdentifier do return ← specifiersBehindDefault isType
  let start := (← cursor).start
  let name ← identifier
  let head := ImportSpecifier.defaultName name (← spanFrom start)
  if ← eatSymbol "," then return head :: (← specifiersBehindDefault isType)
  return [head]

def modifiesImport : Parser Bool := ahead do
  needWord "type"
  if ← eatWord "from" then return (← atWord "from") || (← atSymbol "=")
  return (← atIdentifier) || (← atSymbol "*") || (← atSymbol "\x7b")

def eatPhase : Parser Bool := do
  let hasPhase ← ahead do
    if ← eatWord "defer" then return ← atSymbol "*"
    needWord "source"
    if ← eatWord "from" then return ← atWord "from"
    atIdentifier
  if hasPhase then advance
  return hasPhase

def importEquals (isType : Bool) : Parser (StatementKind × Outline) := do
  let name ← identifier
  needSymbol "="
  let declared := importedName name isType
  if (← atWord "require") && (← ahead do advance; atSymbol "(") then
    advance
    needSymbol "("
    let source ← sourceLiteral
    needSymbol ")"
    endStatement
    return (.sourced source, declared)
  let root ← identifier
  dottedWords
  endStatement
  return (.other, declared ++ .use root .value)

def specifierOutline (isType : Bool) (specifier : ImportSpecifier) : Outline :=
  match specifier with
  | .named _ name typed _ => importedName name (isType || typed)
  | other => importedName other.name isType

def importRest (start : Nat) (isType hasPhase : Bool) (specifiers : List ImportSpecifier) :
    Parser (StatementKind × Outline) := do
  let source ← sourceLiteral
  let attributes ← optionalAttributes
  endStatement
  let span ← spanFrom start
  return (.importing ⟨span, source, attributes, isType, hasPhase, specifiers⟩,
    collect (specifiers.map (specifierOutline isType)))

def eatImportModifier : Parser Bool := do
  unless (← hasTypes) && (← atWord "type") && (← modifiesImport) do return false
  advance
  return true

def importClause (start : Nat) (isType hasPhase : Bool) : Parser (StatementKind × Outline) := do
  if (← hasTypes) && !hasPhase && (← atIdentifier) && (← ahead do advance; atSymbol "=") then
    return ← importEquals isType
  let specifiers ← importSpecifiers isType
  needWord "from"
  importRest start isType hasPhase specifiers

def importStatement : Parser (StatementKind × Outline) := do
  let start := (← cursor).start
  needWord "import"
  if let .string _ := ← token then return ← importRest start false false []
  let isType ← eatImportModifier
  let hasPhase ← if isType then pure false else eatPhase
  importClause start isType hasPhase

def startsImport : Parser Bool := ahead do
  needWord "import"
  match ← token with
  | .word _ _ => return true
  | .string _ => return true
  | .symbol spelling => return spelling == "*" || spelling == "\x7b"
  | _ => return false

/-- What an export statement yields: its kind, what it read, and the names it exports. -/
structure Exported where
  kind : StatementKind
  piece : Piece
  names : List Text

/-- One specifier of an export: the name here, the name for others, and whether it is a type. -/
structure ExportSpecifier where
  name : OuterName
  exported : Text
  isType : Bool

def exportSpecifier (declarationIsType : Bool) : Parser ExportSpecifier := do
  let isType ← eatSpecifierModifier declarationIsType
  let name ← outerName
  let exported ← if ← eatWord "as" then outerName else pure name
  return ⟨name, exported.text, isType⟩

def exportSource : Parser SourceLiteral := do
  let source ← sourceLiteral
  let _ ← optionalAttributes
  endStatement
  return source

def exportAll : Parser Exported := do
  needSymbol "*"
  let names ← if ← eatWord "as" then pure [(← outerName).text] else pure []
  needWord "from"
  return ⟨.sourced (← exportSource), plain .empty, names⟩

def exportNames (isType : Bool) : Parser Exported := do
  needSymbol "\x7b"
  let specifiers ← commaList "\x7d" (exportSpecifier isType)
  let names := specifiers.map ExportSpecifier.exported
  if ← eatWord "from" then return ⟨.sourced (← exportSource), plain .empty, names⟩
  unless specifiers.all fun specifier => specifier.name.isIdentifier do refuse
  endStatement
  let uses := specifiers.map fun specifier =>
    Outline.use specifier.name.text (if isType || specifier.isType then .type else .any)
  return ⟨.other, plain (collect uses), names⟩

def exportedExpression (sub : Sub) (goal : Goal) : Parser Outline := do
  let value ← sub goal
  endStatement
  match value.shape with
  | .name name => return .use name .any
  | _ => return value.outline

def classDecorators (sub : Sub) : Parser Outline := do
  unless ← atSymbol "@" do return .empty
  let decoration ← decorators sub
  let isClass ← ahead do
    if ← eatWord "export" then
      let _ ← eatWord "default"
    let _ ← many (eatModifier ["declare", "abstract"] true)
    atWord "class"
  unless isClass do refuse
  return decoration

def exportDefault (sub : Sub) : Parser Outline := do
  let decoration ← classDecorators sub
  if (← hasTypes) && (← atWord "abstract") && (← beforeWord "class") then
    advance
    return decoration ++ (← classDeclaration sub false)
  if ← atWord "class" then return decoration ++ (← classDeclaration sub false)
  if (← atWord "function") || (← startsAsyncFunction) then return ← functionDeclaration sub false
  if (← hasTypes) && (← atWord "interface") && (← beforeName) then
    return (← interfaceDeclaration sub).outline
  exportedExpression sub (.assignment true)

def declaredNames (outline : Outline) : List Text :=
  (outline.names.block ++ outline.names.function).map Prod.fst

def exportedDeclaration (sub : Sub) : Parser Exported := do
  let decoration ← classDecorators sub
  match ← declaration? sub with
  | some piece =>
    return ⟨.other, ⟨piece.shape, decoration ++ piece.outline⟩, declaredNames piece.outline⟩
  | none => refuse

def typedExport? (sub : Sub) : Parser (Option Exported) := do
  if ← atWord "import" then
    needWord "import"
    let (_, outline) ← importEquals (← eatImportModifier)
    return some ⟨.other, plain outline, []⟩
  if ← eatSymbol "=" then return some ⟨.other, plain (← exportedExpression sub .expression), []⟩
  if (← atWord "as") && (← beforeWord "namespace") then
    advance
    advance
    let _ ← identifier
    endStatement
    return some ⟨.other, plain .empty, []⟩
  if ← atWord "type" then
    if ← ahead do advance; return (← atSymbol "*") || (← atSymbol "\x7b") then
      advance
      return some (← if ← atSymbol "*" then exportAll else exportNames true)
  return none

def untypedExport (sub : Sub) : Parser Exported := do
  if ← eatWord "default" then
    return ⟨.other, plain (← exportDefault sub), ["default".toList]⟩
  if ← atSymbol "*" then return ← exportAll
  if ← atSymbol "\x7b" then return ← exportNames false
  exportedDeclaration sub

def exportStatement (sub : Sub) : Parser Exported := do
  needWord "export"
  if ← hasTypes then
    if let some exported ← typedExport? sub then return exported
  untypedExport sub

end TidyImports.Script.Grammar
