import TidyImports.Script.Grammar.Expressions

/-! Declarations: variables, functions, classes, and the declarations that only dialects with types
have. A declaration that leaves no trace at run time is marked by its shape, because a namespace of
such declarations alone offers no value. -/
namespace TidyImports.Script.Grammar

open Script.Parser

inductive VariableKind
  | var
  | let_
  | const
  | using
  deriving DecidableEq

def VariableKind.reach : VariableKind → Reach
  | .var => .function
  | _ => .block

def VariableKind.needsValue : VariableKind → Bool
  | .const => true
  | .using => true
  | _ => false

/-- One variable, or the variables of one pattern; says also whether an initial value is missing. -/
def declarator (sub : Sub) (kind : VariableKind) : Parser (Outline × Bool) := do
  let isName ← atIdentifier
  let target ← outlineOf (sub (.pattern kind.reach))
  if ← hasTypes then
    let _ ← eatSymbol "!"
  let annotation ← optionalAnnotation sub
  if ← eatSymbol "=" then
    let value ← outlineOf (sub (.assignment true))
    return (target ++ annotation ++ value, false)
  return (target ++ annotation, !isName || kind.needsValue)

def declarators (sub : Sub) (kind : VariableKind) : Parser (Outline × Bool) := do
  let head ← declarator sub kind
  let items ← many do
    if ← eatSymbol "," then return some (← declarator sub kind)
    return none
  return (head.1 ++ collect (items.map Prod.fst), head.2 || items.any Prod.snd)

def startsVariables : Parser (Option VariableKind) := do
  if ← atWord "var" then return some .var
  if ← atWord "const" then return some .const
  if ← atWord "let" then
    let isDeclaration ← ahead do
      advance
      return (← atIdentifier) || (← atSymbol "[") || (← atSymbol "\x7b")
    return if isDeclaration then some .let_ else none
  let isUsing ← ahead do
    let isAwait ← eatWord "await"
    if isAwait && (← afterBreak) then return false
    needWord "using"
    return !(← afterBreak) && (← atIdentifier) && (isAwait || !(← atWord "of"))
  return if isUsing then some .using else none

def enterVariables (kind : VariableKind) : Parser Unit := do
  if kind = .using then
    let _ ← eatWord "await"
  advance

def variableStatement (sub : Sub) (kind : VariableKind) : Parser Piece := do
  enterVariables kind
  let (outline, missing) ← declarators sub kind
  if missing && !(← read).ambient then refuse
  endStatement
  return plain outline

def enumMember (sub : Sub) : Parser Outline := do
  let name ←
    match ← token with
    | .word name _ => pure (Outline.declare name.toList .both .block)
    | .string value => pure (Outline.declare value .both .block)
    | .symbol "[" => pure .empty
    | _ => refuse
  let key ← propertyKey sub
  return name ++ key.outline ++ (← optionalInitialValue sub)

def enumDeclaration (sub : Sub) : Parser Piece := do
  let _ ← eatWord "const"
  needWord "enum"
  let name ← identifier
  needSymbol "\x7b"
  let members ← commaList "\x7d" (enumMember sub)
  return plain (.declare name .both .block ++ .scope .block (collect members))

def interfaceDeclaration (sub : Sub) : Parser Piece := do
  needWord "interface"
  let name ← identifier
  let generics ← optionalTypeParameters sub
  let heritage ← if ← eatWord "extends" then heritageTypes sub else pure .empty
  let members ← typeMembers sub
  return ⟨.typeStatement,
    .declare name .typeOnly .block ++ .scope .block (generics ++ heritage ++ members)⟩

def aliasDeclaration (sub : Sub) : Parser Piece := do
  needWord "type"
  let name ← identifier
  let generics ← optionalTypeParameters sub
  needSymbol "="
  let value ← outlineOf (sub .type)
  endStatement
  return ⟨.typeStatement, .declare name .typeOnly .block ++ .scope .block (generics ++ value)⟩

def isTypeStatement (piece : Piece) : Bool :=
  match piece.shape with
  | .typeStatement => true
  | _ => false

def namespaceContext (c : Context) : Context :=
  { c with allowIn := true, inReturn := false, inYield := false }

def nestedNamespaces (offersValue : Bool) (body : Outline) : List Text → Outline
  | [] => body
  | name :: rest =>
    .declare name ⟨offersValue, true, offersValue⟩ .block ++
      .scope .function (nestedNamespaces offersValue body rest)

def namespaceDeclaration (sub : Sub) : Parser Piece := do
  advance
  match ← token with
  | .string _ =>
    advance
    if ← atSymbol "\x7b" then
      return ⟨.typeStatement, .scope .function (outlines (← within namespaceContext (braced sub)))⟩
    endStatement
    return ⟨.typeStatement, .empty⟩
  | _ =>
    let head ← identifier
    let names ← many do
      if ← eatSymbol "." then return some (← anyWord)
      return none
    let body ← within namespaceContext (braced sub)
    let isTyping := body.all isTypeStatement
    return ⟨if isTyping then .typeStatement else .other,
      nestedNamespaces (!isTyping) (outlines body) (head :: names)⟩

def globalDeclaration (sub : Sub) : Parser Piece := do
  needWord "global"
  return ⟨.typeStatement, .scope .function (outlines (← within namespaceContext (braced sub)))⟩

def beforeName : Parser Bool := ahead do
  advance
  return !(← afterBreak) && (← atIdentifier)

def beforeWord (name : String) : Parser Bool := ahead do
  advance
  return !(← afterBreak) && (← atWord name)

def beforeString : Parser Bool := ahead do
  advance
  match ← token with
  | .string _ => return !(← afterBreak)
  | _ => return false

def typedDeclaration? (sub : Sub) : Parser (Option Piece) := do
  match ← token with
  | .word "enum" false => return some (← enumDeclaration sub)
  | .word "const" false =>
    unless ← ahead (do advance; atWord "enum") do return none
    return some (← enumDeclaration sub)
  | .word "interface" false =>
    unless ← beforeName do return none
    return some (← interfaceDeclaration sub)
  | .word "type" false =>
    unless ← beforeName do return none
    return some (← aliasDeclaration sub)
  | .word "namespace" false =>
    unless ← beforeName do return none
    return some (← namespaceDeclaration sub)
  | .word "module" false =>
    unless (← beforeName) || (← beforeString) do return none
    return some (← namespaceDeclaration sub)
  | .word "global" false =>
    unless ← ahead (do advance; atSymbol "\x7b") do return none
    return some (← globalDeclaration sub)
  | .word "abstract" false =>
    unless ← beforeWord "class" do return none
    advance
    return some (plain (← classDeclaration sub true))
  | _ => return none

def plainDeclaration? (sub : Sub) : Parser (Option Piece) := do
  if ← hasTypes then
    if let some piece ← typedDeclaration? sub then return some piece
  if let some kind ← startsVariables then return some (← variableStatement sub kind)
  if (← atWord "function") || (← startsAsyncFunction) then
    return some (plain (← functionDeclaration sub true))
  if ← atWord "class" then return some (plain (← classDeclaration sub true))
  return none

def declaration? (sub : Sub) : Parser (Option Piece) := do
  if (← hasTypes) && (← atWord "declare") then
    let followed ← ahead do
      advance
      return !(← afterBreak) && (← atAnyWord)
    if followed then
      return ← attempt do
        advance
        match ← within (fun c => { c with ambient := true }) (plainDeclaration? sub) with
        | some piece => return piece
        | none => refuse
  plainDeclaration? sub

end TidyImports.Script.Grammar
