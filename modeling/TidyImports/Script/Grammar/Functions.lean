import TidyImports.Script.Grammar.Types

/-! Functions, methods and classes. The type parameters, parameters, result and body of a function
share one scope. A class has a scope around its type parameters, its heritage and its members; a
name given in an expression is bound there, a name given in a declaration around the class. -/
namespace TidyImports.Script.Grammar

open Script.Parser

structure Suspension where
  isAsync : Bool
  isGenerator : Bool

def Suspension.context (s : Suspension) (c : Context) : Context :=
  { c with
    allowIn := true, inAwait := s.isAsync, inYield := s.isGenerator, inReturn := true,
    inDecorator := false, conditionalTypes := true }

def braced (sub : Sub) : Parser (List Piece) := do
  needSymbol "\x7b"
  let items ← many do
    if ← atSymbol "\x7d" then return none
    return some (← sub (.statement false))
  needSymbol "\x7d"
  return items

def outlines (pieces : List Piece) : Outline := collect (pieces.map Piece.outline)

/-- What follows the name of a function. Where the dialect has types, a declaration may lack its
body. -/
def functionRest (sub : Sub) (s : Suspension) (bodyNeeded : Bool) : Parser Outline :=
  within s.context do
    let head ← signature sub
    if ← atSymbol "\x7b" then return .scope .function (head ++ outlines (← braced sub))
    if bodyNeeded || !(← hasTypes) then refuse
    endStatement
    return .scope .function head

/-- A function declaration, which binds its name around the function; a default export may lack the
name. -/
def functionDeclaration (sub : Sub) (nameNeeded : Bool) : Parser Outline := do
  let isAsync ← eatWord "async"
  needWord "function"
  let isGenerator ← eatSymbol "*"
  let name ←
    if nameNeeded || (← atIdentifier) then
      pure (.declare (← identifier) .valueOnly .block)
    else pure .empty
  return name ++ (← functionRest sub ⟨isAsync, isGenerator⟩ false)

def functionExpression (sub : Sub) : Parser Outline := do
  let isAsync ← eatWord "async"
  needWord "function"
  let isGenerator ← eatSymbol "*"
  let suspension : Suspension := ⟨isAsync, isGenerator⟩
  let name ← within suspension.context do
    if ← atIdentifier then pure (Outline.declare (← identifier) .valueOnly .block)
    else pure .empty
  let body ← functionRest sub suspension true
  return .scope .function (name ++ body)

def startsAsyncFunction : Parser Bool := ahead do
  needWord "async"
  return (← atWord "function") && !(← afterBreak)

def memberModifiers : List String :=
  ["abstract", "accessor", "declare", "public", "private", "protected", "override", "readonly"]

def eatMemberModifier : Parser (Option Unit) := do
  if (← atWord "static") && (← ahead do advance; modifierFollows false) then
    if ← ahead do advance; atSymbol "\x7b" then return none
    advance
    return some ()
  let words := if ← hasTypes then memberModifiers else ["accessor"]
  return (← eatModifier words true).map fun _ => ()

def memberKey (sub : Sub) : Parser Outline := do
  match ← token with
  | .privateName _ =>
    advance
    return .empty
  | _ => return (← propertyKey sub).outline

def startsMemberKey (sameLine : Bool) : Parser Bool := ahead do
  advance
  if sameLine && (← afterBreak) then return false
  match ← token with
  | .privateName _ => return true
  | .symbol "*" => return sameLine
  | _ => atKey

def fieldContext (c : Context) : Context :=
  { c with allowIn := true, inAwait := false, inYield := false, inDecorator := false }

def fieldRest (sub : Sub) : Parser Outline := do
  let annotation ← optionalAnnotation sub
  let value ← within fieldContext (optionalInitialValue sub)
  endStatement
  return annotation ++ value

def keyedMember (sub : Sub) : Parser Outline := do
  if (← atWord "get") || (← atWord "set") then
    if ← startsMemberKey false then
      advance
      let key ← memberKey sub
      return key ++ (← functionRest sub ⟨false, false⟩ false)
  if (← hasTypes) && (← atSymbol "[") && (← startsIndexSignature) then
    let outline ← indexSignature sub
    endStatement
    return outline
  let isAsync ← if ← atWord "async" then startsMemberKey true else pure false
  if isAsync then advance
  let isGenerator ← eatSymbol "*"
  let key ← memberKey sub
  if ← hasTypes then
    unless ← eatSymbol "?" do
      let _ ← eatSymbol "!"
  if isAsync || isGenerator || (← atSymbol "(") || ((← hasTypes) && (← atSymbol "<")) then
    return key ++ (← functionRest sub ⟨isAsync, isGenerator⟩ false)
  return key ++ (← fieldRest sub)

def staticBlock (sub : Sub) : Parser Outline := do
  needWord "static"
  let context := fun (c : Context) =>
    { c with
      allowIn := true, inAwait := true, inYield := false, inReturn := false, inDecorator := false }
  return .scope .function (outlines (← within context (braced sub)))

def classMember (sub : Sub) : Parser Outline := do
  let decoration ← decorators sub
  let _ ← many eatMemberModifier
  let isBlock ← if ← atWord "static" then ahead do advance; atSymbol "\x7b" else pure false
  if isBlock then staticBlock sub else return decoration ++ (← keyedMember sub)

def classBody (sub : Sub) : Parser Outline := do
  needSymbol "\x7b"
  let items ← many do
    if ← atSymbol "\x7d" then return none
    if ← eatSymbol ";" then return some Outline.empty
    return some (← classMember sub)
  needSymbol "\x7d"
  return collect items

def heritageType (sub : Sub) : Parser Outline := typeReference sub

def heritageTypes (sub : Sub) : Parser Outline := do
  let head ← heritageType sub
  let items ← many do
    if ← eatSymbol "," then return some (← heritageType sub)
    return none
  return head ++ collect items

def classHeritage (sub : Sub) : Parser Outline := do
  let base ←
    if ← eatWord "extends" then
      let base ← outlineOf (sub .leftHandSide)
      let generics ← if ← hasTypes then optionalTypeArguments sub else pure .empty
      pure (base ++ generics)
    else pure .empty
  if ← hasTypes <&&> eatWord "implements" then return base ++ (← heritageTypes sub)
  return base

def atClassName : Parser Bool := do
  if ← atIdentifier then
    if (← hasTypes) && (← atWord "implements") then
      return ← ahead do advance; return !(← atIdentifier)
    return true
  return false

def classRest (sub : Sub) (inside : Outline) : Parser Outline := do
  let generics ← optionalTypeParameters sub
  let heritage ← classHeritage sub
  let body ← within (fun c => { c with allowIn := true }) (classBody sub)
  return .scope .block (inside ++ generics ++ heritage ++ body)

def classDeclaration (sub : Sub) (nameNeeded : Bool) : Parser Outline := do
  needWord "class"
  let name ←
    if nameNeeded || (← atClassName) then pure (Outline.declare (← identifier) .both .block)
    else pure .empty
  return name ++ (← classRest sub .empty)

def classExpression (sub : Sub) : Parser Outline := do
  let decoration ← decorators sub
  needWord "class"
  let name ←
    if ← atClassName then pure (Outline.declare (← identifier) .both .block) else pure .empty
  return decoration ++ (← classRest sub name)

end TidyImports.Script.Grammar
