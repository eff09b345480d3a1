import TidyImports.Script.Grammar.Bindings

/-! Types. The root of a type name is a use of a type, the root of a `typeof` type is a use of a
value inside a type. Signatures and mapped types have scopes of their own; the names that `infer`
introduces belong to the conditional type around them. -/
namespace TidyImports.Script.Grammar

open Script.Parser

def startsAngle : Parser Bool := do
  match ← token with
  | .symbol spelling =>
    if spelling == "<" then return true
    if ["<<", "<=", "<<="].contains spelling then
      rescan .less
      return true
    return false
  | _ => return false

def typeArguments (sub : Sub) : Parser Outline := do
  unless ← startsAngle do refuse
  advance
  if ← atSymbol ">" then refuse
  return collect (← commaList ">" (outlineOf (sub .type)))

def optionalTypeArguments (sub : Sub) : Parser Outline := do
  if ← onSameLine <&&> startsAngle then typeArguments sub else return .empty

def typeParameter (sub : Sub) : Parser Outline := do
  let _ ← many do
    if (← atWord "const") || (← atWord "in") then
      advance
      return some ()
    if (← atWord "out") && (← ahead do advance; atIdentifier) then
      advance
      return some ()
    return none
  let name ← identifier
  let bound ← if ← eatWord "extends" then outlineOf (sub .type) else pure .empty
  let fallback ← if ← eatSymbol "=" then outlineOf (sub .type) else pure .empty
  return .declare name .typeOnly .block ++ bound ++ fallback

def optionalTypeParameters (sub : Sub) : Parser Outline := do
  if (← hasTypes) && (← atSymbol "<") then
    advance
    if ← atSymbol ">" then refuse
    return collect (← commaList ">" (typeParameter sub))
  else return .empty

def typeOrPredicate (sub : Sub) : Parser Outline := do
  let isPredicate ← ahead do
    let _ ← identifier
    return (← atWord "is") && !(← afterBreak)
  if isPredicate then
    advance
    advance
  outlineOf (sub .type)

def optionalResultType (sub : Sub) : Parser Outline := do
  if ← hasTypes <&&> eatSymbol ":" then typeOrPredicate sub else return .empty

def signature (sub : Sub) : Parser Outline := do
  let generics ← optionalTypeParameters sub
  let inputs ← parameters sub
  return generics ++ inputs ++ (← optionalResultType sub)

def closedSignature (sub : Sub) : Parser Outline := return .scope .function (← signature sub)

def startsParameters (sub : Sub) : Parser Bool := ahead do
  needSymbol "("
  if (← atSymbol ")") || (← atSymbol "...") then return true
  let _ ← many (eatModifier parameterModifiers true)
  if (← atIdentifier) || (← atWord "this") then advance
  else if (← atSymbol "[") || (← atSymbol "\x7b") then
    let _ ← sub (.pattern .block)
  else return false
  match ← token with
  | .symbol spelling =>
    if [":", ",", "?", "="].contains spelling then return true
    if spelling != ")" then return false
    advance
    atSymbol "=>"
  | _ => return false

def startsFunctionType (sub : Sub) : Parser Bool := do
  if (← atSymbol "<") || (← atWord "new") then return true
  if ← atWord "abstract" then return ← ahead do advance; atWord "new"
  if ← atSymbol "(" then startsParameters sub else return false

def functionType (sub : Sub) : Parser Outline := do
  let _ ← eatWord "abstract"
  let _ ← eatWord "new"
  let generics ← optionalTypeParameters sub
  let inputs ← parameters sub
  needSymbol "=>"
  return .scope .function (generics ++ inputs ++ (← typeOrPredicate sub))

def dottedWords : Parser Unit := do
  let _ ← many do
    if ← eatSymbol "." then
      match ← token with
      | .privateName _ => advance
      | _ => let _ ← anyWord
      return some ()
    return none

def typeReference (sub : Sub) : Parser Outline := do
  let root ← anyWord
  dottedWords
  return .use root .type ++ (← optionalTypeArguments sub)

/-- The pieces of a template with what stands between them; `strict` refuses malformed escapes. -/
def templateParts (strict : Bool) (item : Parser Outline) : Parser Outline := do
  let items ← many do
    match ← token with
    | .template body closed =>
      if strict && !escapesValid body then refuse
      advance
      if closed then return none
      let part ← item
      unless ← atSymbol "\x7d" do refuse
      rescan .templateTail
      return some part
    | _ => refuse
  return collect items

def importType (sub : Sub) : Parser Outline := do
  needWord "import"
  needSymbol "("
  let module_ ← outlineOf (sub .type)
  let options ←
    if (← eatSymbol ",") && !(← atSymbol ")") then
      let options ← outlineOf (sub .objectLiteral)
      let _ ← eatSymbol ","
      pure options
    else pure .empty
  needSymbol ")"
  dottedWords
  return module_ ++ options ++ (← optionalTypeArguments sub)

def typeQuery (sub : Sub) : Parser Outline := do
  needWord "typeof"
  if ← atWord "import" then return ← importType sub
  let root ←
    if ← eatWord "this" then pure .empty
    else pure (.use (← identifier) .valueInType)
  dottedWords
  return root ++ (← optionalTypeArguments sub)

def startsMappedType : Parser Bool := ahead do
  needSymbol "\x7b"
  if ← eatSymbol "+" <||> eatSymbol "-" then return ← atWord "readonly"
  let _ ← eatWord "readonly"
  needSymbol "["
  let _ ← identifier
  atWord "in"

def mappedType (sub : Sub) : Parser Outline := do
  needSymbol "\x7b"
  if ← eatSymbol "+" <||> eatSymbol "-" then needWord "readonly"
  else let _ ← eatWord "readonly"
  needSymbol "["
  let key ← identifier
  needWord "in"
  let domain ← outlineOf (sub .type)
  let renamed ← if ← eatWord "as" then outlineOf (sub .type) else pure .empty
  needSymbol "]"
  if ← eatSymbol "+" <||> eatSymbol "-" then needSymbol "?"
  else let _ ← eatSymbol "?"
  let value ← optionalAnnotation sub
  unless ← eatSymbol "," do endStatement
  needSymbol "\x7d"
  return .scope .block (.declare key .typeOnly .block ++ domain ++ renamed ++ value)

def startsIndexSignature : Parser Bool := ahead do
  needSymbol "["
  if (← atSymbol "...") || (← atSymbol "]") then return true
  let _ ← identifier
  if (← atSymbol ":") || (← atSymbol ",") then return true
  unless ← eatSymbol "?" do return false
  return (← atSymbol ":") || (← atSymbol ",") || (← atSymbol "]")

def indexSignature (sub : Sub) : Parser Outline := do
  needSymbol "["
  let _ ← identifier
  needSymbol ":"
  let key ← outlineOf (sub .type)
  needSymbol "]"
  needSymbol ":"
  return key ++ (← outlineOf (sub .type))

def atSignature : Parser Bool := return (← atSymbol "(") || (← atSymbol "<")

def typeMember (sub : Sub) : Parser Outline := do
  if ← atSignature then return ← closedSignature sub
  if (← atWord "new") && (← ahead do advance; atSignature) then
    advance
    return ← closedSignature sub
  let _ ← many (eatModifier ["readonly"] true)
  if (← atWord "get") || (← atWord "set") then
    if ← ahead do advance; atKey then
      advance
      let key ← propertyKey sub
      return key.outline.insideType ++ (← closedSignature sub)
  if (← atSymbol "[") && (← startsIndexSignature) then return ← indexSignature sub
  let key ← propertyKey sub
  let _ ← eatSymbol "?"
  let rest ← if ← atSignature then closedSignature sub else optionalAnnotation sub
  return key.outline.insideType ++ rest

def typeMembers (sub : Sub) : Parser Outline := do
  needSymbol "\x7b"
  let items ← many do
    if ← atSymbol "\x7d" then return none
    let item ← typeMember sub
    unless ← eatSymbol "," do endStatement
    return some item
  needSymbol "\x7d"
  return collect items

def tupleElement (sub : Sub) : Parser Outline := do
  let isLabelled ← ahead do
    let _ ← eatSymbol "..."
    let _ ← anyWord
    let _ ← eatSymbol "?"
    atSymbol ":"
  let _ ← eatSymbol "..."
  if isLabelled then
    let _ ← anyWord
    let _ ← eatSymbol "?"
    needSymbol ":"
  let outline ← outlineOf (sub .type)
  let _ ← eatSymbol "?"
  return outline

def typeKeywords : List String :=
  ["any", "unknown", "string", "number", "bigint", "symbol", "boolean", "undefined", "never",
   "object"]

def constantTypes : List String := ["void", "null", "true", "false"]

def wordType (sub : Sub) (name : String) : Parser Outline := do
  if constantTypes.contains name then
    advance
    return .empty
  if name == "this" then
    advance
    if (← atWord "is") && !(← afterBreak) then
      advance
      return ← outlineOf (sub .type)
    return .empty
  if name == "typeof" then return ← typeQuery sub
  if name == "import" then return ← importType sub
  if name == "asserts" then
    let isAssertion ← ahead do
      advance
      return !(← afterBreak) && ((← atIdentifier) || (← atWord "this"))
    if isAssertion then
      advance
      advance
      return ← if ← eatWord "is" then outlineOf (sub .type) else return .empty
  if typeKeywords.contains name && !(← ahead do advance; atSymbol ".") then
    advance
    return .empty
  typeReference sub

def primaryType (sub : Sub) : Parser Outline := do
  match ← token with
  | .word name _ => wordType sub name
  | .string _ =>
    advance
    return .empty
  | .number =>
    advance
    return .empty
  | .template _ _ => templateParts true (outlineOf (sub .type))
  | .symbol "-" =>
    advance
    match ← token with
    | .number =>
      advance
      return .empty
    | _ => refuse
  | .symbol "\x7b" => if ← startsMappedType then mappedType sub else typeMembers sub
  | .symbol "[" =>
    advance
    return collect (← commaList "]" (tupleElement sub))
  | .symbol "(" =>
    advance
    let inner ← outlineOf (sub .type)
    needSymbol ")"
    return inner
  | _ => refuse

def postfixType (sub : Sub) : Parser Outline := do
  let head ← primaryType sub
  let items ← many do
    unless ← onSameLine <&&> eatSymbol "[" do return none
    if ← eatSymbol "]" then return some Outline.empty
    let index ← outlineOf (sub .type)
    needSymbol "]"
    return some index
  return head ++ collect items

/-- The bound of a name that `infer` introduces. Before a question mark it is no bound but the test
of a conditional type. -/
def inferBound (sub : Sub) : Parser Outline := do
  needWord "extends"
  let bound ← outlineOf (within (fun c => { c with conditionalTypes := false }) (sub .type))
  if (← read).conditionalTypes && (← atSymbol "?") then refuse
  return bound

def operatorType (sub : Sub) : Parser Outline := do
  let _ ← many do
    if ← eatWord "keyof" <||> eatWord "unique" <||> eatWord "readonly" then return some ()
    return none
  if ← eatWord "infer" then
    let name ← identifier
    let bound ← attempt (inferBound sub)
    return .declare name .typeOnly .conditional ++ bound.getD .empty
  within (fun c => { c with conditionalTypes := true }) (postfixType sub)

def typeChain (operator : String) (item : Parser Outline) : Parser Outline := do
  let _ ← eatSymbol operator
  let head ← item
  let items ← many do
    if ← eatSymbol operator then return some (← item)
    return none
  return head ++ collect items

/-- A type. In a conditional type, the names that the tested type introduces are bound in the branch
that is taken when the test succeeds. -/
def typeProduction (sub : Sub) : Parser Outline := do
  if ← startsFunctionType sub then return ← functionType sub
  let check ← typeChain "|" (typeChain "&" (operatorType sub))
  let mayTest := (← read).conditionalTypes
  unless ← pure mayTest <&&> onSameLine <&&> eatWord "extends" do return check
  let free := fun (c : Context) => { c with conditionalTypes := true }
  let test ← outlineOf (within (fun c => { c with conditionalTypes := false }) (sub .type))
  needSymbol "?"
  let accepted ← outlineOf (within free (sub .type))
  needSymbol ":"
  let rejected ← outlineOf (within free (sub .type))
  return check ++ .scope .conditional (test ++ accepted) ++ rejected

end TidyImports.Script.Grammar
