import TidyImports.Script.Grammar.Basic

/-! What declares names: patterns and parameters, and the keys, annotations and initial values inside
them. A pattern is read for a reach, so the same production serves parameters, variables of a block
and variables of a function. -/
namespace TidyImports.Script.Grammar

open Script.Parser

def initialValue (sub : Sub) : Parser Outline :=
  within (fun c => { c with allowIn := true }) (outlineOf (sub (.assignment true)))

def optionalInitialValue (sub : Sub) : Parser Outline := do
  if ← eatSymbol "=" then initialValue sub else return .empty

def optionalAnnotation (sub : Sub) : Parser Outline := do
  if ← hasTypes <&&> eatSymbol ":" then outlineOf (sub .type) else return .empty

/-- The key of a property: its identifier, if it can stand for a variable as well, and what a
computed key uses. -/
structure Key where
  identifier : Option Text
  outline : Outline

def computedKey (sub : Sub) : Parser Outline := do
  needSymbol "["
  let outline ← initialValue sub
  needSymbol "]"
  return outline

def propertyKey (sub : Sub) : Parser Key := do
  match ← token with
  | .word name _ =>
    let plain ← atIdentifier
    advance
    return ⟨if plain then some name.toList else none, .empty⟩
  | .string _ =>
    advance
    return ⟨none, .empty⟩
  | .number =>
    advance
    return ⟨none, .empty⟩
  | .symbol "[" => return ⟨none, ← computedKey sub⟩
  | _ => refuse

def atKey : Parser Bool := do
  match ← token with
  | .word _ _ => return true
  | .string _ => return true
  | .number => return true
  | .symbol spelling => return spelling == "["
  | _ => return false

def defaultedPattern (sub : Sub) (reach : Reach) : Parser Outline := do
  let target ← outlineOf (sub (.pattern reach))
  return target ++ (← optionalInitialValue sub)

def arrayPattern (sub : Sub) (reach : Reach) : Parser Outline := do
  needSymbol "["
  let items ← many do
    if ← atSymbol "]" then return none
    if ← eatSymbol "," then return some Outline.empty
    if ← eatSymbol "..." then
      let target ← outlineOf (sub (.pattern reach))
      unless ← atSymbol "]" do refuse
      return some target
    let item ← defaultedPattern sub reach
    unless ← atSymbol "]" do needSymbol ","
    return some item
  needSymbol "]"
  return collect items

def patternProperty (sub : Sub) (reach : Reach) : Parser Outline := do
  let key ← propertyKey sub
  if ← eatSymbol ":" then return key.outline ++ (← defaultedPattern sub reach)
  match key.identifier with
  | none => refuse
  | some name => return .declare name .valueOnly reach ++ (← optionalInitialValue sub)

def objectPattern (sub : Sub) (reach : Reach) : Parser Outline := do
  needSymbol "\x7b"
  let items ← many do
    if ← atSymbol "\x7d" then return none
    if ← eatSymbol "..." then
      let name ← identifier
      unless ← atSymbol "\x7d" do refuse
      return some (Outline.declare name .valueOnly reach)
    let item ← patternProperty sub reach
    unless ← atSymbol "\x7d" do needSymbol ","
    return some item
  needSymbol "\x7d"
  return collect items

def pattern (sub : Sub) (reach : Reach) : Parser Outline := do
  match ← token with
  | .symbol "[" => arrayPattern sub reach
  | .symbol "\x7b" => objectPattern sub reach
  | _ => return .declare (← identifier) .valueOnly reach

def decorator (sub : Sub) : Parser Outline := do
  needSymbol "@"
  within (fun c => { c with inDecorator := true }) (outlineOf (sub .leftHandSide))

def decorators (sub : Sub) : Parser Outline := do
  let items ← many do
    if ← atSymbol "@" then return some (← decorator sub)
    return none
  return collect items

/-- Whether a word that can be a modifier is one: what follows it goes on with a declaration. -/
def modifierFollows (sameLine : Bool) : Parser Bool := do
  if sameLine && (← afterBreak) then return false
  match ← token with
  | .word _ _ => return true
  | .privateName _ => return true
  | .string _ => return true
  | .number => return true
  | .symbol spelling => return ["[", "\x7b", "*", "..."].contains spelling
  | _ => return false

def eatModifier (words : List String) (sameLine : Bool) : Parser (Option String) := do
  match ← token with
  | .word name false =>
    if words.contains name && (← ahead do advance; modifierFollows sameLine) then
      advance
      return some name
    return none
  | _ => return none

def parameterModifiers : List String := ["public", "private", "protected", "readonly", "override"]

def parameter (sub : Sub) : Parser (Outline × Bool) := do
  let decoration ← decorators sub
  if ← hasTypes then
    let _ ← many (eatModifier parameterModifiers true)
    if ← eatWord "this" then return (decoration ++ (← optionalAnnotation sub), false)
  let isRest ← eatSymbol "..."
  let target ← outlineOf (sub (.pattern .block))
  if ← hasTypes then
    let _ ← eatSymbol "?"
  let annotation ← optionalAnnotation sub
  if isRest then
    if ← atSymbol "=" then refuse
  let value ← optionalInitialValue sub
  return (decoration ++ target ++ annotation ++ value, isRest)

def parameters (sub : Sub) : Parser Outline := do
  needSymbol "("
  let items ← many do
    if ← atSymbol ")" then return none
    let (outline, isRest) ← parameter sub
    if isRest then
      unless ← atSymbol ")" do refuse
    unless ← atSymbol ")" do needSymbol ","
    return some outline
  needSymbol ")"
  return collect items

end TidyImports.Script.Grammar
