import TidyImports.Script.Grammar.Types

/-! Elements: tags, attributes and what stands between tags. Inside tags names may hold hyphens and
strings know no escapes; between tags everything is text up to a brace or a tag. The root of a
member name is a use of a value, and so is a plain name that does not start with a small ASCII
letter. -/
namespace TidyImports.Script.Grammar

open Script.Parser

def tagWord : Parser Text := do
  match ← token with
  | .word _ _ =>
    rescan .jsxName
    anyWord
  | _ => refuse

structure TagName where
  spelling : Text
  outline : Outline

def namesVariable (name : Text) : Bool :=
  match name with
  | [] => false
  | c :: _ => !('a' ≤ c && c ≤ 'z') && !name.any (· == '-')

def tagName : Parser TagName := do
  let root ← tagWord
  if ← eatSymbol ":" then
    return ⟨root ++ [':'] ++ (← tagWord), .empty⟩
  let members ← many do
    if ← eatSymbol "." then return some (← tagWord)
    return none
  let isThis := root == "this".toList
  let isUse := !isThis && (!members.isEmpty || namesVariable root)
  return ⟨Text.glue ['.'] (root :: members), if isUse then .use root .value else .empty⟩

def attributeValue (sub : Sub) : Parser Outline := do
  match ← token with
  | .string _ =>
    advance
    return .empty
  | .symbol "\x7b" =>
    advance
    let value ← outlineOf (sub .expression)
    needSymbol "\x7d"
    return value
  | .symbol "<" => outlineOf (sub (.element false))
  | _ => refuse

def attribute? (sub : Sub) : Parser (Option Outline) := do
  match ← token with
  | .symbol "\x7b" =>
    advance
    needSymbol "..."
    let value ← outlineOf (sub (.assignment true))
    needSymbol "\x7d"
    return some value
  | .word _ _ =>
    let _ ← tagWord
    if ← eatSymbol ":" then let _ ← tagWord
    if ← atSymbol "=" then
      moveWith .attributeValue true
      return some (← attributeValue sub)
    return some .empty
  | _ => return none

def leaveTag (intoText : Bool) : Parser Unit := do
  unless ← atSymbol ">" do refuse
  if intoText then moveWith .jsxChild false else advance

def closingTag (spelling : Text) (nested : Bool) : Parser Unit := do
  if ← atSymbol ">" then
    unless spelling.isEmpty do refuse
  else
    let name ← tagName
    unless name.spelling == spelling do refuse
  leaveTag nested

def child? (sub : Sub) : Parser (Option Outline) := do
  match ← token with
  | .jsxText =>
    moveWith .jsxChild false
    return some .empty
  | .symbol "\x7b" =>
    advance
    let _ ← eatSymbol "..."
    let value ← if ← atSymbol "\x7d" then pure .empty else outlineOf (sub .expression)
    unless ← atSymbol "\x7d" do refuse
    moveWith .jsxChild false
    return some value
  | .symbol "<" =>
    if ← ahead do advance; atSymbol "/" then
      advance
      advance
      return none
    return some (← outlineOf (sub (.element true)))
  | _ => refuse

/-- An element or a fragment; the cursor stands on its less-than sign. A nested one ends in the text
around it. -/
def element (sub : Sub) (nested : Bool) : Parser Outline := do
  needSymbol "<"
  if ← atSymbol ">" then
    leaveTag true
    let children ← many (child? sub)
    closingTag [] nested
    return collect children
  let name ← tagName
  let generics ← if ← hasTypes then optionalTypeArguments sub else pure .empty
  let attributes ← many (attribute? sub)
  let head := name.outline ++ generics ++ collect attributes
  if ← eatSymbol "/" then
    leaveTag nested
    return head
  leaveTag true
  let children ← many (child? sub)
  closingTag name.spelling nested
  return head ++ collect children

end TidyImports.Script.Grammar
