import TidyImports.Script.Grammar.Elements
import TidyImports.Script.Grammar.Functions

/-! Expressions. The outline of an expression does not depend on how its operators associate, so
binary operators are read as one flat chain; the shape of the operands is kept where the grammar
asks for it: for assignments, for exponents and for the operators that do not mix. -/
namespace TidyImports.Script.Grammar

open Script.Parser

def plain (outline : Outline) : Piece := ⟨.other, outline⟩

def enclosed {α : Type} (p : Parser α) : Parser α :=
  within (fun c => { c with allowIn := true, inDecorator := false }) p

def isSimpleTarget : Shape → Bool
  | .name _ => true
  | .member => true
  | .parenthesized inner => isSimpleTarget inner
  | .typed inner => isSimpleTarget inner
  | _ => false

mutual

/-- The places of the abbreviated initial values that a shape makes legal by being assigned to, or
nothing if it cannot be assigned to. -/
def targetCovers : Shape → Option (List Nat)
  | .array items trailingComma => itemCovers items trailingComma
  | .object fields => fieldCovers fields
  | .assigned => some []
  | shape => if isSimpleTarget shape then some [] else none

def itemCovers : List Shape → Bool → Option (List Nat)
  | [], _ => some []
  | .hole :: rest, trailing => itemCovers rest trailing
  | .spread .assigned :: _, _ => none
  | .spread inner :: rest, trailing =>
    if rest.isEmpty && !trailing then targetCovers inner else none
  | item :: rest, trailing =>
    match targetCovers item, itemCovers rest trailing with
    | some a, some b => some (a ++ b)
    | _, _ => none

def fieldCovers : List Shape → Option (List Nat)
  | [] => some []
  | .shorthand offset :: rest => (fieldCovers rest).map (offset :: ·)
  | .property value :: rest =>
    match targetCovers value, fieldCovers rest with
    | some a, some b => some (a ++ b)
    | _, _ => none
  | .spread inner :: rest => if rest.isEmpty && isSimpleTarget inner then some [] else none
  | _ :: _ => none

end

def assignTo (shape : Shape) : Parser Unit := do
  if let .assigned := shape then refuse
  match targetCovers shape with
  | none => refuse
  | some offsets => changeCovers fun covers => covers.filter (!offsets.contains ·)

def callArguments (sub : Sub) : Parser Outline := enclosed do
  needSymbol "("
  let items ← commaList ")" do
    let _ ← eatSymbol "..."
    outlineOf (sub (.assignment true))
  return collect items

def arrayLiteral (sub : Sub) : Parser Piece := enclosed do
  needSymbol "["
  let items ← many do
    if ← atSymbol "]" then return none
    if ← eatSymbol "," then return some (Piece.mk .hole .empty, false)
    let isSpread ← eatSymbol "..."
    let value ← sub (.assignment true)
    let item : Piece := if isSpread then ⟨.spread value.shape, value.outline⟩ else value
    if ← atSymbol "]" then return some (item, false)
    needSymbol ","
    return some (item, true)
  needSymbol "]"
  let trailing := match items.getLast? with
    | some (_, comma) => comma
    | none => false
  return ⟨.array (items.map fun item => item.1.shape) trailing, outlines (items.map Prod.fst)⟩

def startsMethodKey (generator : Bool) : Parser Bool := ahead do
  advance
  if generator && (← afterBreak) then return false
  if ← atSymbol "*" then return generator
  atKey

def propertyRest (sub : Sub) (key : Key) (start : Nat) : Parser Piece := do
  if (← atSymbol "(") || ((← hasTypes) && (← atSymbol "<")) then
    return plain (key.outline ++ (← functionRest sub ⟨false, false⟩ true))
  if ← eatSymbol ":" then
    let value ← sub (.assignment true)
    return ⟨.property value.shape, key.outline ++ value.outline⟩
  match key.identifier with
  | none => refuse
  | some name =>
    if ← eatSymbol "=" then
      changeCovers (start :: ·)
      let value ← outlineOf (sub (.assignment true))
      return ⟨.shorthand start, .use name .value ++ value⟩
    return ⟨.property (.name name), .use name .value⟩

def property (sub : Sub) : Parser Piece := do
  if ← eatSymbol "..." then
    let value ← sub (.assignment true)
    return ⟨.spread value.shape, value.outline⟩
  if (← atWord "get") || (← atWord "set") then
    if ← startsMethodKey false then
      advance
      let key ← propertyKey sub
      return plain (key.outline ++ (← functionRest sub ⟨false, false⟩ true))
  let isAsync ← if ← atWord "async" then startsMethodKey true else pure false
  if isAsync then advance
  let isGenerator ← eatSymbol "*"
  let start := (← cursor).start
  let key ← propertyKey sub
  if isAsync || isGenerator then
    return plain (key.outline ++ (← functionRest sub ⟨isAsync, isGenerator⟩ true))
  propertyRest sub key start

def objectLiteral (sub : Sub) : Parser Piece := enclosed do
  needSymbol "\x7b"
  let items ← commaList "\x7d" (property sub)
  return ⟨.object (items.map Piece.shape), outlines items⟩

def templateLiteral (sub : Sub) (strict : Bool) : Parser Outline :=
  enclosed (templateParts strict (outlineOf (sub .expression)))

def binarySymbols : List String :=
  ["||", "&&", "??", "|", "^", "&", "==", "!=", "===", "!==", "<", "<=", ">", ">=", "<<", ">>",
   ">>>", "+", "-", "*", "/", "%", "**"]

def openingWords : List String :=
  ["this", "super", "null", "true", "false", "function", "class", "new", "delete", "typeof", "void",
   "import"]

def openingSymbols : List String := ["\x7b", "[", "!", "~", "++", "--", "/=", "@"]

/-- Whether type arguments may end before the token under the cursor: before a call or a template
they do, before a sign they do not, and otherwise they do unless an operand follows on the line. -/
def endsTypeArguments : Parser Bool := do
  match ← token with
  | .template _ _ => return true
  | .finish => return true
  | .symbol spelling =>
    if spelling == "(" then return true
    if ["<", ">", "+", "-"].contains spelling then return false
    return (← afterBreak) || !openingSymbols.contains spelling
  | .word name _ =>
    return (← afterBreak) || name == "as" || name == "satisfies" ||
      (reservedWords.contains name && !openingWords.contains name)
  | _ => afterBreak

def expressionTypeArguments? (sub : Sub) : Parser (Option Outline) := do
  unless (← hasTypes) && ((← atSymbol "<") || (← atSymbol "<<")) do return none
  attempt do
    unless ← startsAngle do refuse
    advance
    if ← atSymbol ">" then refuse
    let generics ← commaItems ">" (outlineOf (sub .type))
    rescan .greater
    needSymbol ">"
    unless ← endsTypeArguments do refuse
    return collect generics

structure ChainLink where
  piece : Piece
  optional : Bool

def ChainLink.extend (link : ChainLink) (shape : Shape) (outline : Outline) : ChainLink :=
  ⟨⟨if link.optional then .other else shape, link.piece.outline ++ outline⟩, link.optional⟩

def memberName : Parser Unit := do
  match ← token with
  | .privateName _ => advance
  | _ => let _ ← anyWord

def optionalLink (sub : Sub) (link : ChainLink) : Parser ChainLink := do
  let link : ChainLink := ⟨link.piece, true⟩
  if ← eatSymbol "[" then
    let index ← enclosed (outlineOf (sub .expression))
    needSymbol "]"
    return link.extend .other index
  if ← atSymbol "(" then return link.extend .other (← callArguments sub)
  if ← hasTypes <&&> startsAngle then
    let generics ← typeArguments sub
    return link.extend .other (generics ++ (← callArguments sub))
  memberName
  return link.extend .other .empty

/-- One more member, call or tag of a chain, if there is one; inside `new` calls and optional
members do not count. -/
def nextLink (sub : Sub) (calls : Bool) (link : ChainLink) : Parser (Option ChainLink) := do
  match ← token with
  | .symbol "?." =>
    unless calls do refuse
    advance
    return some (← optionalLink sub link)
  | .symbol "." =>
    advance
    memberName
    return some (link.extend .member .empty)
  | .symbol "[" =>
    if (← read).inDecorator then return none
    advance
    let index ← enclosed (outlineOf (sub .expression))
    needSymbol "]"
    return some (link.extend .member index)
  | .symbol "!" =>
    if !(← hasTypes) || (← afterBreak) then return none
    advance
    return some (link.extend (.typed link.piece.shape) .empty)
  | .symbol "(" =>
    unless calls do return none
    return some (link.extend .other (← callArguments sub))
  | .template _ _ =>
    if link.optional then refuse
    return some (link.extend .other (← templateLiteral sub false))
  | .symbol _ =>
    return (← expressionTypeArguments? sub).map fun generics => link.extend .other generics
  | _ => return none

def chainFrom (sub : Sub) (calls : Bool) : Nat → ChainLink → Parser ChainLink
  | 0, _ => refuse
  | bound + 1, link => do
    match ← nextLink sub calls link with
    | none => return link
    | some next => chainFrom sub calls bound next

def chain (sub : Sub) (calls : Bool) (head : Piece) : Parser Piece := do
  return (← chainFrom sub calls (← read).limit ⟨head, false⟩).piece

def parenthesized (sub : Sub) : Parser Piece := do
  needSymbol "("
  let inner ← enclosed (sub .expression)
  needSymbol ")"
  return ⟨.parenthesized inner.shape, inner.outline⟩

def importExpression (sub : Sub) : Parser Piece := do
  needWord "import"
  if ← eatSymbol "." then
    if ← eatWord "meta" then return plain .empty
    unless ← eatWord "defer" <||> eatWord "source" do refuse
  enclosed do
    needSymbol "("
    let module_ ← outlineOf (sub (.assignment true))
    let options ←
      if (← eatSymbol ",") && !(← atSymbol ")") then
        let options ← outlineOf (sub (.assignment true))
        let _ ← eatSymbol ","
        pure options
      else pure .empty
    needSymbol ")"
    return plain (module_ ++ options)

def constantWords : List String := ["this", "null", "true", "false"]

def wordExpression (sub : Sub) (name : String) : Parser Piece := do
  if constantWords.contains name then
    advance
    return plain .empty
  if name == "super" then
    advance
    unless (← atSymbol "(") || (← atSymbol ".") || (← atSymbol "[") || (← atSymbol "?.") do refuse
    return plain .empty
  if name == "import" then return ← importExpression sub
  if name == "function" || (← startsAsyncFunction) then return plain (← functionExpression sub)
  if name == "class" then return plain (← classExpression sub)
  let name ← identifier
  return ⟨.name name, .use name .value⟩

def primary (sub : Sub) : Parser Piece := do
  match ← token with
  | .word name _ => wordExpression sub name
  | .number =>
    advance
    return plain .empty
  | .string _ =>
    advance
    return plain .empty
  | .template _ _ => return plain (← templateLiteral sub true)
  | .privateName _ =>
    advance
    unless ← atWord "in" do refuse
    return plain .empty
  | .symbol "(" => parenthesized sub
  | .symbol "[" => arrayLiteral sub
  | .symbol "\x7b" => sub .objectLiteral
  | .symbol "@" => return plain (← classExpression sub)
  | .symbol spelling =>
    unless spelling == "/" || spelling == "/=" do refuse
    rescan .regex
    advance
    return plain .empty
  | _ => refuse

/-- What follows `new`: a target without calls, and arguments; the bound is the number of nested
words `new`. -/
def construction (sub : Sub) : Nat → Parser Piece
  | 0 => refuse
  | bound + 1 => do
    needWord "new"
    if ← eatSymbol "." then
      needWord "target"
      return plain .empty
    if ← atWord "import" then
      let isMeta ← ahead do
        advance
        eatSymbol "." <&&> atWord "meta"
      unless isMeta do refuse
    let head ← if ← atWord "new" then construction sub bound else primary sub
    let target ← chain sub false head
    if ← atSymbol "?." then refuse
    let inputs ← if ← atSymbol "(" then callArguments sub else pure .empty
    return plain (target.outline ++ inputs)

def leftHandSide (sub : Sub) : Parser Piece := do
  let head ←
    if ← atWord "new" then construction sub (← read).limit else primary sub
  chain sub true head

def unarySymbols : List String := ["+", "-", "~", "!"]

def unaryWords : List String := ["delete", "typeof", "void"]

def updateExpression (sub : Sub) : Parser Piece := do
  if (← atSymbol "++") || (← atSymbol "--") then
    advance
    let target ← sub .leftHandSide
    unless isSimpleTarget target.shape do refuse
    return plain target.outline
  let value ← sub .leftHandSide
  if !(← afterBreak) && ((← atSymbol "++") || (← atSymbol "--")) then
    unless isSimpleTarget value.shape do refuse
    advance
    return plain value.outline
  return value

def atAwait : Parser Bool := return (← read).inAwait && (← atWord "await")

def unaryExpression (sub : Sub) : Parser Piece := do
  match ← token with
  | .symbol "<" =>
    if ← hasJsx then
      return plain (← enclosed (outlineOf (sub (.element false))))
    unless ← hasTypes do refuse
    advance
    let annotation ← outlineOf (sub .type)
    needSymbol ">"
    let value ← sub .unary
    return ⟨.unary, annotation ++ value.outline⟩
  | .symbol spelling =>
    unless unarySymbols.contains spelling do return ← updateExpression sub
    advance
    return ⟨.unary, ← outlineOf (sub .unary)⟩
  | .word name false =>
    unless unaryWords.contains name || (← atAwait) do return ← updateExpression sub
    advance
    return ⟨.unary, ← outlineOf (sub .unary)⟩
  | _ => updateExpression sub

inductive Joint
  | coalesce
  | logical
  | exponent
  | ordinary
  deriving DecidableEq

def jointOf (spelling : String) : Joint :=
  if spelling == "??" then .coalesce
  else if spelling == "||" || spelling == "&&" then .logical
  else if spelling == "**" then .exponent
  else .ordinary

def eatBinaryOperator : Parser (Option Joint) := do
  if ← atSymbol ">" then rescan .greater
  match ← token with
  | .symbol spelling =>
    unless binarySymbols.contains spelling do return none
    advance
    return some (jointOf spelling)
  | .word name false =>
    unless name == "instanceof" || (name == "in" && (← read).allowIn) do return none
    advance
    return some .ordinary
  | _ => return none

def typeClaim? (sub : Sub) : Parser (Option Outline) := do
  if !(← hasTypes) || (← afterBreak) then return none
  unless (← atWord "as") || (← atWord "satisfies") do return none
  let isAs ← atWord "as"
  advance
  if ← pure isAs <&&> eatWord "const" then return some .empty
  return some (← outlineOf (sub .type))

/-- What is known about a chain of binary operators: its last operand, and which of the operators
that do not mix occurred. -/
structure BinaryChain where
  last : Shape
  outline : Outline
  length : Nat
  hasCoalesce : Bool
  hasLogical : Bool

def binaryRest (sub : Sub) : Nat → BinaryChain → Parser BinaryChain
  | 0, _ => refuse
  | bound + 1, state => do
    if let some claim ← typeClaim? sub then
      return ← binaryRest sub bound
        { state with
          last := if state.length = 0 then .typed state.last else .other
          outline := state.outline ++ claim }
    match ← eatBinaryOperator with
    | none => return state
    | some joint =>
      if joint = .exponent then
        if let .unary := state.last then refuse
      let operand ← sub .unary
      let next : BinaryChain :=
        { last := operand.shape
          outline := state.outline ++ operand.outline
          length := state.length + 1
          hasCoalesce := state.hasCoalesce || joint = .coalesce
          hasLogical := state.hasLogical || joint = .logical }
      if next.hasCoalesce && next.hasLogical then refuse
      binaryRest sub bound next

def binaryExpression (sub : Sub) : Parser Piece := do
  let head ← sub .unary
  let whole ← binaryRest sub (← read).limit ⟨head.shape, head.outline, 0, false, false⟩
  return ⟨if whole.length = 0 then whole.last else .other, whole.outline⟩

/-- What a look at the tokens says about an arrow function. -/
inductive Guess
  | yes
  | no
  | maybe
  deriving DecidableEq

def guessParameters : Parser Guess := do
  match ← token with
  | .symbol spelling =>
    if spelling == ")" then
      advance
      return if (← atSymbol "=>") || (← atSymbol ":") || (← atSymbol "\x7b") then .yes else .no
    if spelling == "..." then return .yes
    return if spelling == "[" || spelling == "\x7b" then .maybe else .no
  | .word name _ =>
    if (← hasTypes) && parameterModifiers.contains name then
      if ← ahead do advance; atIdentifier then
        advance
        return if ← atWord "as" then .no else .yes
    unless (← atIdentifier) || name == "this" do return .no
    advance
    match ← token with
    | .symbol next =>
      if next == ":" then return .yes
      if next == "?" then
        advance
        match ← token with
        | .symbol third => return if [":", ",", "=", ")"].contains third then .yes else .no
        | _ => return .no
      return if [",", "=", ")"].contains next then .maybe else .no
    | _ => return .no
  | _ => return .no

def guessTypeParameters : Parser Guess := do
  unless (← atIdentifier) || (← atWord "const") do return .no
  unless ← hasJsx do return .maybe
  let _ ← eatWord "const"
  let _ ← anyWord
  if ← eatWord "extends" then
    return if (← atSymbol "=") || (← atSymbol ">") || (← atSymbol "/") then .no else .yes
  return if (← atSymbol ",") || (← atSymbol "=") then .yes else .no

/-- The guess whether an arrow function with a parameter list starts here; the cursor moves. -/
def guessFrom : Parser Guess := do
  if ← eatWord "async" then
    if ← afterBreak then return .no
  if ← eatSymbol "(" then return ← guessParameters
  if ← hasTypes <&&> eatSymbol "<" then return ← guessTypeParameters
  return .no

def guessArrow : Parser Guess := return (← peek (attempt guessFrom)).getD .no

/-- The head of an arrow function with a parameter list: whether it may suspend itself, its outline,
and whether it states a result type. -/
structure ArrowHead where
  isAsync : Bool
  outline : Outline
  hasResult : Bool

def arrowHead (sub : Sub) : Parser ArrowHead := do
  let isAsync ← eatWord "async"
  let context := fun (c : Context) =>
    { c with allowIn := true, inAwait := isAsync || c.inAwait, inDecorator := false }
  let (head, hasResult) ← within context do
    let generics ← optionalTypeParameters sub
    let inputs ← parameters sub
    let hasResult ← atSymbol ":"
    let result ← optionalResultType sub
    return (generics ++ inputs ++ result, hasResult)
  if ← afterBreak then refuse
  needSymbol "=>"
  return ⟨isAsync, head, hasResult⟩

def arrowBody (sub : Sub) (isAsync arrowType : Bool) : Parser Outline := do
  if ← atSymbol "\x7b" then
    within (Suspension.context ⟨isAsync, false⟩) (return outlines (← braced sub))
  else
    let context := fun (c : Context) => { c with inAwait := isAsync, inYield := false }
    within context (outlineOf (sub (.assignment arrowType)))

def arrowRest (sub : Sub) (head : ArrowHead) (arrowType : Bool) : Parser Outline := do
  let body ← arrowBody sub head.isAsync arrowType
  return .scope .function (head.outline ++ body)

/-- An arrow function with a parameter list, if one starts here. Where a colon may go on with a
conditional expression, a result type is only one if a colon follows the function. -/
def arrowFunction? (sub : Sub) (arrowType : Bool) : Parser (Option Outline) := optionally do
  let guess ← guessArrow
  if guess = .no then return none
  let head? ← if guess = .yes then pure (some (← arrowHead sub)) else attempt (arrowHead sub)
  match head? with
  | none => return none
  | some head =>
    if arrowType || !head.hasResult then return some (← arrowRest sub head arrowType)
    attempt do
      let whole ← arrowRest sub head arrowType
      unless ← atSymbol ":" do refuse
      return whole

def startsAsyncArrow : Parser Bool := ahead do
  needWord "async"
  if ← afterBreak then return false
  let _ ← identifier
  return (← atSymbol "=>") && !(← afterBreak)

def bareArrow (sub : Sub) (name : Text) (isAsync arrowType : Bool) : Parser Outline := do
  needSymbol "=>"
  let body ← arrowBody sub isAsync arrowType
  return .scope .function (.declare name .valueOnly .block ++ body)

def assignmentSymbols : List String :=
  ["=", "+=", "-=", "*=", "/=", "%=", "**=", "<<=", ">>=", ">>>=", "&=", "|=", "^=", "&&=", "||=",
   "??="]

def startsYielded : Parser Bool := do
  if ← afterBreak then return false
  match ← token with
  | .finish => return false
  | .symbol spelling => return !([";", "\x7d", ")", "]", ":", ","].contains spelling)
  | .word name _ => return name != "in" && name != "of"
  | _ => return true

def yieldExpression (sub : Sub) (arrowType : Bool) : Parser Outline := do
  needWord "yield"
  if ← onSameLine <&&> eatSymbol "*" then return ← outlineOf (sub (.assignment arrowType))
  if ← startsYielded then outlineOf (sub (.assignment arrowType)) else return .empty

def conditionalRest (sub : Sub) (arrowType : Bool) (test : Piece) : Parser Piece := do
  unless ← eatSymbol "?" do return test
  let accepted ← enclosed (outlineOf (sub (.assignment false)))
  needSymbol ":"
  let rejected ← outlineOf (sub (.assignment arrowType))
  return plain (test.outline ++ accepted ++ rejected)

/-- What follows an operand chain: the body of an arrow function, a value that is assigned, or the
branches of a conditional expression. -/
def assignmentRest (sub : Sub) (arrowType : Bool) (target : Piece) : Parser Piece := do
  if ← atSymbol "=>" then
    match target.shape with
    | .name name =>
      if ← afterBreak then refuse
      return plain (← bareArrow sub name false arrowType)
    | _ => refuse
  match ← token with
  | .symbol spelling =>
    unless assignmentSymbols.contains spelling do return ← conditionalRest sub arrowType target
    if spelling == "=" then assignTo target.shape
    else unless isSimpleTarget target.shape do refuse
    advance
    let value ← outlineOf (sub (.assignment arrowType))
    return ⟨if spelling == "=" then .assigned else .other, target.outline ++ value⟩
  | _ => return target

def assignmentExpression (sub : Sub) (arrowType : Bool) : Parser Piece := do
  if (← read).inYield && (← atWord "yield") then return plain (← yieldExpression sub arrowType)
  if let some outline ← arrowFunction? sub arrowType then return plain outline
  if ← startsAsyncArrow then
    advance
    let name ← identifier
    return plain (← bareArrow sub name true arrowType)
  assignmentRest sub arrowType (← binaryExpression sub)

def expression (sub : Sub) : Parser Piece := do
  let head ← sub (.assignment true)
  let items ← many do
    if ← eatSymbol "," then return some (← sub (.assignment true))
    return none
  if items.isEmpty then return head
  return plain (head.outline ++ outlines items)

end TidyImports.Script.Grammar
