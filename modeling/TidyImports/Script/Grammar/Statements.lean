import TidyImports.Script.Grammar.Modules

/-! Statements, and the function from goals to productions. Blocks, loops, switches and handlers of
exceptions have scopes of their own; labels are no variables. -/
namespace TidyImports.Script.Grammar

open Script.Parser

def block (sub : Sub) : Parser Outline := return .scope .block (outlines (← braced sub))

def condition (sub : Sub) : Parser Outline := do
  needSymbol "("
  let test ← outlineOf (sub .expression)
  needSymbol ")"
  return test

def governed (sub : Sub) : Parser Outline := outlineOf (sub (.statement true))

def ifStatement (sub : Sub) : Parser Outline := do
  needWord "if"
  let test ← condition sub
  let accepted ← governed sub
  let rejected ← if ← eatWord "else" then governed sub else pure .empty
  return test ++ accepted ++ rejected

def whileStatement (sub : Sub) : Parser Outline := do
  needWord "while"
  let test ← condition sub
  return test ++ (← governed sub)

def doStatement (sub : Sub) : Parser Outline := do
  needWord "do"
  let body ← governed sub
  needWord "while"
  let test ← condition sub
  let _ ← eatSymbol ";"
  return body ++ test

/-- What a loop that counts does before its body; the cursor stands behind the first semicolon. -/
def countingRest (sub : Sub) : Parser Outline := do
  let test ← if ← atSymbol ";" then pure .empty else outlineOf (sub .expression)
  needSymbol ";"
  let step ← if ← atSymbol ")" then pure .empty else outlineOf (sub .expression)
  return test ++ step

/-- What a loop runs over, behind its variable, if it runs over something. A loop that awaits its
values has to run over some. -/
def traversed? (sub : Sub) (awaits : Bool) : Parser (Option Outline) := do
  if ← eatWord "of" then return some (← outlineOf (sub (.assignment true)))
  if awaits then refuse
  if ← eatWord "in" then return some (← outlineOf (sub .expression))
  return none

def withoutIn (c : Context) : Context := { c with allowIn := false }

def declaringHead (sub : Sub) (awaits : Bool) (kind : VariableKind) : Parser Outline := do
  enterVariables kind
  let (outline, missing) ← within withoutIn (declarators sub kind)
  if let some range ← traversed? sub awaits then return outline ++ range
  if missing then refuse
  needSymbol ";"
  return outline ++ (← countingRest sub)

def plainHead (sub : Sub) (awaits : Bool) : Parser Outline := do
  if !awaits && (← atSymbol ";") then
    advance
    return ← countingRest sub
  let start ← within withoutIn (sub .expression)
  if (← atWord "of") || (← atWord "in") then assignTo start.shape
  if let some range ← traversed? sub awaits then return start.outline ++ range
  needSymbol ";"
  return start.outline ++ (← countingRest sub)

def forStatement (sub : Sub) : Parser Outline := do
  needWord "for"
  let awaits ← eatWord "await"
  if awaits && !(← read).inAwait then refuse
  needSymbol "("
  let head ←
    match ← startsVariables with
    | some kind => declaringHead sub awaits kind
    | none => plainHead sub awaits
  needSymbol ")"
  return .scope .block (head ++ (← governed sub))

def switchCase (sub : Sub) : Parser Outline := do
  let label ←
    if ← eatWord "default" then pure .empty
    else
      needWord "case"
      outlineOf (sub .expression)
  needSymbol ":"
  let body ← many do
    if (← atWord "case") || (← atWord "default") || (← atSymbol "\x7d") then return none
    return some (← sub (.statement false))
  return label ++ outlines body

def switchStatement (sub : Sub) : Parser Outline := do
  needWord "switch"
  let subject ← condition sub
  needSymbol "\x7b"
  let cases ← many do
    if ← atSymbol "\x7d" then return none
    return some (← switchCase sub)
  needSymbol "\x7d"
  return subject ++ .scope .block (collect cases)

def handler (sub : Sub) : Parser Outline := do
  let caught ←
    if ← eatSymbol "(" then
      let target ← outlineOf (sub (.pattern .block))
      let annotation ← optionalAnnotation sub
      needSymbol ")"
      pure (target ++ annotation)
    else pure .empty
  return .scope .block (caught ++ (← block sub))

def tryStatement (sub : Sub) : Parser Outline := do
  needWord "try"
  let body ← block sub
  let hasHandler ← eatWord "catch"
  let handled ← if hasHandler then handler sub else pure .empty
  if ← eatWord "finally" then return body ++ handled ++ (← block sub)
  unless hasHandler do refuse
  return body ++ handled

def jumpStatement : Parser Outline := do
  advance
  if !(← afterBreak) && (← atIdentifier) then advance
  endStatement
  return .empty

def returnStatement (sub : Sub) : Parser Outline := do
  unless (← read).inReturn do refuse
  needWord "return"
  let isBare := (← afterBreak) || (← atSymbol ";") || (← atSymbol "\x7d") || (← token) == .finish
  let value ← if isBare then pure .empty else outlineOf (sub .expression)
  endStatement
  return value

def throwStatement (sub : Sub) : Parser Outline := do
  needWord "throw"
  if ← afterBreak then refuse
  let value ← outlineOf (sub .expression)
  endStatement
  return value

def wordStatement? (sub : Sub) (name : String) : Parser (Option Outline) := do
  match name with
  | "if" => return some (← ifStatement sub)
  | "while" => return some (← whileStatement sub)
  | "do" => return some (← doStatement sub)
  | "for" => return some (← forStatement sub)
  | "switch" => return some (← switchStatement sub)
  | "try" => return some (← tryStatement sub)
  | "break" => return some (← jumpStatement)
  | "continue" => return some (← jumpStatement)
  | "return" => return some (← returnStatement sub)
  | "throw" => return some (← throwStatement sub)
  | "with" =>
    advance
    let subject ← condition sub
    return some (subject ++ (← governed sub))
  | "debugger" =>
    advance
    endStatement
    return some .empty
  | _ => return none

/-- A declaration, if one starts here. Where a single statement is asked for, a declaration that
binds a name in the scope around it is refused, apart from a plain function. -/
def declarationStatement? (sub : Sub) (single : Bool) : Parser (Option Piece) := do
  if single then
    if ← atWord "function" then
      if ← ahead (do advance; atSymbol "*") then refuse
    else if (← atWord "class") || (← atWord "const") || (← startsAsyncFunction) then refuse
    else unless ← atWord "var" do
      if ← atWord "let" then
        if ← ahead (do advance; return !(← afterBreak) && (← atIdentifier)) then refuse
        return none
  declaration? sub

def startsLabel : Parser Bool := ahead do
  let _ ← identifier
  atSymbol ":"

def expressionStatement (sub : Sub) : Parser Outline := do
  let value ← outlineOf (sub .expression)
  endStatement
  return value

def decoratedStatement (sub : Sub) : Parser Exported := do
  let decoration ← classDecorators sub
  if ← atWord "export" then
    let exported ← exportStatement sub
    return { exported with piece := ⟨exported.piece.shape, decoration ++ exported.piece.outline⟩ }
  match ← declaration? sub with
  | some piece => return ⟨.other, ⟨piece.shape, decoration ++ piece.outline⟩, []⟩
  | none => refuse

def statement (sub : Sub) (single : Bool) : Parser Piece := do
  if ← eatSymbol ";" then return plain .empty
  if ← atSymbol "\x7b" then return plain (← block sub)
  if ← atSymbol "@" then return (← decoratedStatement sub).piece
  if let .word name false := ← token then
    if let some outline ← wordStatement? sub name then return plain outline
    if ← startsImport then
      let (_, outline) ← importStatement
      return ⟨.typeStatement, outline⟩
    if name == "export" then return (← exportStatement sub).piece
    if let some piece ← declarationStatement? sub single then return piece
    if ← startsLabel then
      advance
      advance
      return plain (← governed sub)
  return plain (← expressionStatement sub)

def production (sub : Sub) : Goal → Parser Piece
  | .expression => expression sub
  | .assignment arrowType => assignmentExpression sub arrowType
  | .unary => unaryExpression sub
  | .leftHandSide => leftHandSide sub
  | .type => return plain (← typeProduction sub)
  | .pattern reach => return plain (← pattern sub reach)
  | .statement single => statement sub single
  | .element nested => return plain (← element sub nested)
  | .objectLiteral => objectLiteral sub

def upTo : Nat → Sub
  | 0, _ => refuse
  | depth + 1, goal => production (upTo depth) goal

end TidyImports.Script.Grammar
