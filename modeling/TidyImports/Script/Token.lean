import TidyImports.Edit.Span
import TidyImports.Script.Literal

/-! Tokens of scripts and the scanner that finds the next one. The scanner skips blanks and
comments first, and remembers the comments and whether a line break was among them. What a slash,
a closing brace or a greater-than sign begins depends on the grammar, so the scanner takes the
short reading and the parser scans again where it needs the long one. -/
namespace TidyImports.Script

inductive Token
  | word (name : String) (escaped : Bool)
  | privateName (name : String)
  | symbol (spelling : String)
  | number
  | string (value : Text)
  | template (body : Text) (closed : Bool)
  | regex
  | jsxText
  | finish
  deriving DecidableEq, Repr

def isGap (c : Char) : Bool :=
  let n := c.toNat
  c == ' ' || c == '\t' || n == 0x0B || n == 0x0C || n == 0xA0 || n == 0x85 || n == 0xFEFF ||
  n == 0x1680 || n == 0x180E || (0x2000 ≤ n && n ≤ 0x200B) || n == 0x202F || n == 0x205F ||
  n == 0x3000

/-- Where the scanner stands between tokens: outside comments, or inside one that began at an
offset. -/
inductive GapState
  | blank
  | lineComment (start : Nat)
  | blockComment (start : Nat) (star : Bool)

structure Gap where
  rest : Text
  offset : Nat
  lineBreak : Bool
  comments : List Edit.Span

/-- Skips blanks and comments; an open block comment is an error. Comments are listed last one
first. -/
def skipGap : GapState → Nat → Bool → List Edit.Span → Text → Option Gap
  | .blank, offset, lineBreak, comments, [] => some ⟨[], offset, lineBreak, comments⟩
  | .lineComment start, offset, lineBreak, comments, [] =>
    some ⟨[], offset, lineBreak, Edit.Span.ofBounds start offset :: comments⟩
  | .blockComment _ _, _, _, _, [] => none
  | .blank, offset, lineBreak, comments, '/' :: '/' :: t =>
    skipGap (.lineComment offset) (offset + 2) lineBreak comments t
  | .blank, offset, lineBreak, comments, '/' :: '*' :: t =>
    skipGap (.blockComment offset false) (offset + 2) lineBreak comments t
  | .blank, offset, lineBreak, comments, c :: t =>
    if isLineBreak c then skipGap .blank (offset + c.utf8Size) true comments t
    else if isGap c then skipGap .blank (offset + c.utf8Size) lineBreak comments t
    else some ⟨c :: t, offset, lineBreak, comments⟩
  | .lineComment start, offset, lineBreak, comments, c :: t =>
    if isLineBreak c then
      skipGap .blank (offset + c.utf8Size) true (Edit.Span.ofBounds start offset :: comments) t
    else skipGap (.lineComment start) (offset + c.utf8Size) lineBreak comments t
  | .blockComment start star, offset, lineBreak, comments, c :: t =>
    if star && c == '/' then
      skipGap .blank (offset + 1) lineBreak (Edit.Span.ofBounds start (offset + 1) :: comments) t
    else
      skipGap (.blockComment start (c == '*')) (offset + c.utf8Size) (lineBreak || isLineBreak c)
        comments t

/-- The punctuators, longer ones before their beginnings. A greater-than sign always stands alone. -/
def symbols : List String :=
  ["...", "===", "!==", "**=", "<<=", "&&=", "||=", "??=",
   "=>", "==", "!=", "<=", "&&", "||", "??", "?.", "++", "--", "+=", "-=", "*=", "/=", "%=",
   "&=", "|=", "^=", "<<", "**",
   "\x7b", "\x7d", "(", ")", "[", "]", ";", ",", "<", ">", "+", "-", "*", "/", "%", "&", "|", "^",
   "!", "~", "?", ":", "=", ".", "@"]

def firstSymbol? (t : Text) : List String → Option (String × Text)
  | [] => none
  | s :: rest =>
    match Text.stripHead? s.toList t with
    | some after => some (s, after)
    | none => firstSymbol? t rest

def scanSymbol? (t : Text) : Option (Token × Text) :=
  match t with
  | '?' :: '.' :: c :: rest =>
    if c.isDigit then some (.symbol "?", '.' :: c :: rest) else some (.symbol "?.", c :: rest)
  | _ => (firstSymbol? t symbols).map fun (s, rest) => (.symbol s, rest)

def identifierEscape? : Text → Option (Char × Text)
  | 'u' :: '\x7b' :: t => do
    let digits := t.takeWhile fun c => (Json.hexDigit? c).isSome
    let value := digits.foldl (fun n c => n * 16 + (Json.hexDigit? c).getD 0) 0
    match t.dropWhile fun c => (Json.hexDigit? c).isSome with
    | '\x7d' :: rest =>
      if digits.isEmpty || value > 0x10FFFF then none else some (Char.ofNat value, rest)
    | _ => none
  | 'u' :: t => (Json.codeUnit? t).map fun (unit, rest) => (Char.ofNat unit, rest)
  | _ => none

/-- The rest of an identifier: its characters, whether an escape is among them, and what follows;
`fuel` bounds the length. -/
def identifierRest : Nat → Text → Option (Text × Bool × Text)
  | 0, _ => none
  | _ + 1, [] => some ([], false, [])
  | fuel + 1, c :: t =>
    if c = '\\' then
      match identifierEscape? t with
      | some (d, t) =>
        if Text.isIdentifierPart d then
          (identifierRest fuel t).map fun (name, _, rest) => (d :: name, true, rest)
        else none
      | none => none
    else if Text.isIdentifierPart c then
      (identifierRest fuel t).map fun (name, escaped, rest) => (c :: name, escaped, rest)
    else some ([], false, c :: t)

def scanIdentifier? (t : Text) : Option (Text × Bool × Text) :=
  match t with
  | [] => none
  | c :: r =>
    if Text.isIdentifierStart c then identifierRest (t.length + 1) t
    else if c = '\\' then
      match identifierEscape? r with
      | some (d, _) =>
        if Text.isIdentifierStart d then identifierRest (t.length + 1) t else none
      | none => none
    else none

/-- The token at the start of a text without a gap before it, and the rest. -/
def scanToken? (t : Text) : Option (Token × Text) :=
  match t with
  | [] => some (.finish, [])
  | c :: r =>
    if Text.isIdentifierStart c || c == '\\' then
      (scanIdentifier? t).map fun (name, escaped, rest) =>
        (.word (String.ofList name) escaped, rest)
    else if c = '"' ∨ c = '\'' then
      match stringBody? c r with
      | some (body, rest) => (stringValue? body).map fun value => (.string value, rest)
      | none => none
    else if c.isDigit then (numberEnd? t).map fun rest => (.number, rest)
    else if c.toNat = 0x60 then
      (templatePiece? r).map fun (body, closed, rest) => (.template body closed, rest)
    else if c = '#' then
      (scanIdentifier? r).map fun (name, _, rest) => (.privateName (String.ofList name), rest)
    else
      match c, r with
      | '.', d :: _ =>
        if d.isDigit then (numberEnd? t).map fun rest => (.number, rest) else scanSymbol? t
      | _, _ => scanSymbol? t

def greaterSymbols : List String := [">>>=", ">>>", ">>=", ">>", ">=", ">"]

def scanGreater? (t : Text) : Option (Token × Text) :=
  (firstSymbol? t greaterSymbols).map fun (s, rest) => (.symbol s, rest)

def scanLess? : Text → Option (Token × Text)
  | '<' :: rest => some (.symbol "<", rest)
  | _ => none

def scanRegex? : Text → Option (Token × Text)
  | '/' :: t =>
    match regexBody? false t with
    | some (_, rest) =>
      if flagsValid (rest.takeWhile Text.isIdentifierPart) then
        some (.regex, rest.dropWhile Text.isIdentifierPart)
      else none
    | none => none
  | _ => none

def scanTemplateTail? : Text → Option (Token × Text)
  | '\x7d' :: t => (templatePiece? t).map fun (body, closed, rest) => (.template body closed, rest)
  | _ => none

/-- Whether a word ends before a text: neither a part of an identifier nor an escape follows. -/
def endsWord : Text → Bool
  | [] => true
  | c :: _ => !Text.isIdentifierPart c && c != '\\'

def scanJsxName? (t : Text) : Option (Token × Text) :=
  match t with
  | [] => none
  | c :: _ =>
    let member := fun d => Text.isIdentifierPart d || d == '-'
    let rest := t.dropWhile member
    if Text.isIdentifierStart c && endsWord rest then
      some (.word (String.ofList (t.takeWhile member)) false, rest)
    else none

/-- What stands between the tags of an element: text, an opening brace or a less-than sign. Text
holds neither a closing brace nor a greater-than sign. -/
def scanJsxChild? (t : Text) : Option (Token × Text) :=
  match t with
  | [] => some (.finish, [])
  | '\x7b' :: r => some (.symbol "\x7b", r)
  | '<' :: r => some (.symbol "<", r)
  | _ =>
    let isText := fun c => c != '\x7b' && c != '\x7d' && c != '<' && c != '>'
    match t.dropWhile isText with
    | [] => some (.jsxText, [])
    | c :: r => if c = '\x7b' ∨ c = '<' then some (.jsxText, c :: r) else none

def scanJsxString? : Text → Option (Token × Text)
  | [] => none
  | quote :: t =>
    if quote = '"' ∨ quote = '\'' then
      match t.dropWhile (· != quote) with
      | [] => none
      | _ :: rest => some (.string (t.takeWhile (· != quote)), rest)
    else none

def scanAttributeValue? (t : Text) : Option (Token × Text) :=
  match scanJsxString? t with
  | some found => some found
  | none => scanToken? t

end TidyImports.Script
