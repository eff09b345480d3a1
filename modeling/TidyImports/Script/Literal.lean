import TidyImports.Json.Value
import TidyImports.Text.Identifier

/-! Literals of scripts: where a literal ends, and what its escapes stand for. The body of a string
is first delimited and then decoded, so a decoded value exists exactly for bodies whose escapes are
all well formed. -/
namespace TidyImports.Script

def isLineBreak (c : Char) : Bool :=
  c == '\n' || c == '\r' || c == '\u2028' || c == '\u2029'

/-- Splits off the body of a string up to its closing quote. A backslash protects the character
or the pair of line break characters after it; an unprotected line feed or carriage return leaves the string open. -/
def stringBody? (quote : Char) : Text → Option (Text × Text)
  | [] => none
  | '\\' :: '\r' :: '\n' :: t =>
    (stringBody? quote t).map fun (body, rest) => ('\\' :: '\r' :: '\n' :: body, rest)
  | '\\' :: c :: t => (stringBody? quote t).map fun (body, rest) => ('\\' :: c :: body, rest)
  | c :: t =>
    if c = quote then some ([], t)
    else if c = '\n' ∨ c = '\r' then none
    else (stringBody? quote t).map fun (body, rest) => (c :: body, rest)

inductive EscapeState
  | plain
  | started
  | hex (left value : Nat)
  | unicode
  | braced (digits value : Nat)
  | octal (left value : Nat)
  | continued
  deriving DecidableEq, Repr

def escapeLetter (c : Char) : Nat :=
  match c with
  | 'b' => 8
  | 'f' => 12
  | 'n' => 10
  | 'r' => 13
  | 't' => 9
  | 'v' => 11
  | _ => c.toNat

def plainStep (c : Char) : EscapeState × List Nat :=
  if c = '\\' then (.started, []) else (.plain, [c.toNat])

def startStep (octalAllowed : Bool) (c : Char) : Option (EscapeState × List Nat) :=
  if c = 'x' then some (.hex 2 0, [])
  else if c = 'u' then some (.unicode, [])
  else if c = '\r' then some (.continued, [])
  else if isLineBreak c then some (.plain, [])
  else if '0' ≤ c ∧ c ≤ '7' then
    let digit := c.toNat - '0'.toNat
    if octalAllowed then some (.octal (if digit ≤ 3 then 2 else 1) digit, [])
    else if digit = 0 then some (.octal 0 0, [])
    else none
  else if c = '8' ∨ c = '9' then if octalAllowed then some (.plain, [c.toNat]) else none
  else some (.plain, [escapeLetter c])

def escapeStep (octalAllowed : Bool) : EscapeState → Char → Option (EscapeState × List Nat)
  | .plain, c => some (plainStep c)
  | .started, c => startStep octalAllowed c
  | .continued, c => if c = '\n' then some (.plain, []) else some (plainStep c)
  | .hex left value, c =>
    match Json.hexDigit? c with
    | none => none
    | some digit =>
      if left ≤ 1 then some (.plain, [value * 16 + digit])
      else some (.hex (left - 1) (value * 16 + digit), [])
  | .unicode, c =>
    if c = '\x7b' then some (.braced 0 0, [])
    else (Json.hexDigit? c).map fun digit => (.hex 3 digit, [])
  | .braced digits value, c =>
    if c = '\x7d' then if digits = 0 then none else some (.plain, [value])
    else
      match Json.hexDigit? c with
      | none => none
      | some digit =>
        if value * 16 + digit ≤ 0x10FFFF then some (.braced (digits + 1) (value * 16 + digit), [])
        else none
  | .octal left value, c =>
    if 0 < left ∧ '0' ≤ c ∧ c ≤ '7' then
      let value := value * 8 + (c.toNat - '0'.toNat)
      if left = 1 then some (.plain, [value]) else some (.octal (left - 1) value, [])
    else if left = 0 ∧ !octalAllowed ∧ c.isDigit then none
    else
      let (state, units) := plainStep c
      some (state, value :: units)

def decodeFrom (octalAllowed : Bool) : EscapeState → Text → Option (List Nat)
  | .plain, [] => some []
  | .continued, [] => some []
  | .octal _ value, [] => some [value]
  | _, [] => none
  | state, c :: t =>
    match escapeStep octalAllowed state c with
    | none => none
    | some (next, units) => (decodeFrom octalAllowed next t).map (units ++ ·)

def loneText (unit : Nat) : Text := '\uFFFD' :: Nat.toDigits 16 unit

def looseText : List Nat → Text
  | [] => []
  | [unit] =>
    if Json.isHighSurrogate unit || Json.isLowSurrogate unit || unit = 0xFFFD then loneText unit
    else [Char.ofNat unit]
  | unit :: next :: units =>
    if Json.isHighSurrogate unit && Json.isLowSurrogate next then
      Json.pairChar unit next :: looseText units
    else
      (if Json.isHighSurrogate unit || Json.isLowSurrogate unit || unit = 0xFFFD then loneText unit
      else [Char.ofNat unit]) ++ looseText (next :: units)

/-- The value that a string body stands for, if its escapes are well formed. -/
def stringValue? (body : Text) : Option Text :=
  (decodeFrom true .plain body).map fun units => (Json.textOfUnits units).getD (looseText units)

def escapesValid (body : Text) : Bool := (decodeFrom false .plain body).isSome

def templatePiece? : Text → Option (Text × Bool × Text)
  | [] => none
  | '\\' :: c :: t =>
    (templatePiece? t).map fun (body, closed, rest) => ('\\' :: c :: body, closed, rest)
  | '$' :: '\x7b' :: t => some ([], false, t)
  | c :: t =>
    if c.toNat = 0x60 then some ([], true, t)
    else (templatePiece? t).map fun (body, closed, rest) => (c :: body, closed, rest)

def regexBody? : Bool → Text → Option (Text × Text)
  | _, [] => none
  | inClass, '\\' :: c :: t =>
    if isLineBreak c then none
    else (regexBody? inClass t).map fun (body, rest) => ('\\' :: c :: body, rest)
  | inClass, c :: t =>
    if isLineBreak c then none
    else if c = '/' ∧ !inClass then some ([], t)
    else
      let inside := if c = '[' then true else if c = ']' then false else inClass
      (regexBody? inside t).map fun (body, rest) => (c :: body, rest)

def flagsValid : Text → Bool
  | [] => true
  | c :: t => "dgimsuvy".toList.contains c && !t.contains c && flagsValid t

def separatedValid (run : Text) : Bool :=
  match run with
  | [] => false
  | c :: _ =>
    c != '_' && run.getLast? != some '_' && !Text.contains run ['_', '_']

def separatedDigits? (isDigit : Char → Bool) (t : Text) : Option Text :=
  let member := fun c => isDigit c || c == '_'
  if separatedValid (t.takeWhile member) then some (t.dropWhile member) else none

def afterExponent? : Text → Option Text
  | [] => some []
  | c :: t =>
    if c = 'e' ∨ c = 'E' then
      match t with
      | [] => none
      | s :: u =>
        if s = '+' ∨ s = '-' then separatedDigits? Char.isDigit u
        else separatedDigits? Char.isDigit t
    else some (c :: t)

def afterFraction? : Text → Option Text
  | '.' :: c :: t => if c.isDigit then (separatedDigits? Char.isDigit (c :: t)).bind afterExponent?
    else if c = '_' then none
    else afterExponent? (c :: t)
  | ['.'] => some []
  | t => afterExponent? t

def afterBased? (isDigit : Char → Bool) (t : Text) : Option Text :=
  (separatedDigits? isDigit t).map fun
    | 'n' :: rest => rest
    | rest => rest

def numberRest? : Text → Option Text
  | '0' :: c :: t =>
    if c = 'x' ∨ c = 'X' then afterBased? (fun d => (Json.hexDigit? d).isSome) t
    else if c = 'o' ∨ c = 'O' then afterBased? (fun d => '0' ≤ d && d ≤ '7') t
    else if c = 'b' ∨ c = 'B' then afterBased? (fun d => d == '0' || d == '1') t
    else if c.isDigit then
      let digits := (c :: t).takeWhile Char.isDigit
      let rest := (c :: t).dropWhile Char.isDigit
      if digits.any fun d => d == '8' || d == '9' then afterFraction? rest else some rest
    else if c = '_' then none
    else if c = 'n' then some t
    else afterFraction? (c :: t)
  | '.' :: t => afterFraction? ('.' :: t)
  | t =>
    match separatedDigits? Char.isDigit t with
    | some ('n' :: rest) => some rest
    | some rest => afterFraction? rest
    | none => none

def numberEnd? (t : Text) : Option Text :=
  match numberRest? t with
  | none => none
  | some [] => some []
  | some (c :: rest) =>
    if c.isDigit || Text.isIdentifierStart c || c = '\\' then none else some (c :: rest)

end TidyImports.Script
