import TidyImports.Text.Basic

/-! JSON values and their reader. Object fields keep their order and repetitions, numbers keep
their spelling, and a string literal that spells a lone surrogate is no text, which `none` records:
some consumers skip such a literal, others refuse it. -/
namespace TidyImports

inductive Json
  | null
  | bool (value : Bool)
  | number (spelling : Text)
  | string (value : Option Text)
  | array (items : List Json)
  | object (fields : List (Option Text × Json))
  deriving Repr

namespace Json

def isSpace (c : Char) : Bool := c == ' ' || c == '\t' || c == '\n' || c == '\r'

def skipSpace (t : Text) : Text := t.dropWhile isSpace

def hexDigit? (c : Char) : Option Nat :=
  if '0' ≤ c ∧ c ≤ '9' then some (c.toNat - '0'.toNat)
  else if 'a' ≤ c ∧ c ≤ 'f' then some (c.toNat - 'a'.toNat + 10)
  else if 'A' ≤ c ∧ c ≤ 'F' then some (c.toNat - 'A'.toNat + 10)
  else none

def codeUnit? : Text → Option (Nat × Text)
  | a :: b :: c :: d :: t => do
    let a ← hexDigit? a
    let b ← hexDigit? b
    let c ← hexDigit? c
    let d ← hexDigit? d
    some (((a * 16 + b) * 16 + c) * 16 + d, t)
  | _ => none

def shortEscape? (c : Char) : Option Char :=
  match c with
  | '"' => some '"'
  | '\\' => some '\\'
  | '/' => some '/'
  | 'b' => some '\x08'
  | 'f' => some '\x0c'
  | 'n' => some '\n'
  | 'r' => some '\r'
  | 't' => some '\t'
  | _ => none

/-- The code units of a string literal after its opening quote, and the text after its closing one.
A character outside the surrogates counts as one unit here; `fuel` bounds the length. -/
def readUnits : Nat → Text → Option (List Nat × Text)
  | 0, _ => none
  | _ + 1, [] => none
  | fuel + 1, c :: t =>
    if c = '"' then some ([], t)
    else if c = '\\' then
      match t with
      | 'u' :: t => do
        let (unit, t) ← codeUnit? t
        let (units, t) ← readUnits fuel t
        some (unit :: units, t)
      | e :: t => do
        let d ← shortEscape? e
        let (units, t) ← readUnits fuel t
        some (d.toNat :: units, t)
      | [] => none
    else if c.toNat < 0x20 then none
    else do
      let (units, t) ← readUnits fuel t
      some (c.toNat :: units, t)

def isHighSurrogate (unit : Nat) : Bool := 0xD800 ≤ unit && unit < 0xDC00

def isLowSurrogate (unit : Nat) : Bool := 0xDC00 ≤ unit && unit < 0xE000

def pairChar (high low : Nat) : Char :=
  Char.ofNat (0x10000 + (high - 0xD800) * 0x400 + (low - 0xDC00))

def textOfUnits : List Nat → Option Text
  | [] => some []
  | [unit] =>
    if isHighSurrogate unit || isLowSurrogate unit then none else some [Char.ofNat unit]
  | unit :: next :: units =>
    if isHighSurrogate unit then
      if isLowSurrogate next then (textOfUnits units).map (pairChar unit next :: ·) else none
    else if isLowSurrogate unit then none
    else (textOfUnits (next :: units)).map (Char.ofNat unit :: ·)

def readString (t : Text) : Option (Option Text × Text) :=
  (readUnits (t.length + 1) t).map fun (units, rest) => (textOfUnits units, rest)

def readDigits (t : Text) : Option (Text × Text) :=
  let digits := t.takeWhile Char.isDigit
  if digits.isEmpty then none else some (digits, t.dropWhile Char.isDigit)

def readWhole (t : Text) : Option (Text × Text) := do
  let (digits, rest) ← readDigits t
  match digits with
  | '0' :: _ :: _ => none
  | _ => some (digits, rest)

def readFraction : Text → Option (Text × Text)
  | '.' :: t => (readDigits t).map fun (digits, rest) => ('.' :: digits, rest)
  | t => some ([], t)

def readExponent : Text → Option (Text × Text)
  | [] => some ([], [])
  | c :: t =>
    if c = 'e' ∨ c = 'E' then
      match t with
      | [] => none
      | s :: u =>
        if s = '+' ∨ s = '-' then
          (readDigits u).map fun (digits, rest) => (c :: s :: digits, rest)
        else (readDigits t).map fun (digits, rest) => (c :: digits, rest)
    else some ([], c :: t)

def readUnsigned (t : Text) : Option (Text × Text) := do
  let (whole, t) ← readWhole t
  let (fraction, t) ← readFraction t
  let (exponent, t) ← readExponent t
  some (whole ++ fraction ++ exponent, t)

def readNumber : Text → Option (Text × Text)
  | '-' :: t => (readUnsigned t).map fun (spelling, rest) => ('-' :: spelling, rest)
  | t => readUnsigned t

mutual

/-- A value at the start of a text, and the rest; `fuel` bounds the number of values. -/
def readValue : Nat → Text → Option (Json × Text)
  | 0, _ => none
  | fuel + 1, t =>
    match skipSpace t with
    | '"' :: t => (readString t).map fun (s, rest) => (.string s, rest)
    | '[' :: t =>
      match skipSpace t with
      | ']' :: rest => some (.array [], rest)
      | t => (readItems fuel t).map fun (items, rest) => (.array items, rest)
    | '\x7b' :: t =>
      match skipSpace t with
      | '\x7d' :: rest => some (.object [], rest)
      | t => (readFields fuel t).map fun (fields, rest) => (.object fields, rest)
    | 'n' :: 'u' :: 'l' :: 'l' :: rest => some (.null, rest)
    | 't' :: 'r' :: 'u' :: 'e' :: rest => some (.bool true, rest)
    | 'f' :: 'a' :: 'l' :: 's' :: 'e' :: rest => some (.bool false, rest)
    | t => (readNumber t).map fun (spelling, rest) => (.number spelling, rest)

def readItems : Nat → Text → Option (List Json × Text)
  | 0, _ => none
  | fuel + 1, t =>
    match readValue fuel t with
    | none => none
    | some (item, t) =>
      match skipSpace t with
      | ']' :: rest => some ([item], rest)
      | ',' :: t => (readItems fuel t).map fun (items, rest) => (item :: items, rest)
      | _ => none

def readFields : Nat → Text → Option (List (Option Text × Json) × Text)
  | 0, _ => none
  | fuel + 1, t =>
    match skipSpace t with
    | '"' :: t =>
      match readString t with
      | none => none
      | some (key, t) =>
        match skipSpace t with
        | ':' :: t =>
          match readValue fuel t with
          | none => none
          | some (value, t) =>
            match skipSpace t with
            | '\x7d' :: rest => some ([(key, value)], rest)
            | ',' :: t =>
              (readFields fuel t).map fun (fields, rest) => ((key, value) :: fields, rest)
            | _ => none
        | _ => none
    | _ => none

end

def parse? (t : Text) : Option Json :=
  match readValue (2 * t.length + 2) t with
  | some (value, rest) => if (skipSpace rest).isEmpty then some value else none
  | none => none

mutual

def depth : Json → Nat
  | .array items => depthOfItems items + 1
  | .object fields => depthOfFields fields + 1
  | _ => 0

def depthOfItems : List Json → Nat
  | [] => 0
  | item :: items => max (depth item) (depthOfItems items)

def depthOfFields : List (Option Text × Json) → Nat
  | [] => 0
  | (_, value) :: fields => max (depth value) (depthOfFields fields)

end

mutual

def everywhere (p : Json → Bool) : Json → Bool
  | .array items => p (.array items) && everywhereInItems p items
  | .object fields => p (.object fields) && everywhereInFields p fields
  | value => p value

def everywhereInItems (p : Json → Bool) : List Json → Bool
  | [] => true
  | item :: items => everywhere p item && everywhereInItems p items

def everywhereInFields (p : Json → Bool) : List (Option Text × Json) → Bool
  | [] => true
  | (key, value) :: fields =>
    p (.string key) && everywhere p value && everywhereInFields p fields

end

end Json

end TidyImports
