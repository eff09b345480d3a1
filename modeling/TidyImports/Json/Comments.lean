import TidyImports.Text.Characters

/-! Reduction of JSON with comments and trailing commas to plain JSON, in two passes that leave
string literals alone. The first drops comments and keeps the line feeds inside them, the second
drops each comma that only blanks separate from a closing bracket; it remembers where the comma stands
in what it has copied. -/
namespace TidyImports.Json

inductive Zone
  | code
  | literal
  | escape
  | slash
  | lineComment
  | blockComment (star : Bool)
  deriving DecidableEq, Repr

/-- Drops comments from a text that starts in the given zone; a slash that opens no comment is
written when the next character shows so. -/
def stripCommentsIn : Zone → Text → Text
  | .slash, [] => ['/']
  | _, [] => []
  | .code, c :: t =>
    if c = '/' then stripCommentsIn .slash t
    else if c = '"' then c :: stripCommentsIn .literal t
    else c :: stripCommentsIn .code t
  | .slash, c :: t =>
    if c = '/' then stripCommentsIn .lineComment t
    else if c = '*' then stripCommentsIn (.blockComment false) t
    else if c = '"' then '/' :: c :: stripCommentsIn .literal t
    else '/' :: c :: stripCommentsIn .code t
  | .literal, c :: t =>
    if c = '\\' then c :: stripCommentsIn .escape t
    else if c = '"' then c :: stripCommentsIn .code t
    else c :: stripCommentsIn .literal t
  | .escape, c :: t => c :: stripCommentsIn .literal t
  | .lineComment, c :: t =>
    if c = '\n' then c :: stripCommentsIn .code t else stripCommentsIn .lineComment t
  | .blockComment star, c :: t =>
    if star ∧ c = '/' then stripCommentsIn .code t
    else if c = '\n' then c :: stripCommentsIn (.blockComment false) t
    else stripCommentsIn (.blockComment (c == '*')) t

/-- The text without line and block comments; line feeds inside comments stay. -/
def stripComments (t : Text) : Text := stripCommentsIn .code t

/-- Whether a text stands outside string literals, in one, or behind the backslash of an escape. -/
inductive Place
  | code
  | literal
  | escape
  deriving DecidableEq, Repr

def Place.next : Place → Char → Place
  | .code, c => if c = '"' then .literal else .code
  | .literal, c => if c = '\\' then .escape else if c = '"' then .code else .literal
  | .escape, _ => .literal

/-- A copy of the start of a text, and the offset in it of a comma that may turn out to stand before a
closing bracket. -/
structure Copy where
  place : Place
  written : Text
  comma : Option Nat
  deriving DecidableEq, Repr

def Copy.start : Copy := ⟨.code, [], none⟩

def Copy.write (copy : Copy) (c : Char) (comma : Option Nat) : Copy :=
  ⟨copy.place.next c, copy.written ++ [c], comma⟩

/-- Copies one more character. A closing bracket takes the comma at the remembered offset back. -/
def Copy.step? (copy : Copy) (c : Char) : Option Copy :=
  if copy.place ≠ .code ∨ Text.isBlank c then some (copy.write c copy.comma)
  else if c = ',' then some (copy.write c (some copy.written.width))
  else if c = '\x7d' ∨ c = ']' then
    match copy.comma with
    | none => some (copy.write c none)
    | some offset =>
      (copy.written.removeAt? offset).map fun written => { copy with written }.write c none
  else some (copy.write c none)

def Copy.run? (copy : Copy) (t : Text) : Option Copy := t.foldlM Copy.step? copy

/-- The text without the commas that stand before a closing bracket. There is always a character to
take back, so that the copy does not fail. -/
def stripTrailingCommas (t : Text) : Text :=
  match Copy.start.run? t with
  | none => t
  | some copy => copy.written

/-- Plain JSON from JSON with comments and trailing commas. -/
def ofCommented (t : Text) : Text := stripTrailingCommas (stripComments t)

end TidyImports.Json
