import TidyImports.Document.Kind
import TidyImports.Text.Characters
import TidyImports.Text.Identifier

/-! The script blocks of a document. A plain script is one block. A component file has one block
per script element, from the end of its opening tag to the nearest closing tag; names of tags are
compared up to case folding, and a closing tag may hold blanks behind its name. -/
namespace TidyImports.Document

/-- A run of script text: its offset in the document, its dialect, and whether it is a part of a
document in another language, in which names may be used outside the script. -/
structure ScriptBlock where
  offset : Nat
  text : Text
  kind : ScriptKind
  embedded : Bool
  deriving DecidableEq, Repr

def wordEnds : Text → Bool
  | [] => true
  | c :: _ => !Text.isWordChar c

/-- The attributes of an opening script tag at the start of a text, and what follows the tag. -/
def openingTag? (t : Text) : Option (Text × Text) :=
  match Text.stripFolded? "<script".toList t with
  | none => none
  | some rest =>
    if wordEnds rest then
      match rest.dropWhile (· != '>') with
      | [] => none
      | _ :: body => some (rest.takeWhile (· != '>'), body)
    else none

def closingTag? (t : Text) : Option Text :=
  match Text.stripFolded? "</script".toList t with
  | none => none
  | some rest => Text.stripHead? ['>'] (rest.dropWhile Text.isBlank)

def elementBody? : Text → Option (Text × Text)
  | [] => none
  | c :: t =>
    match closingTag? (c :: t) with
    | some rest => some ([], rest)
    | none => (elementBody? t).map fun (body, rest) => (c :: body, rest)

/-- A script element: its attributes, what precedes its body, its body and what follows it. -/
structure ScriptElement where
  attributes : Text
  bodyAndRest : Text
  body : Text
  rest : Text

def elementHere? (t : Text) : Option ScriptElement :=
  match openingTag? t with
  | none => none
  | some (attributes, inside) =>
    (elementBody? inside).map fun (body, rest) => ⟨attributes, inside, body, rest⟩

def nextElement? : Text → Option ScriptElement
  | [] => none
  | c :: t =>
    match elementHere? (c :: t) with
    | some element => some element
    | none => nextElement? t

def languageHere? (t : Text) : Option Text :=
  match Text.stripFolded? "lang".toList t with
  | none => none
  | some rest =>
    match rest.dropWhile Text.isBlank with
    | '=' :: rest =>
      let value := match rest.dropWhile Text.isBlank with
        | c :: quoted => if c = '"' ∨ c = '\'' then quoted else c :: quoted
        | [] => []
      match value.takeWhile Text.foldsToLetter with
      | [] => none
      | letters => some (Text.asciiLower letters)
    | _ => none

def language? (inWord : Bool) : Text → Option Text
  | [] => none
  | c :: t =>
    match if inWord then none else languageHere? (c :: t) with
    | some language => some language
    | none => language? (Text.isWordChar c) t

def elementKind (attributes : Text) : ScriptKind :=
  match (language? false attributes).map String.ofList with
  | some "ts" => .ts
  | some "tsx" => .tsx
  | _ => .jsx

def elementBlocks (document : Text) : Nat → Text → List ScriptBlock
  | 0, _ => []
  | bound + 1, t =>
    match nextElement? t with
    | none => []
    | some element =>
      ⟨document.width - element.bodyAndRest.width, element.body, elementKind element.attributes,
        true⟩ :: elementBlocks document bound element.rest

/-- The script blocks of a document, in order. -/
def scriptBlocks (kind : Kind) (text : Text) : List ScriptBlock :=
  match kind with
  | .script kind => [⟨0, text, kind, false⟩]
  | .vue => elementBlocks text text.length text

end TidyImports.Document
