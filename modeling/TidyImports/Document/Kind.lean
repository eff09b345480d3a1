import TidyImports.Script.Grammar.Basic

/-! The kinds of documents: plain scripts in one of three dialects, and component files, whose
scripts stand in elements. The kind follows from the name of a parser, or without one from the
extension of the file. -/
namespace TidyImports.Document

inductive ScriptKind
  | ts
  | tsx
  | jsx
  deriving DecidableEq, Repr

namespace ScriptKind

def dialect : ScriptKind → Script.Dialect
  | .ts => ⟨true, false⟩
  | .tsx => ⟨true, true⟩
  | .jsx => ⟨false, true⟩

def hasElements (kind : ScriptKind) : Bool := kind.dialect.jsx

def label : ScriptKind → String
  | .ts => "TS"
  | .tsx => "TSX"
  | .jsx => "JSX"

end ScriptKind

inductive Kind
  | script (kind : ScriptKind)
  | vue
  deriving DecidableEq, Repr

def Kind.label : Kind → String
  | .script kind => kind.label
  | .vue => "Vue"

def extension (name : Text) : Text :=
  match (name.pieces '.').reverse with
  | last :: _ :: _ => last
  | _ => []

def Kind.ofFileName (name : Text) : Kind :=
  match String.ofList (extension name.asciiLower) with
  | "tsx" => .script .tsx
  | "js" | "jsx" | "mjs" | "cjs" => .script .jsx
  | "vue" => .vue
  | _ => .script .ts

def Kind.ofParser? (parser fileName : Text) : Option Kind :=
  match String.ofList parser with
  | "typescript" | "babel-ts" =>
    some (.script (if fileName.asciiLower.endsWith ".tsx".toList then .tsx else .ts))
  | "babel" | "babel-flow" | "flow" | "acorn" | "espree" | "meriyah" => some (.script .jsx)
  | "vue" => some .vue
  | _ => none

/-- The kind of a document; nothing for a parser that is not known. -/
def Kind.resolve? (parser : Option Text) (fileName : Text) : Option Kind :=
  match parser with
  | some parser => Kind.ofParser? parser fileName
  | none => some (Kind.ofFileName fileName)

end TidyImports.Document
