import TidyImports.Document.Blocks
import TidyImports.Import.Organize
import TidyImports.Script.Program

/-! Services that organize the imports of one document. A service is made for a document and then
answers requests with changes; the built-in one organizes every script block for itself and moves
the changes to the offsets of the document. -/
namespace TidyImports.Organizer

inductive ServiceError
  | parse (fileName : Text)
  | unsupportedParser (name : Text)
  | unknownFile (fileName : Text)
  deriving DecidableEq, Repr

def ServiceError.message : ServiceError → String
  | .parse fileName => "failed to parse " ++ String.ofList fileName
  | .unsupportedParser name => "unsupported parser: " ++ String.ofList name
  | .unknownFile fileName => "no source file named " ++ String.ofList fileName

structure ServiceRequest where
  fileName : Text
  keepUnused : Bool
  order : Import.TypeOrder
  deriving DecidableEq, Repr

structure FileChanges where
  fileName : Text
  changes : List Edit.Change
  isNewFile : Bool
  deriving DecidableEq, Repr

abbrev Service := ServiceRequest → Except ServiceError (List FileChanges)

/-- Makes the service for a document from the name of a parser, the name of the file and the
text. -/
abbrev ServiceFactory := Option Text → Text → Text → Except ServiceError Service

def organizeBlock (block : Document.ScriptBlock) (keepUnused : Bool) (order : Import.TypeOrder) :
    Except Script.SyntaxError (List Edit.Change) :=
  (Script.parse block.kind.dialect block.text).map fun program =>
    (Import.organizeProgram block.text program (keepUnused || block.embedded)
      block.kind.hasElements order).map (Edit.Change.shift block.offset)

def organizeBlocks (keepUnused : Bool) (order : Import.TypeOrder) :
    List Document.ScriptBlock → Except Script.SyntaxError (List Edit.Change)
  | [] => .ok []
  | block :: rest =>
    match organizeBlock block keepUnused order with
    | .error e => .error e
    | .ok changes => (organizeBlocks keepUnused order rest).map (changes ++ ·)

def organizeDocument (kind : Document.Kind) (text : Text) (keepUnused : Bool)
    (order : Import.TypeOrder) : Except Script.SyntaxError (List Edit.Change) :=
  organizeBlocks keepUnused order (Document.scriptBlocks kind text)

def answer (kind : Document.Kind) (fileName text : Text) : Service := fun request =>
  if request.fileName ≠ fileName then .error (.unknownFile request.fileName)
  else
    match organizeDocument kind text request.keepUnused request.order with
    | .error _ => .error (.parse fileName)
    | .ok [] => .ok []
    | .ok changes => .ok [⟨fileName, changes, false⟩]

def builtIn : ServiceFactory := fun parser fileName text =>
  match Document.Kind.resolve? parser fileName with
  | some kind => .ok (answer kind fileName text)
  | none => .error (.unsupportedParser (parser.getD []))

end TidyImports.Organizer
