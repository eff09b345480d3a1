import TidyImports.Document.Blocks
import TidyImports.Script.Program
import TidyImports.Specifier.Basic

/-! The module specifiers of a script: those of its import and export declarations at the outermost
level, in order. The span of a specifier is the inside of its literal, in offsets of the document. -/
namespace TidyImports.Specifier

/-- A module specifier: its literal with quotes, its kind, the file that holds it, the module that it
names, and the inside of its literal. -/
structure ModuleSpecifier where
  rawText : Text
  kind : Kind
  sourcePath : Text
  targetModule : Text
  span : Edit.Span
  deriving DecidableEq, Repr

def ofLiteral (fileName : Text) (block : Document.ScriptBlock) (literal : Script.SourceLiteral) :
    ModuleSpecifier :=
  { rawText := block.text.slice literal.span.start literal.span.stop
    kind := classify literal.value
    sourcePath := fileName
    targetModule := literal.value
    span :=
      Edit.Span.ofBounds (block.offset + literal.span.start + 1)
        (block.offset + literal.span.stop - 1) }

def ofProgram (fileName : Text) (block : Document.ScriptBlock) (program : Script.Program) :
    List ModuleSpecifier :=
  program.statements.filterMap fun statement =>
    statement.kind.source?.map (ofLiteral fileName block)

def collect (fileName : Text) (block : Document.ScriptBlock) :
    Except Script.SyntaxError (List ModuleSpecifier) :=
  (Script.parse block.kind.dialect block.text).map (ofProgram fileName block)

end TidyImports.Specifier
