import TidyImports.Import.Basic

/-! Printing imports. An import that was not modified is printed as it was written. Named bindings go
on one line, unless a line comment belongs to one of them: then each gets lines of its own. -/
namespace TidyImports.Import

def isLineComment (comment : Text) : Bool := comment.startsWith ['/', '/']

namespace NamedBinding

def hasLineComment (b : NamedBinding) : Bool := (b.leading ++ b.trailing).any isLineComment

def inline (b : NamedBinding) : Text := Text.glue [' '] (b.leading ++ b.text :: b.trailing)

def lines (newline : Text) (b : NamedBinding) : Text :=
  (b.leading.map fun comment => [' ', ' '] ++ comment ++ newline).flatten ++
    [' ', ' '] ++ b.text ++ [','] ++
    (b.trailing.map fun comment => ' ' :: comment).flatten ++ newline

end NamedBinding

def renderNamed (newline : Text) (named : List NamedBinding) : Text :=
  if named.any NamedBinding.hasLineComment then
    ['\x7b'] ++ newline ++ (named.map (NamedBinding.lines newline)).flatten ++ ['\x7d']
  else
    ['\x7b', ' '] ++ Text.glue [',', ' '] (named.map NamedBinding.inline) ++ [' ', '\x7d']

def Item.clause (newline : Text) (i : Item) : Text :=
  Text.glue [',', ' '] (i.defaultName.toList ++ i.namespaceName.toList ++
    (if i.named.isEmpty then [] else [renderNamed newline i.named]))

def Item.render (newline : Text) (i : Item) : Text :=
  if i.modified then
    "import ".toList ++ (if i.isType then "type ".toList else []) ++ i.clause newline ++
      " from ".toList ++ i.source ++
      (match i.attributes with
        | some attributes => ' ' :: attributes
        | none => []) ++
      (if i.semicolon then [';'] else [])
  else i.written

end TidyImports.Import
