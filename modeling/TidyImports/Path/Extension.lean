import TidyImports.Text.Characters

/-! Script extensions at the end of a path or module name. Both rules compare letters up to case
folding and read the name from its end: the file rule takes `.ts`, `.tsx`, `.mjs` and the like with
a declaration mark `.d` before it, the framework rule takes an `x` only without a `c` or `m`. -/
namespace TidyImports.Path

def takeFolded (letters : List Char) : Text → Option Text
  | [] => none
  | c :: t => if Text.foldsInto letters c then some t else none

def takeFoldedOptional (letters : List Char) (t : Text) : Text := (takeFolded letters t).getD t

def takeDot : Text → Option Text
  | '.' :: t => some t
  | _ => none

def dropScriptReversed (t : Text) : Option Text := do
  let t ← takeFolded ['s'] (takeFoldedOptional ['x'] t)
  let t ← takeFolded ['j', 't'] t
  let t ← takeDot (takeFoldedOptional ['c', 'm'] t)
  match (takeFolded ['d'] t).bind takeDot with
  | some shorter => some shorter
  | none => some t

/-- The name without its script extension, a declaration mark included. -/
def stripExtension (name : Text) : Text :=
  ((dropScriptReversed name.reverse).map List.reverse).getD name

def dropModuleReversed (t : Text) : Option Text :=
  match (takeFolded ['s'] t).bind (takeFolded ['j', 't']) with
  | some t => takeDot (takeFoldedOptional ['c', 'm'] t)
  | none => (((takeFolded ['x'] t).bind (takeFolded ['s'])).bind (takeFolded ['j', 't'])).bind takeDot

/-- The name without the extension that module names leave out. -/
def stripModuleExtension (name : Text) : Text :=
  ((dropModuleReversed name.reverse).map List.reverse).getD name

def stripIndex (path : Text) : Text := (Text.stripTail? "/index".toList path).getD path

end TidyImports.Path
