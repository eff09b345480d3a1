import TidyImports.Path
import TidyImports.Path.Extension

/-! Module specifiers: relative to the importing file, rooted, or left to the aliases and packages.
Frameworks have their own spelling of modules. The one that is known resolves a directory through its index
file and needs no script extensions, so both are left out. -/
namespace TidyImports.Specifier

inductive Kind
  | relative
  | absolute
  | aliased
  deriving DecidableEq, Repr

def Kind.label : Kind → String
  | .relative => "Relative"
  | .absolute => "Absolute"
  | .aliased => "Aliased"

def isRelative (specifier : Text) : Bool :=
  specifier == ['.'] || specifier == ['.', '.'] || specifier.startsWith ['.', '/'] ||
  specifier.startsWith ['.', '.', '/']

def depth (specifier : Text) : Nat := (specifier.pieces '/').count ['.', '.']

def classify (specifier : Text) : Kind :=
  if isRelative specifier then .relative
  else if Path.isRooted specifier then .absolute
  else .aliased

inductive FrameworkMode
  | nextJs
  deriving DecidableEq, Repr

def FrameworkMode.label : FrameworkMode → String
  | .nextJs => "nextjs"

def stripIndexSegment (specifier : Text) : Text :=
  match Text.stripTail? "/index".toList specifier with
  | some [] => ['/']
  | some directory => directory
  | none => specifier

def FrameworkMode.normalize (mode : FrameworkMode) (specifier : Text) : Text :=
  match mode with
  | .nextJs => stripIndexSegment (Path.stripModuleExtension specifier)

end TidyImports.Specifier
