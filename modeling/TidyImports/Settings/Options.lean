import TidyImports.Import.Order
import TidyImports.Specifier.Basic

/-! The options of a run. Specifiers are only replaced if one of the options for that is given. -/
namespace TidyImports.Settings

/-- Options for the replacement of specifiers. The framework option may be given without naming a
framework. -/
structure SpecifierOptions where
  absolutePathPrefix : Option Text
  maxRelativePathDepth : Option Nat
  tsconfigPath : Option Text
  frameworkMode : Option (Option Specifier.FrameworkMode)
  projectRoot : Option Text
  deriving DecidableEq, Repr

namespace SpecifierOptions

def none : SpecifierOptions := ⟨.none, .none, .none, .none, .none⟩

def isEnabled (r : SpecifierOptions) : Bool :=
  r.absolutePathPrefix.isSome || r.maxRelativePathDepth.isSome || r.tsconfigPath.isSome ||
  r.frameworkMode.isSome

def framework? (r : SpecifierOptions) : Option Specifier.FrameworkMode := r.frameworkMode.join

end SpecifierOptions

structure Options where
  filepath : Option Text
  parser : Option Text
  parentParser : Option Text
  keepUnused : Bool
  typeOrder : Import.TypeOrder
  specifiers : SpecifierOptions
  deriving DecidableEq, Repr

namespace Options

def default : Options := ⟨none, none, none, false, .last, .none⟩

/-- The path of the file; without one, a name of a script with types. -/
def effectivePath (o : Options) : Text := o.filepath.getD "file.ts".toList

/-- Whether the text is a block of a component file that is organized as a whole. -/
def isEmbedded (o : Options) : Bool := o.parentParser == some "vue".toList

end Options

end TidyImports.Settings
