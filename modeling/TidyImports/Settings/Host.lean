import TidyImports.Settings.Reading
import TidyImports.Text.Quoted

/-! Options as a host hands them over, field by field and already typed. Only the two choices are
still texts; the type order is looked at first. A named framework wins over the older switch. -/
namespace TidyImports.Settings

structure HostOptions where
  filepath : Option Text
  parser : Option Text
  parentParser : Option Text
  keepUnused : Option Bool
  typeOrder : Option Text
  absolutePathPrefix : Option Text
  maxRelativePathDepth : Option Nat
  tsconfigPath : Option Text
  frameworkMode : Option Text
  nextJsMode : Option Bool
  projectRoot : Option Text
  deriving DecidableEq, Repr

structure InvalidChoice where
  option : String
  value : Text
  deriving DecidableEq, Repr

def InvalidChoice.message (e : InvalidChoice) : String :=
  "Invalid value for " ++ e.option ++ ": " ++ String.ofList (Text.quoted e.value)

def choose {α : Type} (option : String) (find : Text → Option α) (value : Text) :
    Except InvalidChoice α :=
  match find value with
  | some choice => .ok choice
  | none => .error ⟨option, value⟩

def HostOptions.chosenOrder (h : HostOptions) : Except InvalidChoice Import.TypeOrder :=
  match h.typeOrder with
  | some value => choose "organizeImportsTypeOrder" typeOrder? value
  | none => .ok .last

def HostOptions.chosenFramework (h : HostOptions) :
    Except InvalidChoice (Option (Option Specifier.FrameworkMode)) :=
  match h.frameworkMode, h.nextJsMode with
  | some value, _ =>
    (choose "frameworkResolutionMode" frameworkMode? value).map fun mode => some (some mode)
  | none, some true => .ok (some (some .nextJs))
  | none, some false => .ok (some none)
  | none, none => .ok none

def HostOptions.toOptions (h : HostOptions) : Except InvalidChoice Options := do
  let typeOrder ← h.chosenOrder
  let frameworkMode ← h.chosenFramework
  return ⟨h.filepath, h.parser, h.parentParser, h.keepUnused.getD false, typeOrder,
    ⟨h.absolutePathPrefix, h.maxRelativePathDepth, h.tsconfigPath, frameworkMode, h.projectRoot⟩⟩

def hostOptions (h : Option HostOptions) : Except InvalidChoice Options :=
  match h with
  | some h => h.toOptions
  | none => .ok .default

end TidyImports.Settings
