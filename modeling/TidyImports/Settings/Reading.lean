import TidyImports.Json.Number
import TidyImports.Settings.Options

/-! Options from JSON. Unknown fields are passed over, but everything has to be well formed: texts
without lone surrogates, finite numbers, no deep nesting. A known field may not be repeated; the two
names of the framework option count as one field. -/
namespace TidyImports.Settings

def maxNesting : Nat := 128

def isPlain : Json → Bool
  | .string value => value.isSome
  | .number spelling => Json.isFiniteDouble spelling
  | _ => true

def isWellFormed (value : Json) : Bool :=
  value.everywhere isPlain && value.depth < maxNesting

/-- The value of a field with one of the given names: nothing if it is absent, an error if it is
repeated. -/
def uniqueField (names : List String) (fields : List (Option Text × Json)) :
    Except Unit (Option Json) :=
  match fields.filter fun field => names.any fun name => field.1 == some name.toList with
  | [] => .ok none
  | [(_, value)] => .ok (some value)
  | _ => .error ()

def readOptionalText : Json → Except Unit (Option Text)
  | .null => .ok none
  | .string (some value) => .ok (some value)
  | _ => .error ()

def readBool : Json → Except Unit Bool
  | .bool value => .ok value
  | _ => .error ()

def readOptionalDepth : Json → Except Unit (Option Nat)
  | .null => .ok none
  | .number spelling =>
    match Json.wordValue? spelling with
    | some value => .ok (some value)
    | none => .error ()
  | _ => .error ()

/-- The name of a choice: a text, or an object with the name as its only key and null as its
value. -/
def choiceName? : Json → Option Text
  | .string value => value
  | .object [(name, .null)] => name
  | _ => none

def typeOrder? (name : Text) : Option Import.TypeOrder :=
  match String.ofList name with
  | "last" => some .last
  | "first" => some .first
  | "inline" => some .inline
  | _ => none

def frameworkMode? (name : Text) : Option Specifier.FrameworkMode :=
  match String.ofList name with
  | "nextjs" => some .nextJs
  | _ => none

def readTypeOrder (value : Json) : Except Unit Import.TypeOrder :=
  match (choiceName? value).bind typeOrder? with
  | some order => .ok order
  | none => .error ()

/-- The framework option: the name of a framework, or a truth value for the one that is known. -/
def readFramework : Json → Except Unit (Option (Option Specifier.FrameworkMode))
  | .null => .ok none
  | .bool true => .ok (some (some .nextJs))
  | .bool false => .ok (some none)
  | value =>
    match (choiceName? value).bind frameworkMode? with
    | some mode => .ok (some (some mode))
    | none => .error ()

def readField {α : Type} (fields : List (Option Text × Json)) (names : List String) (fallback : α)
    (read : Json → Except Unit α) : Except Unit α := do
  match ← uniqueField names fields with
  | none => return fallback
  | some value => read value

def readOptions (fields : List (Option Text × Json)) : Except Unit Options := do
  let filepath ← readField fields ["filepath"] none readOptionalText
  let parser ← readField fields ["parser"] none readOptionalText
  let parentParser ← readField fields ["parentParser"] none readOptionalText
  let keepUnused ←
    readField fields ["organizeImportsSkipDestructiveCodeActions"] false readBool
  let typeOrder ← readField fields ["organizeImportsTypeOrder"] .last readTypeOrder
  let absolutePathPrefix ← readField fields ["absolutePathPrefix"] none readOptionalText
  let maxRelativePathDepth ← readField fields ["maxRelativePathDepth"] none readOptionalDepth
  let tsconfigPath ← readField fields ["tsconfigPath"] none readOptionalText
  let frameworkMode ←
    readField fields ["frameworkResolutionMode", "nextjsMode"] none readFramework
  let projectRoot ← readField fields ["projectRoot"] none readOptionalText
  return ⟨filepath, parser, parentParser, keepUnused, typeOrder,
    ⟨absolutePathPrefix, maxRelativePathDepth, tsconfigPath, frameworkMode, projectRoot⟩⟩

/-- Options from a JSON value; only objects are options. -/
def Options.ofJson? (value : Json) : Option Options :=
  match value with
  | .object fields => if isWellFormed value then (readOptions fields).toOption else none
  | _ => none

def Options.parse? (text : Text) : Option Options := (Json.parse? text).bind Options.ofJson?

end TidyImports.Settings
