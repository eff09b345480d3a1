import TidyImports.Json.Comments
import TidyImports.Json.Value

/-! What a configuration file says about aliases. Unknown fields are passed over; a field that is
known has one form, may be null and may not be repeated. An array of all known fields stands for an
object. In the map of patterns the last targets of a pattern count, at its first place. -/
namespace TidyImports.Config

structure RawConfig where
  parents : List Text
  baseUrl : Option Text
  paths : Option (List (Text × List Text))
  deriving DecidableEq, Repr

def optional {α : Type} (read : Json → Option α) : Json → Option (Option α)
  | .null => some none
  | value => (read value).map some

def readText? : Json → Option Text
  | .string value => value
  | _ => none

def readTexts? : Json → Option (List Text)
  | .array items => items.mapM readText?
  | _ => none

def readParents? : Json → Option (List Text)
  | .string value => value.map fun parent => [parent]
  | value => readTexts? value

def addTargets (pattern : Text) (targets : List Text) :
    List (Text × List Text) → List (Text × List Text)
  | [] => [(pattern, targets)]
  | (other, old) :: rest =>
    if other = pattern then (pattern, targets) :: rest
    else (other, old) :: addTargets pattern targets rest

def readPathsFrom? (done : List (Text × List Text)) :
    List (Option Text × Json) → Option (List (Text × List Text))
  | [] => some done
  | (key, value) :: rest =>
    match key, readTexts? value with
    | some pattern, some targets => readPathsFrom? (addTargets pattern targets done) rest
    | _, _ => none

def readPaths? : Json → Option (List (Text × List Text))
  | .object fields => readPathsFrom? [] fields
  | _ => none

/-- The value of a known field among fields: null if it is absent, and nothing if it is repeated. -/
def field? (name : String) (fields : List (Option Text × Json)) : Option Json :=
  match fields.filter fun field => field.1 == some name.toList with
  | [] => some .null
  | [(_, value)] => some value
  | _ => none

def twoFields? (first second : String) : Json → Option (Json × Json)
  | .array [a, b] => some (a, b)
  | .object fields =>
    if fields.all fun field => field.1.isSome then
      match field? first fields, field? second fields with
      | some a, some b => some (a, b)
      | _, _ => none
    else none
  | _ => none

def readCompilerOptions? (value : Json) :
    Option (Option Text × Option (List (Text × List Text))) := do
  let (baseUrl, paths) ← twoFields? "baseUrl" "paths" value
  return (← optional readText? baseUrl, ← optional readPaths? paths)

def readConfig? (value : Json) : Option RawConfig := do
  let (parents, options) ← twoFields? "extends" "compilerOptions" value
  let parents ← optional readParents? parents
  let options ← optional readCompilerOptions? options
  let (baseUrl, paths) := options.getD (none, none)
  return ⟨parents.getD [], baseUrl, paths⟩

/-- The known fields of the text of a file, in which comments and trailing commas are allowed. -/
def RawConfig.parse? (content : Text) : Option RawConfig :=
  (Json.parse? (Json.ofCommented content)).bind readConfig?

end TidyImports.Config
