import TidyImports.Config.Alias
import TidyImports.Config.Reading
import TidyImports.FileTree

/-! Loading the aliases of a configuration file. A file may build on others: what it does not say is
taken from the last of them that says it. Directories are absolute from the start, so that they do
not depend on the file that takes them over. A chain of files is followed up to a fixed depth, which
ends cycles as well. -/
namespace TidyImports.Config

inductive ConfigError
  | unreadable (path : Text)
  | malformed (path : Text)
  | tooDeep (path : Text)
  deriving DecidableEq, Repr

def maxDepth : Nat := 8

def missingFile (path : Text) : String := "ENOENT: no such file: " ++ String.ofList path

/-- The wording of an error. Of a malformed file the cause, which the reader of JSON words, is left out. -/
def ConfigError.message : ConfigError → String
  | .unreadable path => "failed to read " ++ String.ofList path ++ ": " ++ missingFile path
  | .malformed path => "failed to parse " ++ String.ofList path
  | .tooDeep path =>
    "tsconfig extends chain is deeper than " ++ toString maxDepth ++ " at " ++ String.ofList path

/-- What a file and those it builds on say: the base directory, the map of patterns with the
directory of the file that declares it, and the directory of the file itself. -/
structure Resolved where
  baseUrl : Option Text
  paths : Option (List (Text × List Text) × Text)
  configDir : Text
  deriving DecidableEq, Repr

def Resolved.empty : Resolved := ⟨none, none, []⟩

def Resolved.overrideWith (earlier later : Resolved) : Resolved :=
  ⟨later.baseUrl.or earlier.baseUrl, later.paths.or earlier.paths, later.configDir⟩

def RawConfig.resolved (raw : RawConfig) (path : Text) : Resolved :=
  let directory := Path.dirname path
  ⟨raw.baseUrl.map fun baseUrl => Path.join directory [baseUrl],
    raw.paths.map fun paths => (paths, directory), directory⟩

/-- The aliases that follow. Without a base directory, targets are relative to the file that declares
them. -/
def Resolved.table (r : Resolved) : AliasTable :=
  let entries := match r.paths with
    | none => []
    | some (paths, directory) => buildEntries (r.baseUrl.getD directory) paths
  ⟨entries, r.baseUrl, some r.configDir⟩

def isFileParent (parent : Text) : Bool := parent.startsWith ['.'] || Path.isRooted parent

def parentPath (directory parent : Text) : Text :=
  let path := Path.join directory [parent]
  Path.clean (if path.endsWith ".json".toList then path else path ++ ".json".toList)

/-- The outcome of loading, and the number of files that were asked for. -/
structure Loading where
  reads : Nat
  outcome : Except ConfigError Resolved

def loadParents (load : Text → Loading) (known : Resolved) : List Text → Loading
  | [] => ⟨0, .ok known⟩
  | path :: rest =>
    let one := load path
    match one.outcome with
    | .error e => ⟨one.reads, .error e⟩
    | .ok parent =>
      let more := loadParents load (known.overrideWith parent) rest
      ⟨one.reads + more.reads, more.outcome⟩

/-- Loads a file when a number of further steps is allowed. -/
def loadWithin (tree : FileTree) : Nat → Text → Loading
  | 0, path => ⟨0, .error (.tooDeep path)⟩
  | steps + 1, path =>
    match tree.read? path with
    | none => ⟨1, .error (.unreadable path)⟩
    | some content =>
      match RawConfig.parse? content with
      | none => ⟨1, .error (.malformed path)⟩
      | some raw =>
        let own := raw.resolved path
        let parents := (raw.parents.filter isFileParent).map (parentPath own.configDir)
        let above := loadParents (loadWithin tree steps) Resolved.empty parents
        ⟨above.reads + 1, above.outcome.map fun known => known.overrideWith own⟩

def loadConfig (tree : FileTree) (path : Text) : Loading := loadWithin tree (maxDepth + 1) path

/-- The aliases of the file at an absolute path. -/
def AliasTable.load (tree : FileTree) (path : Text) : Except ConfigError AliasTable :=
  (loadConfig tree path).outcome.map Resolved.table

/-- The aliases of a text that stands at an absolute path; what it builds on is not followed. -/
def AliasTable.ofContent (content path : Text) : Except ConfigError AliasTable :=
  match RawConfig.parse? content with
  | none => .error (.malformed path)
  | some raw => .ok (raw.resolved path).table

/-! Loaded aliases by the path of their configuration file. A table that is there stays as it is
until all are forgotten; a file that cannot be loaded counts as one without aliases. -/

abbrev AliasCache := List (Text × AliasTable)

namespace AliasCache

def get? (cache : AliasCache) (path : Text) : Option AliasTable := List.lookup path cache

def insert (cache : AliasCache) (path : Text) (table : AliasTable) : AliasCache :=
  (path, table) :: cache

theorem get?_insert (cache : AliasCache) (path : Text) (table : AliasTable) :
    (cache.insert path table).get? path = some table := by
  simp [insert, get?]

theorem get?_insert_of_ne {cache : AliasCache} {path other : Text} (table : AliasTable)
    (h : other ≠ path) : (cache.insert path table).get? other = cache.get? other := by
  have hb : (other == path) = false := by simpa using h
  simp [insert, get?, List.lookup_cons, hb]

end AliasCache

end TidyImports.Config
