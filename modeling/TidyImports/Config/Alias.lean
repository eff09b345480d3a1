import TidyImports.Path
import TidyImports.Path.Extension

/-! Path aliases. A pattern that ends with a star stands for everything below a directory, a pattern
without a star for one module. Of all aliases that cover a module the one with the longest directory
is taken, and of several with equally long ones the first. -/
namespace TidyImports.Config

/-- One alias: its pattern, the pattern without its star, and the directory or module it stands
for. -/
structure AliasEntry where
  pattern : Text
  aliasPrefix : Text
  baseDir : Text
  wildcard : Bool
  deriving DecidableEq, Repr

/-- The aliases of a configuration in the order of their declaration, its base directory and its own
directory. -/
structure AliasTable where
  entries : List AliasEntry
  baseUrl : Option Text
  configDir : Option Text
  deriving DecidableEq, Repr

def AliasTable.empty : AliasTable := ⟨[], none, none⟩

def moduleStem (path : Text) : Text := Path.stripIndex (Path.stripExtension path)

/-- How an alias spells a module, if it covers it. -/
def AliasEntry.specifierFor? (entry : AliasEntry) (path : Text) : Option Text :=
  if entry.wildcard then
    match Path.relativeWithin? entry.baseDir path with
    | none => none
    | some [] => none
    | some rest => some (entry.aliasPrefix ++ rest)
  else if moduleStem path = entry.baseDir then some entry.pattern
  else none

structure AliasMatch where
  entry : AliasEntry
  specifier : Text
  deriving DecidableEq, Repr

def AliasEntry.match? (entry : AliasEntry) (path : Text) : Option AliasMatch :=
  (entry.specifierFor? path).map (AliasMatch.mk entry)

def better (first second : AliasMatch) : AliasMatch :=
  if first.entry.baseDir.width < second.entry.baseDir.width then second else first

def bestMatch? (path : Text) : List AliasEntry → Option AliasMatch
  | [] => none
  | entry :: rest =>
    match entry.match? path, bestMatch? path rest with
    | some first, some second => some (better first second)
    | some first, none => some first
    | none, found => found

/-- The alias of a module at an absolute path. -/
def AliasTable.lookup? (table : AliasTable) (path : Text) : Option AliasMatch :=
  bestMatch? path table.entries

/-- The alias that a pattern and one of its targets make. A pattern that is a star alone makes none,
for it would turn every module into something that looks like a package. -/
def buildEntry? (pattern target base : Text) : Option AliasEntry :=
  match pattern.count '*', target.count '*' with
  | 0, 0 => some ⟨pattern, pattern, moduleStem (Path.join base [target]), false⟩
  | 1, 1 =>
    match Text.stripTail? ['*'] pattern, Text.stripTail? ['*'] target with
    | some [], _ => none
    | some aliasPrefix, some directory =>
      some ⟨pattern, aliasPrefix, Path.trimSlashes (Path.join base [directory]), true⟩
    | _, _ => none
  | _, _ => none

def buildEntries (base : Text) (paths : List (Text × List Text)) : List AliasEntry :=
  paths.flatMap fun (pattern, targets) => targets.filterMap fun target =>
    buildEntry? pattern target base

end TidyImports.Config
