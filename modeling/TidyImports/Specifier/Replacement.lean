import TidyImports.Config.Alias
import TidyImports.FileTree
import TidyImports.Settings.Options
import TidyImports.Specifier.Collect

/-! Replacing relative specifiers. A specifier stays if it climbs no further than allowed. Otherwise
an alias that covers its target is taken, and without one the prefix for absolute paths, if the
target lies below the root of the project. -/
namespace TidyImports.Specifier

structure Replacement where
  kind : Kind
  text : Text
  deriving DecidableEq, Repr

structure Resolver where
  options : Settings.SpecifierOptions
  aliases : Config.AliasTable
  projectRoot : Text
  sourceDir : Text

namespace Resolver

/-- The directory that absolute paths start from: the given root, else the base directory or the
directory of the configuration, else the current directory. -/
def rootOf (tree : FileTree) (options : Settings.SpecifierOptions) (aliases : Config.AliasTable) :
    Text :=
  match options.projectRoot with
  | some root => tree.resolve root
  | none =>
    match aliases.baseUrl.or aliases.configDir with
    | some directory => Path.clean directory
    | none => tree.cwd

def new (tree : FileTree) (options : Settings.SpecifierOptions) (aliases : Config.AliasTable)
    (filePath : Text) : Resolver :=
  ⟨options, aliases, rootOf tree options aliases, Path.dirname filePath⟩

def isShallow (r : Resolver) (target : Text) : Bool :=
  match r.options.maxRelativePathDepth with
  | some limit => depth target ≤ limit
  | none => false

def pathOf (r : Resolver) (target : Text) : Text :=
  let target := match r.options.framework? with
    | some mode => mode.normalize target
    | none => target
  Path.join r.sourceDir [target]

/-- The spelling below the root of the project. -/
def absolute? (r : Resolver) (path : Text) : Option Replacement :=
  match r.options.absolutePathPrefix, Path.relativeWithin? r.projectRoot path with
  | some start, some (c :: rest) => some ⟨.absolute, start ++ c :: rest⟩
  | _, _ => none

/-- The replacement of a specifier; nothing leaves it as written. -/
def resolve? (r : Resolver) (s : ModuleSpecifier) : Option Replacement :=
  if s.kind ≠ .relative || r.isShallow s.targetModule then none
  else
    let path := r.pathOf s.targetModule
    match r.aliases.lookup? path with
    | some found => some ⟨.aliased, found.specifier⟩
    | none => r.absolute? path

def newText? (r : Resolver) (s : ModuleSpecifier) : Option Text :=
  match r.resolve? s with
  | some found => if found.text = s.targetModule then none else some found.text
  | none => none

def change? (r : Resolver) (s : ModuleSpecifier) : Option Edit.Change :=
  (r.newText? s).map fun text => .replace s.span.start s.span.stop text

def note? (r : Resolver) (s : ModuleSpecifier) : Option String :=
  (r.newText? s).map fun text =>
    "Rewrote " ++ String.ofList s.rawText ++ " to '" ++ String.ofList text ++ "' in " ++
      String.ofList s.sourcePath

end Resolver

/-- The outcome of replacing the specifiers of a document, and the notes taken on the way. -/
structure Replacements where
  notes : List String
  outcome : Except Script.SyntaxError (List Edit.Change)

def Resolver.blocks (r : Resolver) (fileName : Text) : List Document.ScriptBlock → Replacements
  | [] => ⟨[], .ok []⟩
  | block :: rest =>
    match collect fileName block with
    | .error e => ⟨[], .error e⟩
    | .ok specifiers =>
      let more := r.blocks fileName rest
      ⟨specifiers.filterMap r.note? ++ more.notes,
        more.outcome.map fun changes => specifiers.filterMap r.change? ++ changes⟩

def Resolver.document (r : Resolver) (fileName : Text) (kind : Document.Kind) (text : Text) :
    Replacements :=
  r.blocks fileName (Document.scriptBlocks kind text)

end TidyImports.Specifier
