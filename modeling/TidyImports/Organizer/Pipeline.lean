import TidyImports.Config.Load
import TidyImports.Edit.Patch
import TidyImports.Log
import TidyImports.Organizer.Service
import TidyImports.Specifier.Replacement

/-! The way of a text through the organizer: relative specifiers are replaced first, so that imports
are sorted and merged by their final specifiers. A failure ends the run without a text; what was
loaded, logged and asked until then remains. -/
namespace TidyImports.Organizer

inductive ServiceCall
  | create (parser : Option Text) (fileName code : Text)
  | organize (request : ServiceRequest)
  deriving DecidableEq, Repr

/-- What a run works in: files, the number of times a file was asked for, loaded aliases, the log,
and the calls to services. -/
structure World where
  tree : FileTree
  reads : Nat
  cache : Config.AliasCache
  log : Log
  calls : List ServiceCall

def World.new (tree : FileTree) (sink : LogSink) : World := ⟨tree, 0, [], Log.new sink, []⟩

def World.logged (w : World) (level : LogLevel) (message : String) : World :=
  { w with log := w.log.add level message }

def World.called (w : World) (call : ServiceCall) : World := { w with calls := w.calls ++ [call] }

def World.noted (w : World) (notes : List String) : World :=
  notes.foldl (fun w note => w.logged .debug note) w

inductive OrganizeError
  | parse (fileName : Text)
  | unsupportedParser (name : Text)
  | unknownFile (fileName : Text)
  | patch (error : Edit.PatchError)
  deriving DecidableEq, Repr

def OrganizeError.message : OrganizeError → String
  | .parse fileName => "failed to parse " ++ String.ofList fileName
  | .unsupportedParser name => "unsupported parser: " ++ String.ofList name
  | .unknownFile fileName =>
    "language service has no source file named " ++ String.ofList fileName
  | .patch error => error.message

def OrganizeError.ofService : ServiceError → OrganizeError
  | .parse fileName => .parse fileName
  | .unsupportedParser name => .unsupportedParser name
  | .unknownFile fileName => .unknownFile fileName

def patched (text : Text) (changes : List Edit.Change) : Except OrganizeError Text :=
  match Edit.apply text changes with
  | .ok text => .ok text
  | .error e => .error (.patch e)

def loadedMessage (table : Config.AliasTable) (path : Text) : String :=
  "Loaded " ++ toString table.entries.length ++ " path alias(es) from " ++ String.ofList path

def ignoredMessage (error : Config.ConfigError) (path : Text) : String :=
  "Ignoring path aliases from " ++ String.ofList path ++ ": " ++ error.message

/-- Loads the aliases of the configuration at an absolute path, whatever is in the cache. -/
def loadAliases (w : World) (path : Text) : Config.AliasTable × World :=
  let loading := Config.loadConfig w.tree path
  let w := { w with reads := w.reads + loading.reads }
  match loading.outcome with
  | .ok resolved =>
    let table := resolved.table
    (table, { w.logged .debug (loadedMessage table path) with
      cache := w.cache.insert path table })
  | .error e =>
    (.empty, { w.logged .warn (ignoredMessage e path) with
      cache := w.cache.insert path .empty })

/-- The aliases of the configuration at an absolute path, loaded if they are not there yet. -/
def aliasesAt (w : World) (path : Text) : Config.AliasTable × World :=
  match w.cache.get? path with
  | some table => (table, w)
  | none => loadAliases w path

def optionAliases (w : World) (options : Settings.SpecifierOptions) : Config.AliasTable × World :=
  match options.tsconfigPath with
  | some path => aliasesAt w (w.tree.resolve path)
  | none => (.empty, w)

def replaceSpecifiers (w : World) (fileName text : Text) (options : Settings.Options) :
    Except OrganizeError Text × World :=
  match Document.Kind.resolve? options.parser fileName with
  | none => (.error (.unsupportedParser (options.parser.getD [])), w)
  | some kind =>
    let (aliases, w) := optionAliases w options.specifiers
    let resolver :=
      Specifier.Resolver.new w.tree options.specifiers aliases (w.tree.resolve fileName)
    let replacements := resolver.document fileName kind text
    let w := w.noted replacements.notes
    match replacements.outcome with
    | .error _ => (.error (.parse fileName), w)
    | .ok changes => (patched text changes, w)

def changesOf (fileName : Text) (records : List FileChanges) : List Edit.Change :=
  (records.filter fun record => record.fileName == fileName).flatMap FileChanges.changes

def organizedMessage (fileName : Text) (count : Nat) : String :=
  "Organized imports of " ++ String.ofList fileName ++ " (" ++ toString count ++ " edit(s))"

def applyRecords (w : World) (fileName text : Text) (records : List FileChanges) :
    Except OrganizeError Text × World :=
  match changesOf fileName records with
  | [] => (patched text [], w)
  | changes => (patched text changes, w.logged .debug (organizedMessage fileName changes.length))

def organizeText (factory : ServiceFactory) (w : World) (fileName text : Text)
    (options : Settings.Options) : Except OrganizeError Text × World :=
  let w := w.called (.create options.parser fileName text)
  match factory options.parser fileName text with
  | .error e => (.error (.ofService e), w)
  | .ok service =>
    let request : ServiceRequest := ⟨fileName, options.keepUnused, options.typeOrder⟩
    let w := w.called (.organize request)
    match service request with
    | .error e => (.error (.ofService e), w)
    | .ok records => applyRecords w fileName text records

def skippedMessage (fileName : Text) : String :=
  "Skipping " ++ String.ofList fileName ++ ": block of an enclosing Vue file"

def organize (factory : ServiceFactory) (w : World) (code : Text) (options : Settings.Options) :
    Except OrganizeError Text × World :=
  let fileName := Path.normalizeSeparators options.effectivePath
  if options.isEmbedded then (.ok code, w.logged .debug (skippedMessage fileName))
  else if options.specifiers.isEnabled then
    match replaceSpecifiers w fileName code options with
    | (.error e, w) => (.error e, w)
    | (.ok text, w) => organizeText factory w fileName text options
  else organizeText factory w fileName code options

/-- Organizes texts from left to right; a failure does not keep the others from being organized. -/
def organizeAll (factory : ServiceFactory) (w : World) :
    List (Text × Settings.Options) → List (Except OrganizeError Text) × World
  | [] => ([], w)
  | (code, options) :: rest =>
    let (result, w) := organize factory w code options
    let (results, w) := organizeAll factory w rest
    (result :: results, w)

end TidyImports.Organizer
