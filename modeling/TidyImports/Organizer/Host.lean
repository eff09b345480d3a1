import TidyImports.Organizer.Pipeline
import TidyImports.Settings.Host

/-! The organizer as a host sees it: options come field by field, errors are one text and the kind of
mistake, and a batch yields all texts or the first error. Loaded aliases are shared by all calls. -/
namespace TidyImports.Organizer

/-- An error as a host sees it. In a batch it carries the path of the file. -/
inductive HostError
  | invalidChoice (error : Settings.InvalidChoice)
  | failure (error : OrganizeError)
  | failureIn (path : Text) (error : OrganizeError)
  deriving DecidableEq, Repr

def HostError.message : HostError → String
  | .invalidChoice error => error.message
  | .failure error => error.message
  | .failureIn path error => String.ofList path ++ ": " ++ error.message

def HostError.isInvalidChoice : HostError → Bool
  | .invalidChoice _ => true
  | _ => false

def hostOrganize (w : World) (code : Text) (options : Option Settings.HostOptions) :
    Except HostError Text × World :=
  match Settings.hostOptions options with
  | .error e => (.error (.invalidChoice e), w)
  | .ok options =>
    match organize builtIn w code options with
    | (.ok text, w) => (.ok text, w)
    | (.error e, w) => (.error (.failure e), w)

def hostBatch : List (Text × Option Settings.HostOptions) →
    Except Settings.InvalidChoice (List (Text × Settings.Options))
  | [] => .ok []
  | (code, options) :: rest =>
    match Settings.hostOptions options with
    | .error e => .error e
    | .ok options => (hostBatch rest).map ((code, options) :: ·)

def firstError : List (Except OrganizeError Text) → List (Text × Settings.Options) →
    Except HostError (List Text)
  | .ok text :: results, _ :: batch => (firstError results batch).map (text :: ·)
  | .error e :: _, (_, options) :: _ => .error (.failureIn options.effectivePath e)
  | _, _ => .ok []

/-- Organizes a batch for a host. A mistake in any options comes before all other errors. -/
def hostOrganizeAll (w : World) (batch : List (Text × Option Settings.HostOptions)) :
    Except HostError (List Text) × World :=
  match hostBatch batch with
  | .error e => (.error (.invalidChoice e), w)
  | .ok batch =>
    let (results, w) := organizeAll builtIn w batch
    (firstError results batch, w)

/-- Organizes one text on the files of a world, with aliases and messages of its own. -/
def organizeOnce (w : World) (code : Text) (options : Settings.Options) :
    Except OrganizeError Text :=
  (organize builtIn (World.new w.tree .discarded) code options).1

/-- One step of a host. Options that are not valid are absent from a free call. -/
inductive HostStep
  | write (path content : Text)
  | remove (path : Text)
  | clearAliasCache
  | exists (path : Text)
  | read (path : Text)
  | organize (code : Text) (options : Option Settings.HostOptions)
  | organizeAll (batch : List (Text × Option Settings.HostOptions))
  | organizeOnce (code : Text) (options : Option Settings.Options)

inductive HostOutcome
  | done
  | flag (value : Bool)
  | content (content : Option Text)
  | organized (result : Except HostError Text)
  | batch (result : Except HostError (List Text))
  | once (result : Except OrganizeError Text)
  | invalidOptions

def HostStep.run (w : World) : HostStep → HostOutcome × World
  | .write path content => (.done, { w with tree := w.tree.write path content })
  | .remove path => (.done, { w with tree := w.tree.remove path })
  | .clearAliasCache => (.done, { w with cache := [] })
  | .exists path => (.flag (w.tree.hasEntry (w.tree.resolve path)), w)
  | .read path => (.content (w.tree.read? (w.tree.resolve path)), w)
  | .organize code options =>
    let (result, w) := hostOrganize w code options
    (.organized result, w)
  | .organizeAll batch =>
    let (result, w) := hostOrganizeAll w batch
    (.batch result, w)
  | .organizeOnce code options =>
    match options with
    | some options => (.once (Organizer.organizeOnce w code options), w)
    | none => (.invalidOptions, w)

def runHost (w : World) : List HostStep → List HostOutcome
  | [] => []
  | step :: rest =>
    let (outcome, w) := step.run w
    outcome :: runHost w rest

end TidyImports.Organizer
