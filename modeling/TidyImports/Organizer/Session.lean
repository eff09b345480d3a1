import TidyImports.Organizer.Pipeline

/-! Sessions: steps on files, aliases and texts in one world, each with its outcome and with what it
adds to the world. Options that are not valid make a step fail without effect. -/
namespace TidyImports.Organizer

/-- One step of a session. Options that are not valid are absent. -/
inductive Step
  | write (path content : Text)
  | remove (path : Text)
  | clearCache
  | exists (path : Text)
  | pwd
  | read (path : Text)
  | cacheGet (path : Text)
  | cacheLoad (path : Text)
  | organize (code : Text) (options : Option Settings.Options)
  | organizeAll (batch : List (Text × Option Settings.Options))

inductive StepError
  | invalidOptions
  | failed (error : OrganizeError)
  deriving DecidableEq, Repr

inductive Outcome
  | done
  | flag (value : Bool)
  | path (path : Text)
  | content (content : Text)
  | missing (path : Text)
  | table (table : Option Config.AliasTable)
  | organized (result : Except StepError Text)
  | batch (results : List (Except OrganizeError Text))
  | invalidBatch

def World.readOnce (w : World) : World := { w with reads := w.reads + 1 }

def readOutcome (w : World) (path : Text) : Outcome :=
  match w.tree.read? path with
  | some content => .content content
  | none => .missing path

def validBatch? (batch : List (Text × Option Settings.Options)) :
    Option (List (Text × Settings.Options)) :=
  batch.mapM fun (code, options) => options.map fun options => (code, options)

def organizeStep (factory : ServiceFactory) (w : World) (code : Text)
    (options : Option Settings.Options) : Outcome × World :=
  match options with
  | none => (.organized (.error .invalidOptions), w)
  | some options =>
    match Organizer.organize factory w code options with
    | (.ok text, w) => (.organized (.ok text), w)
    | (.error e, w) => (.organized (.error (.failed e)), w)

def Step.run (factory : ServiceFactory) (w : World) : Step → Outcome × World
  | .write path content => (.done, { w with tree := w.tree.write path content })
  | .remove path => (.done, { w with tree := w.tree.remove path })
  | .clearCache => (.done, { w with cache := [] })
  | .exists path => (.flag (w.tree.hasFile (w.tree.resolve path)), w)
  | .pwd => (.path w.tree.cwd, w)
  | .read path => (readOutcome w (w.tree.resolve path), w.readOnce)
  | .cacheGet path => (.table (w.cache.get? (w.tree.resolve path)), w)
  | .cacheLoad path =>
    let (table, w) := aliasesAt w (w.tree.resolve path)
    (.table (some table), w)
  | .organize code options => organizeStep factory w code options
  | .organizeAll batch =>
    match validBatch? batch with
    | none => (.invalidBatch, w)
    | some batch =>
      let (results, w) := Organizer.organizeAll factory w batch
      (.batch results, w)

/-- What a step yields, and the state of the world after it: the number of loaded tables, the number
of reads so far, and the messages and calls that the step added. -/
structure StepReport where
  outcome : Outcome
  cacheSize : Nat
  reads : Nat
  records : List LogRecord
  calls : List ServiceCall

def Step.report (factory : ServiceFactory) (w : World) (step : Step) : StepReport × World :=
  let (outcome, after) := step.run factory w
  (⟨outcome, after.cache.length, after.reads, after.log.records.drop w.log.records.length,
    after.calls.drop w.calls.length⟩, after)

def runSession (factory : ServiceFactory) (w : World) : List Step → List StepReport
  | [] => []
  | step :: rest =>
    let (report, w) := step.report factory w
    report :: runSession factory w rest

/-- A service that gives prepared answers: an error when it is made, an error when it is asked, or
records, whose file is the one that is asked for unless they name another one. -/
structure ScriptedService where
  createError : Option ServiceError
  organizeError : Option ServiceError
  records : List (Option Text × List Edit.Change)

def ScriptedService.record (requested : Text) (prepared : Option Text × List Edit.Change) :
    FileChanges :=
  ⟨prepared.1.getD requested, prepared.2, false⟩

def ScriptedService.factory (s : ScriptedService) : ServiceFactory := fun _ _ _ =>
  match s.createError with
  | some e => .error e
  | none => .ok fun request =>
    match s.organizeError with
    | some e => .error e
    | none => .ok (s.records.map (ScriptedService.record request.fileName))

end TidyImports.Organizer
