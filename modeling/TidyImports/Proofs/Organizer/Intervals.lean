import Mathlib.Data.List.Dedup
import TidyImports.Proofs.Organizer.Sessions
import TidyImports.Proofs.Path.Folding

/-! Sessions between two clearings of the cache. What a session has made of the cache, the reads and the
warnings at any moment is told by what it asked for since the last clearing: only the first request for
a configuration looks at files, and what it found stands until the next clearing. The calls of a batch may
run on several threads. Those that look for one table before any of them has stored it all load it; later
ones find it. -/
namespace TidyImports.Organizer

open Config (AliasTable AliasCache)
open TidyImports.Path (Canonical isRooted)

variable {factory : ServiceFactory} {level : LogLevel} {w w₀ : World} {requests loads : List Request}
  {raced : List Text} {steps : List Step} {plain : Nat}

/-- Whether the cache is empty after steps that start with an empty one: at the start, and after each
clearing. -/
def EndsClear (steps : List Step) : Prop := steps = [] ∨ steps.getLast? = some .clearCache

theorem cache_of_endsClear (h : Session factory w₀ steps loads raced w) (ends : EndsClear steps)
    (hempty : w₀.cache = []) : w.cache = [] := by
  cases h with
  | start => exact hempty
  | @step steps _ _ _ _ _ _ step h ran =>
      rcases ends with none | last
      · simp at none
      · rw [List.getLast?_concat, Option.some.injEq] at last
        subst last
        cases ran with
        | alone => rfl
        | together valid => cases valid

theorem filesAfter_cwd (tree : FileTree) (steps : List Step) :
    (filesAfter tree steps).cwd = tree.cwd := by
  induction steps generalizing tree with
  | nil => rfl
  | cons step steps ih =>
      refine (ih (step.files tree)).trans ?_
      cases step <;> rfl

theorem configOf?_eq_none {tree : FileTree} {options : Settings.Options}
    (h : options.isEmbedded = true ∨ options.specifiers.tsconfigPath = none ∨
      Document.Kind.resolve? options.parser (Path.normalizeSeparators options.effectivePath) = none) :
    configOf? tree options = none := by
  rw [configOf?]
  rcases h with hembedded | hpath | hkind
  · rw [if_pos hembedded]
  · split
    · rfl
    · split
      · rfl
      · rw [hpath, Option.map_none]
  · split
    · rfl
    · rw [hkind]

def askingReads (w : World) : Option Text → Nat
  | none => 0
  | some path =>
    match w.cache.get? path with
    | some _ => 0
    | none => (Config.loadConfig w.tree path).reads

theorem reads_asked (w : World) (config : Option Text) :
    (w.asked config).reads = w.reads + askingReads w config := by
  cases config with
  | none => rfl
  | some path =>
      rw [World.asked, askingReads]
      cases h : w.cache.get? path with
      | none =>
          rw [aliasesAt_of_absent h]
          rfl
      | some table =>
          rw [aliasesAt_of_loaded h]
          rfl

/-- What the requests since the cache was empty have made of a world: a world that was reached from one
without loaded tables, where calls of batches raced for some paths. -/
structure DecidedBy (factory : ServiceFactory) (level : LogLevel) (w₀ : World)
    (requests loads : List Request) (raced : List Text) (plain : Nat) (w : World) : Prop where
  /-- A canonical path is its own key, and all spellings lead to such keys. -/
  key : (∀ path, Canonical path → w.tree.resolve path = path) ∧
    ∀ spelling, Canonical (w.tree.resolve spelling)
  /-- The table of a path is the one of the files at its first request. -/
  stored : ∀ path, w.cache.get? path = (firstFor? path requests).map fun first =>
    .loaded first.tree path
  /-- Looking for a table finds the stored one, by any spelling, and changes nothing. -/
  get : ∀ spelling, (Step.cacheGet spelling).run factory w =
    (.table ((firstFor? (w.tree.resolve spelling) requests).map fun first =>
      .loaded first.tree (w.tree.resolve spelling)), w)
  /-- Asking again for a table yields the stored one, by any spelling, and changes nothing. -/
  again : ∀ spelling first, firstFor? (w.tree.resolve spelling) requests = some first →
    (Step.cacheLoad spelling).run factory w =
      (.table (some (.loaded first.tree (w.tree.resolve spelling))), w)
  /-- Asking for the first time loads from the files as they are. -/
  anew : ∀ spelling, firstFor? (w.tree.resolve spelling) requests = none →
    (Step.cacheLoad spelling).run factory w =
      (.table (some (.loaded w.tree (w.tree.resolve spelling))),
        w.loading (w.tree.resolve spelling))
  size : w.cache.length = (requests.map Request.path).dedup.length
  /-- Each path that was asked for was loaded by its first request, once unless calls raced for it. -/
  once : ∀ path, (loads.filter fun r => r.path == path) =
    (firstFor? path requests).elim [] (List.replicate (raced.count path + 1))
  /-- Each load that fails has one warning, if the log takes warnings. -/
  warnings : w.log.messages .warn = w₀.log.messages .warn ++
    if level.rank ≤ LogLevel.warn.rank then loads.filterMap Request.warning? else []
  /-- Besides files that were asked for by themselves, only loads look at files. -/
  reads : w.reads = w₀.reads + plain + (loads.map Request.reads).sum
  /-- A run looks at files only for the first request of its configuration. -/
  runReads : ∀ code options, (organize factory w code options).2.reads =
    w.reads + askingReads w (configOf? w.tree options)
  /-- A run without a configuration looks at no file and loads no table. -/
  runQuiet : ∀ code options, (options.isEmbedded = true ∨ options.specifiers.tsconfigPath = none ∨
      Document.Kind.resolve? options.parser
        (Path.normalizeSeparators options.effectivePath) = none) →
    (organize factory w code options).2.reads = w.reads ∧
      (organize factory w code options).2.cache = w.cache
  /-- A batch, whichever of its calls advance and however far, loads nothing that was asked for before. It
  looks at files only to load, and whole batches yield what they yield from left to right. -/
  batch : ∀ files loads raced w' calls, Schedule factory w files loads raced w' calls →
    (∀ path, firstFor? path requests ≠ none →
      path ∉ loads ∧ w'.cache.get? path = w.cache.get? path) ∧
    w'.reads = w.reads + (loads.map fun path => Request.reads ⟨path, w.tree⟩).sum ∧
    (Finished calls → calls.map Call.result? = (organizeAll factory w files).1.map some)

/-- Calls race only with calls of the same batch, for a path that no step before it asks for. A path is
raced for by fewer calls than ask for it. -/
def RacedTogether (tree : FileTree) (interval : List Step) (raced : List Text) : Prop :=
  ∀ path ∈ raced, ∃ before step batch after, interval = before ++ step :: after ∧
    step.batch? = some batch ∧ firstFor? path (requestsOf tree before) = none ∧
    raced.count path < (batchPaths (filesAfter tree before) batch).count path

theorem length_cache (h : Accounts level w₀ requests loads raced plain w) :
    w.cache.length = (requests.map Request.path).dedup.length := by
  have same : (w.cache.map Prod.fst).Perm (requests.map Request.path).dedup := by
    rw [List.perm_ext_iff_of_nodup h.keys (List.nodup_dedup _)]
    intro path
    have tables := h.tables path
    rw [List.mem_dedup, mem_paths_iff, ← Option.isSome_map, ← tables]
    refine ⟨fun mem => ?_, fun found => ?_⟩
    · rw [← Option.not_isNone, Bool.not_eq_true']
      by_contra none
      exact not_mem_keys (Option.isNone_iff_eq_none.1 (by simpa using none)) mem
    · obtain ⟨table, found⟩ := Option.isSome_iff_exists.1 found
      obtain ⟨before, after, split, -⟩ := List.lookup_eq_some_iff.1 found
      rw [split]
      simp
  rw [← same.length_eq, List.length_map]

theorem stored_of_accounts (h : Accounts level w₀ requests loads raced plain w) (path : Text) :
    w.cache.get? path = (firstFor? path requests).map fun first => .loaded first.tree path := by
  rw [h.tables]
  refine Option.map_congr fun first hfirst => ?_
  rw [Request.table, firstFor?_path hfirst]

theorem Schedule.kept {batch : List (Text × Settings.Options)} {loads raced : List Text}
    {calls : List Call} {path : Text} (h : Schedule factory w₀ batch loads raced w calls)
    (there : w₀.cache.get? path ≠ none) :
    path ∉ loads ∧ w.cache.get? path = w₀.cache.get? path := by
  obtain ⟨table, found⟩ := Option.ne_none_iff_exists'.1 there
  refine ⟨List.count_eq_zero.1 ?_, by rw [found, h.tabled.kept path table found]⟩
  cases h.counted path with
  | untouched _ _ none _ =>
      rw [misses] at none
      omega
  | opened absent => exact absurd absent there

theorem Accounts.decidedBy (h : Accounts level w₀ requests loads raced plain w)
    (hcwd : isRooted w.tree.cwd = true) :
    DecidedBy factory level w₀ requests loads raced plain w where
  key := ⟨fun _ hpath => Path.resolve_canonical w.tree.cwd hpath,
    fun spelling => Path.canonical_resolve hcwd [spelling]⟩
  stored := stored_of_accounts h
  get spelling := by rw [Step.run, stored_of_accounts h]
  again spelling first hfirst := by
    have there := stored_of_accounts h (w.tree.resolve spelling)
    rw [hfirst, Option.map_some] at there
    rw [Step.run, aliasesAt_of_loaded there]
  anew spelling hfirst := by
    have absent := stored_of_accounts h (w.tree.resolve spelling)
    rw [hfirst, Option.map_none] at absent
    rw [Step.run, aliasesAt_of_absent absent]
  size := length_cache h
  once := h.loaded
  warnings := h.spent.warnings
  reads := h.spent.reads
  runReads code options := by
    rw [(quiet_organize factory w code options).reads, reads_asked]
  runQuiet code options hnone := by
    have quiet := quiet_organize factory w code options
    rw [configOf?_eq_none hnone] at quiet
    exact ⟨quiet.reads, quiet.cache⟩
  batch files loads raced w' calls schedule := by
    have reads := (schedule.spent h.spent.sink).reads
    rw [Nat.add_zero, List.map_map] at reads
    refine ⟨fun path hpath => schedule.kept ?_, reads, schedule.results_eq⟩
    rw [h.tables]
    simpa using hpath

theorem Session.racedTogether {interval : List Step} (h : Session factory w₀ interval loads raced w)
    (hempty : w₀.cache = []) (sink : w₀.log.sink = .kept level)
    (hinterval : ∀ step ∈ interval, step ≠ .clearCache) :
    RacedTogether w₀.tree interval raced := by
  induction h with
  | start => intro path hpath; simp at hpath
  | @step steps loads more raced moreRaced w w' step h ran ih =>
      simp only [List.forall_mem_append, List.forall_mem_singleton] at hinterval
      have accounts := h.accounts hempty sink hinterval.1
      intro path hpath
      rw [List.count_append]
      by_cases old : path ∈ raced
      · obtain ⟨before, step', batch, after, rfl, valid, first, lt⟩ := ih hinterval.1 path old
        have asked := accounts.alone path old
        have still : path ∉ moreRaced := by
          intro new
          have absent := ((ran.asked (h.sink sink) hinterval.2).alone path new).2
          rw [accounts.tables, Option.map_eq_none_iff] at absent
          exact asked absent
        rw [List.count_eq_zero.2 still, Nat.add_zero]
        exact ⟨before, step', batch, after ++ [step], by simp, valid, first, lt⟩
      · have new := (List.mem_append.1 hpath).resolve_left old
        rw [List.count_eq_zero.2 old, Nat.zero_add]
        cases ran with
        | alone => simp at new
        | together valid schedule finished =>
            obtain ⟨absent, lt⟩ := schedule.raced_lt new
            rw [accounts.tables, Option.map_eq_none_iff] at absent
            rw [h.tree] at lt
            exact ⟨steps, step, _, [], rfl, valid, absent, lt⟩

def aliasedBy (config : String) : Settings.Options :=
  { Settings.Options.default with
    filepath := some "b/main.ts".toList
    specifiers := { Settings.SpecifierOptions.none with tsconfigPath := some config.toList } }

def forgottenSteps : List Step :=
  [.write "a.json".toList "\x7b".toList, .cacheLoad "a.json".toList, .clearCache]

/-- Steps that load a configuration, that use it once it is changed and removed, and in which a run
asks for one that is not there. -/
def staleSteps : List Step :=
  [.write "a.json".toList "\x7b\"compilerOptions\":\x7b\"paths\":\x7b\"@/*\":[\"*\"]\x7d\x7d\x7d".toList,
    .cacheLoad "./a.json".toList, .write "a.json".toList "\x7b\x7d".toList,
    .organize "import".toList (some (aliasedBy "b.json")), .write "b.json".toList [],
    .read "b.json".toList, .cacheLoad "x/../b.json".toList, .remove "a.json".toList,
    .organize "import '../c'".toList (some (aliasedBy "/p/a.json"))]

example : (requestsOf (FileTree.new "/p".toList) staleSteps).map Request.path =
    ["/p/a.json".toList, "/p/b.json".toList, "/p/b.json".toList, "/p/a.json".toList] := by
  decide +kernel

end TidyImports.Organizer
