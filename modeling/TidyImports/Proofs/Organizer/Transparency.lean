import TidyImports.Proofs.Organizer.Batches
import TidyImports.Proofs.Organizer.Loading

/-! Transparency of loaded aliases. While the files stay as they are, a table that was loaded is the one
that loading would give now, also where loading fails. So a run yields what it would yield with nothing
loaded, whatever was run before it, and a batch yields for each of its texts what the text yields alone,
in any order. -/
namespace TidyImports.Organizer

open Config (AliasTable AliasCache)

variable {tree : FileTree} {w w' : World}

/-- Aliases that may be loaded while the files stay as they are: by any calls, also by those that fail,
of any organizers that share them. -/
inductive LoadedFrom (tree : FileTree) : AliasCache → Prop
  | nothing : LoadedFrom tree []
  | load {w : World} (path : Text) (files : w.tree = tree) (before : LoadedFrom tree w.cache) :
    LoadedFrom tree (aliasesAt w path).2.cache
  | run {w : World} (factory : ServiceFactory) (code : Text) (options : Settings.Options)
      (files : w.tree = tree) (before : LoadedFrom tree w.cache) :
    LoadedFrom tree (organize factory w code options).2.cache

/-- The tables of a cache are those that loading would store now. -/
def IsCurrent (tree : FileTree) (cache : AliasCache) : Prop :=
  ∀ path table, cache.get? path = some table → table = .loaded tree path

theorem isCurrent_nil (tree : FileTree) : IsCurrent tree [] := by
  intro path table h
  simp [AliasCache.get?] at h

theorem isCurrent_loading (h : IsCurrent w.tree w.cache) (path : Text) :
    IsCurrent w.tree (w.loading path).cache := by
  intro other table hget
  by_cases hother : other = path
  · subst hother
    rw [World.loading, AliasCache.get?_insert] at hget
    exact (Option.some.inj hget).symm
  · rw [World.loading, AliasCache.get?_insert_of_ne _ hother] at hget
    exact h other table hget

theorem isCurrent_aliasesAt (h : IsCurrent w.tree w.cache) (path : Text) :
    IsCurrent w.tree (aliasesAt w path).2.cache := by
  cases hget : w.cache.get? path with
  | none =>
      rw [aliasesAt_of_absent hget]
      exact isCurrent_loading h path
  | some table =>
      rw [aliasesAt_of_loaded hget]
      exact h

theorem isCurrent_organize (factory : ServiceFactory) (h : IsCurrent w.tree w.cache) (code : Text)
    (options : Settings.Options) :
    IsCurrent w.tree (organize factory w code options).2.cache := by
  rw [(quiet_organize factory w code options).cache]
  cases configOf? w.tree options with
  | none => exact h
  | some path => exact isCurrent_aliasesAt h path

theorem LoadedFrom.isCurrent {cache : AliasCache} (h : LoadedFrom tree cache) :
    IsCurrent tree cache := by
  induction h with
  | nothing => exact isCurrent_nil tree
  | load path files _ ih =>
      subst files
      exact isCurrent_aliasesAt ih path
  | run factory code options files _ ih =>
      subst files
      exact isCurrent_organize factory ih code options

theorem aliasesAt_fst (h : IsCurrent w.tree w.cache) (path : Text) :
    (aliasesAt w path).1 = .loaded w.tree path := by
  cases hget : w.cache.get? path with
  | none => rw [aliasesAt_of_absent hget]
  | some table =>
      rw [aliasesAt_of_loaded hget]
      exact h path table hget

theorem optionAliases_fst (htree : w'.tree = w.tree) (h : IsCurrent w.tree w.cache)
    (h' : IsCurrent w.tree w'.cache) (options : Settings.SpecifierOptions) :
    (optionAliases w' options).1 = (optionAliases w options).1 := by
  rw [optionAliases, optionAliases]
  split
  · rw [← htree] at h'
    rw [aliasesAt_fst h, aliasesAt_fst h', htree]
  · rfl

theorem organizeText_fst (factory : ServiceFactory) (w w' : World) (fileName text : Text)
    (options : Settings.Options) :
    (organizeText factory w' fileName text options).1 =
      (organizeText factory w fileName text options).1 := by
  simp only [organizeText]
  split
  · rfl
  · split
    · rfl
    · rw [applyRecords_eq_patched, applyRecords_eq_patched]

theorem replaceSpecifiers_fst (htree : w'.tree = w.tree) (fileName text : Text)
    (options : Settings.Options)
    (haliases : (optionAliases w' options.specifiers).1 = (optionAliases w options.specifiers).1) :
    (replaceSpecifiers w' fileName text options).1 =
      (replaceSpecifiers w fileName text options).1 := by
  simp only [replaceSpecifiers]
  split
  · rfl
  · simp only [haliases, optionAliases_tree, htree]
    split <;> rfl

/-- The outcome of a run depends on the files alone, as long as loaded tables are current. -/
theorem organize_fst (factory : ServiceFactory) (htree : w'.tree = w.tree)
    (h : IsCurrent w.tree w.cache) (h' : IsCurrent w.tree w'.cache) (code : Text)
    (options : Settings.Options) :
    (organize factory w' code options).1 = (organize factory w code options).1 := by
  have replaced := replaceSpecifiers_fst htree (Path.normalizeSeparators options.effectivePath) code
    options (optionAliases_fst htree h h' options.specifiers)
  simp only [organize]
  split
  · rfl
  · split
    · rcases hw : replaceSpecifiers w (Path.normalizeSeparators options.effectivePath) code options
        with ⟨result, u⟩
      rcases hw' : replaceSpecifiers w' (Path.normalizeSeparators options.effectivePath) code options
        with ⟨result', u'⟩
      rw [hw, hw'] at replaced
      obtain rfl : result' = result := replaced
      cases result' with
      | error e => rfl
      | ok text => exact organizeText_fst factory u u' _ text options
    · exact organizeText_fst factory w w' _ code options

theorem organizeAll_fst (factory : ServiceFactory) (htree : w'.tree = w.tree)
    (h : IsCurrent w.tree w.cache) (h' : IsCurrent w.tree w'.cache)
    (batch : List (Text × Settings.Options)) :
    (organizeAll factory w' batch).1 =
      batch.map fun file => (organize factory w file.1 file.2).1 := by
  -- By induction on the batch: every run leaves the files and current tables to the next one.
  induction batch generalizing w' with
  | nil => rfl
  | cons file batch ih =>
      have tree := (organize_tree factory w' file.1 file.2).trans htree
      have current := isCurrent_organize factory (htree ▸ h') file.1 file.2
      rw [htree] at current
      rw [List.map_cons, ← ih tree current, ← organize_fst factory htree h h']
      rfl

theorem organizeAll_alone (factory : ServiceFactory) (h : IsCurrent w.tree w.cache) (sink : LogSink)
    (batch : List (Text × Settings.Options)) :
    (organizeAll factory w batch).1 =
      batch.map fun file => (organize factory (World.new w.tree sink) file.1 file.2).1 := by
  have fresh : w.tree = (World.new w.tree sink).tree := rfl
  exact organizeAll_fst factory fresh (isCurrent_nil w.tree) h batch

theorem firstError_organizeAll (h : IsCurrent w.tree w.cache)
    {batch : List (Text × Option Settings.HostOptions)} {options : List Settings.Options}
    (hvalid : List.Forall₂ (fun file o => Settings.hostOptions file.2 = .ok o) batch options) :
    firstError (organizeAll builtIn w ((batch.map Prod.fst).zip options)).1
      ((batch.map Prod.fst).zip options) = batch.mapM (organizeElement w) := by
  have alone : (organizeAll builtIn w ((batch.map Prod.fst).zip options)).1 =
      ((batch.map Prod.fst).zip options).map fun file => organizeOnce w file.1 file.2 :=
    organizeAll_alone builtIn h .discarded _
  rw [alone, firstError_eq_mapM]
  clear alone
  induction hvalid with
  | nil => rfl
  | cons hfile _ ih =>
      rw [List.map_cons, List.zip_cons_cons, List.mapM_cons, List.mapM_cons, ih, organizeElement,
        hfile]

theorem hostOrganizeAll_of_valid (h : IsCurrent w.tree w.cache)
    {batch : List (Text × Option Settings.HostOptions)}
    (hvalid : ∀ file ∈ batch, ∃ options, Settings.hostOptions file.2 = .ok options) :
    (hostOrganizeAll w batch).1 = batch.mapM (organizeElement w) := by
  rw [hostOrganizeAll, hostBatch_eq_mapM]
  cases hoptions : batch.mapM fun file => Settings.hostOptions file.2 with
  | ok options => exact firstError_organizeAll h (mapM_eq_ok_iff.1 hoptions)
  | error choice =>
      obtain ⟨_, file, _, rfl, _, hfile⟩ := mapM_eq_error_iff.1 hoptions
      obtain ⟨options, hfile'⟩ := hvalid file (by simp)
      simp [hfile'] at hfile

theorem hostOrganizeAll_eq_ok_iff (h : IsCurrent w.tree w.cache)
    {batch : List (Text × Option Settings.HostOptions)} {texts : List Text} :
    (hostOrganizeAll w batch).1 = .ok texts ↔
      List.Forall₂ (fun file text => organizeElement w file = .ok text) batch texts := by
  rcases valid_or_mistake batch with hvalid | ⟨choice, mistake⟩
  · rw [hostOrganizeAll_of_valid h hvalid, mapM_eq_ok_iff]
  · rw [hostOrganizeAll_of_mistake w mistake]
    obtain ⟨before, file, after, rfl, _, hfile⟩ := mistake
    constructor
    · simp
    · intro all
      obtain ⟨text, _, htext⟩ := Edit.exists_of_forall₂ all.flip file (by simp)
      obtain ⟨options, hoptions, _⟩ := organizeElement_eq_ok_iff.1 htext
      simp [hoptions] at hfile

theorem hostOrganizeAll_eq_error_iff (h : IsCurrent w.tree w.cache)
    {batch : List (Text × Option Settings.HostOptions)} {e : HostError} :
    (hostOrganizeAll w batch).1 = .error e ↔
      (∃ choice, FirstFailure (fun file => Settings.hostOptions file.2) batch choice ∧
        e = .invalidChoice choice) ∨
      ((∀ file ∈ batch, ∃ options, Settings.hostOptions file.2 = .ok options) ∧
        FirstFailure (organizeElement w) batch e) := by
  rcases valid_or_mistake batch with hvalid | ⟨choice, mistake⟩
  · rw [hostOrganizeAll_of_valid h hvalid, mapM_eq_error_iff]
    constructor
    · exact fun failure => .inr ⟨hvalid, failure⟩
    · rintro (⟨choice, ⟨_, file, _, rfl, _, hfile⟩, _⟩ | ⟨_, failure⟩)
      · obtain ⟨options, hoptions⟩ := hvalid file (by simp)
        simp [hoptions] at hfile
      · exact failure
  · rw [hostOrganizeAll_of_mistake w mistake]
    constructor
    · exact fun he => .inl ⟨choice, mistake, (Except.error.inj he).symm⟩
    · rintro (⟨other, hother, rfl⟩ | ⟨hvalid, _⟩)
      · have same := (mapM_eq_error_iff.2 mistake).symm.trans (mapM_eq_error_iff.2 hother)
        rw [Except.error.inj same]
      · obtain ⟨_, file, _, rfl, _, hfile⟩ := mistake
        obtain ⟨options, hoptions⟩ := hvalid file (by simp)
        simp [hoptions] at hfile

/-- With whatever was loaded from files that stay as they are, a run yields what it yields with nothing
loaded. A batch yields for each of its texts what a fresh organizer yields for the text alone, so the
order of a batch is the order of its results and nothing else. A host gets all these texts if all
options are valid and no text fails; otherwise the first mistake in any options or, without one, the
first failure. -/
theorem organize_of_loadedFrom (w : World) (h : LoadedFrom w.tree w.cache) :
    (∀ factory code options, (organize factory w code options).1 =
      (organize factory { w with cache := [] } code options).1) ∧
    (∀ factory sink batch, (organizeAll factory w batch).1 =
      batch.map fun file => (organize factory (World.new w.tree sink) file.1 file.2).1) ∧
    (∀ factory (batch other : List (Text × Settings.Options)), batch.Perm other →
      (batch.zip (organizeAll factory w batch).1).Perm
        (other.zip (organizeAll factory w other).1)) ∧
    (∀ batch texts, (hostOrganizeAll w batch).1 = .ok texts ↔
      List.Forall₂ (fun file text => ∃ options, Settings.hostOptions file.2 = .ok options ∧
        organizeOnce w file.1 options = .ok text) batch texts) ∧
    ∀ batch e, (hostOrganizeAll w batch).1 = .error e ↔
      (∃ choice, FirstFailure (fun file => Settings.hostOptions file.2) batch choice ∧
        e = .invalidChoice choice) ∨
      ((∀ file ∈ batch, ∃ options, Settings.hostOptions file.2 = .ok options) ∧
        FirstFailure (organizeElement w) batch e) := by
  have current := h.isCurrent
  refine ⟨fun factory code options => ?_, fun factory => organizeAll_alone factory current,
    fun factory batch other hperm => ?_, fun batch texts => ?_,
    fun batch e => hostOrganizeAll_eq_error_iff current⟩
  · have fresh : w.tree = ({ w with cache := [] } : World).tree := rfl
    exact organize_fst factory fresh (isCurrent_nil w.tree) current code options
  · rw [organizeAll_alone factory current .discarded, organizeAll_alone factory current .discarded,
      ← List.map_prod_left_eq_zip, ← List.map_prod_left_eq_zip]
    exact hperm.map _
  · simp only [hostOrganizeAll_eq_ok_iff current, organizeElement_eq_ok_iff]

def aliasedProject : FileTree :=
  ((FileTree.new "/p".toList).write "tsconfig.json".toList
      "\x7b\"compilerOptions\":\x7b\"paths\":\x7b\"@/*\":[\"src/*\"]\x7d\x7d\x7d".toList).write
    "broken.json".toList "\x7b".toList

def aliasing (config : String) : Settings.Options :=
  { Settings.Options.default with
    filepath := some "src/b/main.ts".toList
    specifiers := { Settings.SpecifierOptions.none with tsconfigPath := some config.toList } }

/-- A world in which one configuration was loaded, and a run has failed after another one could not be
loaded. -/
def usedWorld : World :=
  (organize builtIn (aliasesAt (World.new aliasedProject (.kept .debug)) "/p/tsconfig.json".toList).2
    "import".toList (aliasing "broken.json")).2

def disordered : Settings.HostOptions :=
  ⟨none, none, none, none, some "up".toList, none, none, none, none, none, none⟩

theorem usedWorld_tree : usedWorld.tree = aliasedProject := by
  rw [usedWorld, organize_tree, aliasesAt_tree]
  rfl

theorem loadedFrom_usedWorld : LoadedFrom usedWorld.tree usedWorld.cache := by
  have files : (aliasesAt (World.new aliasedProject (.kept .debug)) "/p/tsconfig.json".toList).2.tree =
      aliasedProject := aliasesAt_tree _ _
  rw [usedWorld_tree, usedWorld]
  exact .run builtIn _ _ files (.load _ rfl .nothing)

theorem organize_in_usedWorld :
    LoadedFrom usedWorld.tree usedWorld.cache ∧ usedWorld.cache.length = 2 ∧
      (organize builtIn usedWorld "import '../lib/a'".toList (aliasing "tsconfig.json")).1 =
        .ok "import '@/lib/a'".toList ∧
      (organize builtIn { usedWorld with cache := [] } "import '../lib/a'".toList
        (aliasing "tsconfig.json")).1 = .ok "import '@/lib/a'".toList ∧
      (hostOrganizeAll usedWorld [("import".toList, none), ([], some disordered)]).1 =
        .error (.invalidChoice ⟨"organizeImportsTypeOrder", "up".toList⟩) := by
  obtain ⟨alone, _, _, _, failing⟩ := organize_of_loadedFrom usedWorld loadedFrom_usedWorld
  have text : (organize builtIn usedWorld "import '../lib/a'".toList (aliasing "tsconfig.json")).1 =
      .ok "import '@/lib/a'".toList := Script.eq_ok_of_toOption (by decide +kernel)
  have mistake : FirstFailure (fun file => Settings.hostOptions file.2)
      [("import".toList, none), ([], some disordered)]
      ⟨"organizeImportsTypeOrder", "up".toList⟩ :=
    ⟨[("import".toList, none)], ([], some disordered), [], rfl,
      List.forall_mem_singleton.2 ⟨.default, rfl⟩, rfl⟩
  refine ⟨loadedFrom_usedWorld, by decide +kernel, text, ?_,
    (failing _ _).2 (.inl ⟨_, mistake, rfl⟩)⟩
  rw [← alone builtIn]
  exact text

end TidyImports.Organizer
