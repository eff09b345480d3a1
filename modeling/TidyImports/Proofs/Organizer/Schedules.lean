import TidyImports.Proofs.Organizer.Loading

/-! Batches on several threads. The calls of a batch share one world: each looks up the table of its
configuration, loads one if there is none, stores it unless another call was faster, and works on its text
with the table that is stored. The calls take these steps in any order. -/
namespace TidyImports.Organizer

open Config (AliasTable AliasCache)

variable {factory : ServiceFactory} {w w' w₀ : World} {path : Text} {code : Text}
  {options : Settings.Options} {batch : List (Text × Settings.Options)}

/-- What a call adds to the log and asks of services, step by step. -/
inductive Effect
  | note (message : String)
  | call (call : ServiceCall)

/-- What is left of a call that has its aliases. It looks at no file and at no table. -/
structure Work where
  effects : List Effect
  result : Except OrganizeError Text

def World.performed (w : World) : Effect → World
  | .note message => w.logged .debug message
  | .call call => w.called call

def serviceWork (factory : ServiceFactory) (fileName text : Text) (options : Settings.Options) : Work :=
  let created := Effect.call (.create options.parser fileName text)
  match factory options.parser fileName text with
  | .error e => ⟨[created], .error (.ofService e)⟩
  | .ok service =>
    let request : ServiceRequest := ⟨fileName, options.keepUnused, options.typeOrder⟩
    match service request with
    | .error e => ⟨[created, .call (.organize request)], .error (.ofService e)⟩
    | .ok records =>
      match changesOf fileName records with
      | [] => ⟨[created, .call (.organize request)], patched text []⟩
      | changes =>
        ⟨[created, .call (.organize request), .note (organizedMessage fileName changes.length)],
          patched text changes⟩

/-- The work of a call with the table of its configuration. -/
def work (factory : ServiceFactory) (tree : FileTree) (aliases : AliasTable) (code : Text)
    (options : Settings.Options) : Work :=
  let fileName := Path.normalizeSeparators options.effectivePath
  if options.isEmbedded then ⟨[.note (skippedMessage fileName)], .ok code⟩
  else if options.specifiers.isEnabled then
    match Document.Kind.resolve? options.parser fileName with
    | none => ⟨[], .error (.unsupportedParser (options.parser.getD []))⟩
    | some kind =>
      let resolver := Specifier.Resolver.new tree options.specifiers aliases (tree.resolve fileName)
      let replacements := resolver.document fileName kind code
      let notes := replacements.notes.map Effect.note
      match replacements.outcome with
      | .error _ => ⟨notes, .error (.parse fileName)⟩
      | .ok changes =>
        match patched code changes with
        | .error e => ⟨notes, .error e⟩
        | .ok text =>
          let rest := serviceWork factory fileName text options
          ⟨notes ++ rest.effects, rest.result⟩
  else serviceWork factory fileName code options

/-- The table that a call gets which runs alone. -/
def tableFor (w : World) : Option Text → AliasTable
  | none => .empty
  | some path => (aliasesAt w path).1

theorem foldl_performed_notes (w : World) (notes : List String) :
    (notes.map Effect.note).foldl World.performed w = w.noted notes := by
  rw [World.noted, List.foldl_map]
  rfl

theorem organizeText_eq_work (factory : ServiceFactory) (w : World) (fileName text : Text)
    (options : Settings.Options) : organizeText factory w fileName text options =
      ((serviceWork factory fileName text options).result,
        (serviceWork factory fileName text options).effects.foldl World.performed w) := by
  simp only [organizeText, serviceWork]
  cases factory options.parser fileName text with
  | error e => rfl
  | ok service =>
      simp only
      cases service ⟨fileName, options.keepUnused, options.typeOrder⟩ with
      | error e => rfl
      | ok records =>
          simp only [applyRecords]
          cases changesOf fileName records <;> rfl

/-- A call that runs alone asks for its aliases and works. -/
theorem organize_eq_work (factory : ServiceFactory) (w : World) (code : Text)
    (options : Settings.Options) : organize factory w code options =
      ((work factory w.tree (tableFor w (configOf? w.tree options)) code options).result,
        (work factory w.tree (tableFor w (configOf? w.tree options)) code options).effects.foldl
          World.performed (w.asked (configOf? w.tree options))) := by
  cases halone : options.isEmbedded with
  | true => simp [organize, work, configOf?, halone, World.asked, World.performed]
  | false =>
      cases henabled : options.specifiers.isEnabled with
      | false =>
          have config : configOf? w.tree options = none := by
            rw [configOf?, tsconfigPath_of_not_enabled henabled]
            cases Document.Kind.resolve? options.parser
              (Path.normalizeSeparators options.effectivePath) <;> simp
          rw [organize, if_neg (by simp [halone]), if_neg (by simp [henabled]), organizeText_eq_work, config]
          simp only [work, halone, henabled, Bool.false_eq_true, if_false]
          rfl
      | true =>
          cases hkind : Document.Kind.resolve? options.parser
              (Path.normalizeSeparators options.effectivePath) with
          | none =>
              simp [organize, replaceSpecifiers, work, configOf?, halone, henabled, hkind, World.asked]
          | some kind =>
              have config : configOf? w.tree options = options.specifiers.tsconfigPath.map w.tree.resolve := by
                simp [configOf?, halone, hkind]
              have table : tableFor w (configOf? w.tree options) = (optionAliases w options.specifiers).1 := by
                rw [config, optionAliases]
                cases options.specifiers.tsconfigPath <;> rfl
              rw [table, config, ← optionAliases_snd]
              simp only [organize, replaceSpecifiers, work, halone, henabled, hkind, Bool.false_eq_true,
                if_false, if_true, optionAliases_tree]
              cases (Specifier.Resolver.document (Specifier.Resolver.new w.tree options.specifiers
                (optionAliases w options.specifiers).1
                  (w.tree.resolve (Path.normalizeSeparators options.effectivePath)))
                (Path.normalizeSeparators options.effectivePath) kind code).outcome with
              | error e => simp only [foldl_performed_notes]
              | ok changes =>
                  simp only
                  cases patched code changes with
                  | error e => simp only [foldl_performed_notes]
                  | ok text =>
                      simp only [organizeText_eq_work, List.foldl_append, foldl_performed_notes]

/-! The steps of a call. -/

inductive Phase
  | begun
  | missed (path : Text)
  | loaded (path : Text) (table : AliasTable)
  | working (work : Work)

structure Call where
  code : Text
  options : Settings.Options
  phase : Phase

namespace Call

def begin (file : Text × Settings.Options) : Call := ⟨file.1, file.2, .begun⟩

def file (call : Call) : Text × Settings.Options := (call.code, call.options)

def hasMissed (path : Text) (call : Call) : Bool :=
  match call.phase with
  | .missed other => other == path
  | _ => false

def isLoading (path : Text) (call : Call) : Bool :=
  match call.phase with
  | .missed other => other == path
  | .loaded other _ => other == path
  | _ => false

def result? (call : Call) : Option (Except OrganizeError Text) :=
  match call.phase with
  | .working ⟨[], result⟩ => some result
  | _ => none

def finished (file : Text × Settings.Options) (result : Except OrganizeError Text) : Call :=
  ⟨file.1, file.2, .working ⟨[], result⟩⟩

end Call

def Finished (calls : List Call) : Prop := ∀ call ∈ calls, call.result?.isSome

def World.stored (w : World) (path : Text) (table : AliasTable) : World :=
  match w.cache.get? path with
  | some _ => w
  | none => { w with cache := w.cache.insert path table }

inductive Event
  | quiet
  | missed (path : Text)
  | loaded (path : Text)

namespace Event

def loads : Event → List Text
  | .quiet | .missed _ => []
  | .loaded path => [path]

def raced (others : List Call) : Event → List Text
  | .quiet | .loaded _ => []
  | .missed path => if others.any (Call.isLoading path) then [path] else []

end Event

inductive Advance (factory : ServiceFactory) : World → Call → Event → World → Call → Prop
  | skipped {w : World} {code : Text} {options : Settings.Options} (none : configOf? w.tree options = none) :
    Advance factory w ⟨code, options, .begun⟩ .quiet w
      ⟨code, options, .working (work factory w.tree .empty code options)⟩
  | found {w : World} {code : Text} {options : Settings.Options} {path : Text} {table : AliasTable}
    (asks : configOf? w.tree options = some path) (there : w.cache.get? path = some table) :
    Advance factory w ⟨code, options, .begun⟩ .quiet w
      ⟨code, options, .working (work factory w.tree table code options)⟩
  | missed {w : World} {code : Text} {options : Settings.Options} {path : Text}
    (asks : configOf? w.tree options = some path) (absent : w.cache.get? path = none) :
    Advance factory w ⟨code, options, .begun⟩ (.missed path) w ⟨code, options, .missed path⟩
  | loaded {w : World} {code : Text} {options : Settings.Options} {path : Text} :
    Advance factory w ⟨code, options, .missed path⟩ (.loaded path) (w.consulted path)
      ⟨code, options, .loaded path (.loaded w.tree path)⟩
  | stored {w : World} {code : Text} {options : Settings.Options} {path : Text} {table : AliasTable} :
    Advance factory w ⟨code, options, .loaded path table⟩ .quiet (w.stored path table)
      ⟨code, options, .working
        (work factory w.tree ((w.cache.get? path).getD table) code options)⟩
  | worked {w : World} {code : Text} {options : Settings.Options} {effect : Effect}
    {effects : List Effect} {result : Except OrganizeError Text} :
    Advance factory w ⟨code, options, .working ⟨effect :: effects, result⟩⟩ .quiet (w.performed effect)
      ⟨code, options, .working ⟨effects, result⟩⟩

/-- A batch in progress, its calls advancing in any order: the paths that were loaded so far, and those
that were missed while another call was loading them. -/
inductive Schedule (factory : ServiceFactory) (w₀ : World) (batch : List (Text × Settings.Options)) :
    List Text → List Text → World → List Call → Prop
  | start : Schedule factory w₀ batch [] [] w₀ (batch.map Call.begin)
  | step {loads raced : List Text} {w w' : World} {before after : List Call} {call call' : Call}
    {event : Event} (h : Schedule factory w₀ batch loads raced w (before ++ call :: after))
    (advance : Advance factory w call event w' call') :
    Schedule factory w₀ batch (loads ++ event.loads) (raced ++ event.raced (before ++ after)) w'
      (before ++ call' :: after)

/-! What a batch stores. -/

theorem aliasesAt_fst_of_absent (h : w.cache.get? path = none) :
    tableFor w (some path) = .loaded w.tree path := by
  rw [tableFor, aliasesAt_of_absent h]

theorem aliasesAt_fst_of_loaded {table : AliasTable} (h : w.cache.get? path = some table) :
    tableFor w (some path) = table := by
  rw [tableFor, aliasesAt_of_loaded h]

theorem performed_quiet (w : World) (effect : Effect) : w.Quiet (w.performed effect) := by
  cases effect with
  | note message => exact quiet_logged w message
  | call call => exact quiet_called w call

theorem get?_stored (w : World) (path : Text) (table : AliasTable) :
    (w.stored path table).cache.get? path = some ((w.cache.get? path).getD table) := by
  rw [World.stored]
  cases h : w.cache.get? path with
  | some _ => exact h
  | none => exact AliasCache.get?_insert _ _ _

theorem get?_stored_of_ne {other : Text} (table : AliasTable) (h : other ≠ path) :
    (w.stored path table).cache.get? other = w.cache.get? other := by
  rw [World.stored]
  cases w.cache.get? path with
  | some _ => rfl
  | none => exact AliasCache.get?_insert_of_ne _ h

theorem Advance.get?_of_some {call call' : Call} {event : Event} {table : AliasTable}
    (h : Advance factory w call event w' call') (there : w.cache.get? path = some table) :
    w'.cache.get? path = some table := by
  cases h with
  | skipped | found | missed | loaded => exact there
  | worked => rw [(performed_quiet w _).cache, there]
  | @stored _ _ other _ =>
      by_cases same : path = other
      · subst same
        rw [get?_stored, there]
        rfl
      · rw [get?_stored_of_ne _ same, there]

theorem Advance.tree {call call' : Call} {event : Event} (h : Advance factory w call event w' call') :
    w'.tree = w.tree := by
  cases h with
  | skipped | found | missed | loaded => rfl
  | worked => exact (performed_quiet w _).tree
  | stored =>
      rw [World.stored]
      split <;> rfl

theorem Advance.file {call call' : Call} {event : Event} (h : Advance factory w call event w' call') :
    call'.file = call.file := by
  cases h <;> rfl

/-- What is known of a call of a batch: what it asks for, and that it works with the table that it would
have got alone. -/
inductive Call.Sound (factory : ServiceFactory) (w₀ w : World) : Call → Prop
  | begun {code : Text} {options : Settings.Options} : Sound factory w₀ w ⟨code, options, .begun⟩
  | missed {code : Text} {options : Settings.Options} {path : Text}
    (asks : configOf? w₀.tree options = some path) : Sound factory w₀ w ⟨code, options, .missed path⟩
  | loaded {code : Text} {options : Settings.Options} {path : Text}
    (asks : configOf? w₀.tree options = some path) :
    Sound factory w₀ w ⟨code, options, .loaded path (.loaded w₀.tree path)⟩
  | working {code : Text} {options : Settings.Options} {rest : Work}
    (result : rest.result =
      (work factory w₀.tree (tableFor w₀ (configOf? w₀.tree options)) code options).result)
    (there : ∀ path, configOf? w₀.tree options = some path → w.cache.get? path ≠ none) :
    Sound factory w₀ w ⟨code, options, .working rest⟩

/-- A batch in progress keeps the files and what was stored. It stores what its calls ask for. -/
structure Tabled (factory : ServiceFactory) (w₀ : World) (batch : List (Text × Settings.Options))
    (w : World) (calls : List Call) : Prop where
  tree : w.tree = w₀.tree
  files : calls.map Call.file = batch
  kept : ∀ path table, w₀.cache.get? path = some table → w.cache.get? path = some table
  stored : ∀ path table, w.cache.get? path = some table → table = tableFor w₀ (some path) ∧
    (w₀.cache.get? path = none → ∃ file ∈ batch, configOf? w₀.tree file.2 = some path)
  keys : (w₀.cache.map Prod.fst).Nodup → (w.cache.map Prod.fst).Nodup
  sound : ∀ call ∈ calls, call.Sound factory w₀ w

theorem not_mem_keys (h : w.cache.get? path = none) : path ∉ w.cache.map Prod.fst := by
  rw [AliasCache.get?, List.lookup_eq_none_iff] at h
  intro mem
  obtain ⟨entry, hentry, rfl⟩ := List.mem_map.1 mem
  exact absurd (h entry hentry) (by simp)

theorem nodup_stored (h : (w.cache.map Prod.fst).Nodup) (path : Text) (table : AliasTable) :
    ((w.stored path table).cache.map Prod.fst).Nodup := by
  rw [World.stored]
  cases absent : w.cache.get? path with
  | some _ => exact h
  | none => exact List.nodup_cons.2 ⟨not_mem_keys absent, h⟩

theorem Call.Sound.grown {call : Call} (h : call.Sound factory w₀ w)
    (grows : ∀ path table, w.cache.get? path = some table → w'.cache.get? path = some table) :
    call.Sound factory w₀ w' := by
  cases h with
  | begun => exact .begun
  | missed asks => exact .missed asks
  | loaded asks => exact .loaded asks
  | working result there =>
      refine .working result fun path asks absent => ?_
      obtain ⟨table, found⟩ := Option.ne_none_iff_exists'.1 (there path asks)
      rw [grows path table found] at absent
      cases absent

theorem Tabled.getD_eq {calls : List Call} (h : Tabled factory w₀ batch w calls) (path : Text) :
    (w.cache.get? path).getD (.loaded w₀.tree path) = tableFor w₀ (some path) := by
  cases found : w.cache.get? path with
  | some table => exact (h.stored path table found).1
  | none =>
      refine (aliasesAt_fst_of_absent ?_).symm
      rw [Option.eq_none_iff_forall_ne_some]
      intro table old
      rw [h.kept path table old] at found
      cases found

theorem Tabled.start (factory : ServiceFactory) (w₀ : World) (batch : List (Text × Settings.Options)) :
    Tabled factory w₀ batch w₀ (batch.map Call.begin) where
  tree := rfl
  files := by simp [Function.comp_def, Call.begin, Call.file]
  kept _ _ h := h
  stored path table h := by
    refine ⟨(aliasesAt_fst_of_loaded h).symm, fun absent => ?_⟩
    rw [absent] at h
    cases h
  keys h := h
  sound := List.forall_mem_map.2 fun _ _ => .begun

theorem Tabled.sound_advance {call call' : Call} {event : Event} {calls : List Call}
    (h : Tabled factory w₀ batch w calls) (sound : call.Sound factory w₀ w)
    (advance : Advance factory w call event w' call') : call'.Sound factory w₀ w' := by
  cases advance with
  | skipped none =>
      rw [h.tree] at none ⊢
      refine .working (by rw [none]; rfl) fun path asks => ?_
      rw [none] at asks
      cases asks
  | found asks there =>
      rw [h.tree] at asks ⊢
      obtain ⟨rfl, -⟩ := h.stored _ _ there
      refine .working (by rw [asks]) fun path asks' => ?_
      obtain rfl := Option.some.inj (asks.symm.trans asks')
      rw [there]
      simp
  | missed asks absent =>
      rw [h.tree] at asks
      exact .missed asks
  | loaded =>
      cases sound with
      | missed asks =>
          rw [h.tree]
          exact .loaded asks
  | stored =>
      cases sound with
      | loaded asks =>
          rw [h.getD_eq, h.tree]
          refine .working (by rw [asks]) fun path asks' => ?_
          obtain rfl := Option.some.inj (asks.symm.trans asks')
          rw [get?_stored]
          simp
  | worked =>
      cases sound with
      | working result there => exact .working result (by rwa [(performed_quiet w _).cache])

theorem Tabled.stored_advance {before after : List Call} {call call' : Call} {event : Event}
    (h : Tabled factory w₀ batch w (before ++ call :: after))
    (advance : Advance factory w call event w' call') (path : Text) (table : AliasTable)
    (found : w'.cache.get? path = some table) : table = tableFor w₀ (some path) ∧
      (w₀.cache.get? path = none → ∃ file ∈ batch, configOf? w₀.tree file.2 = some path) := by
  cases there : w.cache.get? path with
  | some old =>
      obtain rfl := Option.some.inj ((advance.get?_of_some there).symm.trans found)
      exact h.stored path old there
  | none =>
      cases advance with
      | skipped | found | missed | loaded => cases there.symm.trans found
      | worked =>
          rw [(performed_quiet w _).cache, there] at found
          cases found
      | @stored code options other table' =>
          by_cases same : path = other
          · subst same
            cases h.sound ⟨code, options, .loaded path table'⟩ (by simp) with
            | loaded asks =>
                have file : (code, options) ∈ batch := by
                  rw [← h.files]
                  exact List.mem_map.2 ⟨_, List.mem_append_right _ (List.mem_cons_self ..), rfl⟩
                rw [get?_stored, h.getD_eq, Option.some.injEq] at found
                exact ⟨found.symm, fun _ => ⟨_, file, asks⟩⟩
          · rw [get?_stored_of_ne _ same, there] at found
            cases found

theorem Tabled.step {before after : List Call} {call call' : Call} {event : Event}
    (h : Tabled factory w₀ batch w (before ++ call :: after))
    (advance : Advance factory w call event w' call') :
    Tabled factory w₀ batch w' (before ++ call' :: after) := by
  have grows : ∀ path table, w.cache.get? path = some table → w'.cache.get? path = some table :=
    fun path table => advance.get?_of_some
  refine {
    tree := advance.tree.trans h.tree
    files := ?files
    kept := fun path table old => grows path table (h.kept path table old)
    stored := h.stored_advance advance
    keys := fun nodup => ?keys
    sound := fun other hother => ?sound }
  case files =>
    rw [← h.files, List.map_append, List.map_append, List.map_cons, List.map_cons, advance.file]
  case keys =>
    cases advance with
    | skipped | found | missed | loaded => exact h.keys nodup
    | worked =>
        rw [(performed_quiet w _).cache]
        exact h.keys nodup
    | stored => exact nodup_stored (h.keys nodup) _ _
  case sound =>
    rcases List.mem_append.1 hother with mem | mem
    · exact (h.sound other (by simp [mem])).grown grows
    · rcases List.mem_cons.1 mem with rfl | mem
      · exact h.sound_advance (h.sound call (by simp)) advance
      · exact (h.sound other (by simp [mem])).grown grows

theorem Schedule.tabled {loads raced : List Text} {calls : List Call}
    (h : Schedule factory w₀ batch loads raced w calls) : Tabled factory w₀ batch w calls := by
  induction h with
  | start => exact .start factory w₀ batch
  | step _ advance ih => exact ih.step advance

/-! What a batch yields. -/

theorem result?_eq_some {call : Call} {result : Except OrganizeError Text}
    (h : call.result? = some result) : call = .finished call.file result := by
  obtain ⟨code, options, phase⟩ := call
  cases phase with
  | working rest =>
      obtain ⟨effects, result'⟩ := rest
      cases effects with
      | nil =>
          cases h
          rfl
      | cons effect effects => cases h
  | begun | missed | loaded => cases h

def aloneResult (factory : ServiceFactory) (w : World) (file : Text × Settings.Options) :
    Except OrganizeError Text :=
  (work factory w.tree (tableFor w (configOf? w.tree file.2)) file.1 file.2).result

theorem Schedule.result?_eq {loads raced : List Text} {calls : List Call}
    (h : Schedule factory w₀ batch loads raced w calls) (finished : Finished calls) :
    calls.map Call.result? = batch.map fun file => some (aloneResult factory w₀ file) := by
  rw [← h.tabled.files, List.map_map]
  refine List.map_congr_left fun call hcall => ?_
  obtain ⟨result, hresult⟩ := Option.isSome_iff_exists.1 (finished call hcall)
  have sound := h.tabled.sound call hcall
  rw [result?_eq_some hresult] at sound
  cases sound with
  | working eq => rw [hresult, Function.comp_apply, aloneResult, ← eq]

/-! A batch from left to right, as on one thread. -/

section LeftToRight

variable {loads raced : List Text} {before after : List Call}

theorem Schedule.quiet {call call' : Call}
    (h : Schedule factory w₀ batch loads raced w (before ++ call :: after))
    (advance : Advance factory w call .quiet w' call') :
    Schedule factory w₀ batch loads raced w' (before ++ call' :: after) := by
  simpa [Event.loads, Event.raced] using h.step advance

theorem Schedule.works {code : Text} {options : Settings.Options} {rest : Work}
    (h : Schedule factory w₀ batch loads raced w (before ++ ⟨code, options, .working rest⟩ :: after)) :
    Schedule factory w₀ batch loads raced (rest.effects.foldl World.performed w)
      (before ++ .finished (code, options) rest.result :: after) := by
  obtain ⟨effects, result⟩ := rest
  induction effects generalizing w with
  | nil => exact h
  | cons effect effects ih => exact ih (h.quiet .worked)

theorem Schedule.runs {file : Text × Settings.Options}
    (h : Schedule factory w₀ batch loads [] w (before ++ .begin file :: after))
    (idle : ∀ call ∈ before ++ after, ∀ path, call.isLoading path = false) :
    ∃ more, Schedule factory w₀ batch more [] (organize factory w file.1 file.2).2
      (before ++ .finished file (organize factory w file.1 file.2).1 :: after) := by
  rw [organize_eq_work]
  cases asks : configOf? w.tree file.2 with
  | none => exact ⟨loads, (h.quiet (.skipped asks)).works⟩
  | some path =>
      rw [World.asked]
      cases found : w.cache.get? path with
      | some table =>
          rw [aliasesAt_fst_of_loaded found, aliasesAt_of_loaded found]
          exact ⟨loads, (h.quiet (.found asks found)).works⟩
      | none =>
          rw [aliasesAt_fst_of_absent found, aliasesAt_of_absent found]
          have others : (before ++ after).any (Call.isLoading path) = false := by
            rw [List.any_eq_false]
            exact fun call hcall => by simp [idle call hcall path]
          have missed := h.step (.missed asks found)
          simp only [Event.loads, Event.raced, others, Bool.false_eq_true, if_false,
            List.append_nil] at missed
          have loaded := missed.step .loaded
          simp only [Event.loads, Event.raced, List.append_nil] at loaded
          have stored := loaded.quiet .stored
          have absent : (w.consulted path).cache.get? path = none := found
          rw [World.stored, absent] at stored
          exact ⟨loads ++ [path], stored.works⟩

theorem Schedule.runsAll {files : List (Text × Settings.Options)}
    (h : Schedule factory w₀ batch loads [] w (before ++ files.map Call.begin))
    (finished : Finished before) :
    ∃ more calls, Schedule factory w₀ batch more [] (organizeAll factory w files).2 calls ∧
      Finished calls ∧ calls.map Call.result? =
        before.map Call.result? ++ (organizeAll factory w files).1.map some := by
  induction files generalizing loads w before with
  | nil =>
      rw [List.map_nil, List.append_nil] at h
      exact ⟨loads, before, h, finished, by simp [organizeAll]⟩
  | cons file files ih =>
      have idle : ∀ call ∈ before ++ files.map Call.begin, ∀ path, call.isLoading path = false := by
        intro call hcall path
        rcases List.mem_append.1 hcall with mem | mem
        · obtain ⟨result, hresult⟩ := Option.isSome_iff_exists.1 (finished call mem)
          rw [result?_eq_some hresult]
          rfl
        · obtain ⟨file, -, rfl⟩ := List.mem_map.1 mem
          rfl
      obtain ⟨more, ran⟩ := h.runs idle
      rw [List.append_cons] at ran
      have done : Finished (before ++ [.finished file (organize factory w file.1 file.2).1]) := by
        rw [Finished, List.forall_mem_append]
        exact ⟨finished, by simp [Call.finished, Call.result?]⟩
      obtain ⟨more, calls, all, finished, results⟩ := ih ran done
      refine ⟨more, calls, all, finished, ?_⟩
      rw [results, List.map_append, List.append_assoc]
      rfl

end LeftToRight

theorem schedule_organizeAll (factory : ServiceFactory) (w : World)
    (batch : List (Text × Settings.Options)) :
    ∃ loads calls, Schedule factory w batch loads [] (organizeAll factory w batch).2 calls ∧
      Finished calls ∧ calls.map Call.result? = (organizeAll factory w batch).1.map some := by
  have begun : Schedule factory w batch [] [] w ([] ++ batch.map Call.begin) := .start
  exact begun.runsAll (by simp [Finished])

/-- A batch yields the same in whatever order its calls advance. -/
theorem Schedule.results_eq {loads raced : List Text} {calls : List Call}
    (h : Schedule factory w₀ batch loads raced w calls) (finished : Finished calls) :
    calls.map Call.result? = (organizeAll factory w₀ batch).1.map some := by
  obtain ⟨_, _, alone, done, results⟩ := schedule_organizeAll factory w₀ batch
  rw [← results, h.result?_eq finished, alone.result?_eq done]

end TidyImports.Organizer
