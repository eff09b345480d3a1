import TidyImports.Organizer.Pipeline

/-! What a run leaves of its world, and what it takes from it. Files are only read, and aliases are only
added for the path that the options name; whoever asks for them again gets what the first one got, at
no further cost. The outcome of a run depends on the files and on those aliases alone. -/
namespace TidyImports.Organizer

variable {w w' : World} {fileName text : Text}

/-- One world has the files and the loaded aliases of another. -/
structure World.SameFiles (w w' : World) : Prop where
  tree : w'.tree = w.tree
  cache : w'.cache = w.cache

/-- One world is reached from another without a look at a file and without a warning. -/
structure World.Quiet (w w' : World) : Prop extends w.SameFiles w' where
  reads : w'.reads = w.reads
  sink : w'.log.sink = w.log.sink
  warnings : w'.log.messages .warn = w.log.messages .warn

theorem World.Quiet.refl (w : World) : w.Quiet w := ⟨⟨rfl, rfl⟩, rfl, rfl, rfl⟩

theorem World.Quiet.trans {w'' : World} (h : w.Quiet w') (k : w'.Quiet w'') : w.Quiet w'' where
  tree := k.tree.trans h.tree
  cache := k.cache.trans h.cache
  reads := k.reads.trans h.reads
  sink := k.sink.trans h.sink
  warnings := k.warnings.trans h.warnings

theorem log_add_sink (log : Log) (level : LogLevel) (message : String) :
    (log.add level message).sink = log.sink := by
  rw [Log.add.eq_def]
  split
  · split <;> rfl
  · rfl

theorem messages_add_of_ne {log : Log} {level other : LogLevel} (message : String)
    (h : level ≠ other) : (log.add level message).messages other = log.messages other := by
  rw [Log.add.eq_def]
  split
  · split
    · simp [Log.messages, h]
    · rfl
  · rfl

theorem quiet_logged (w : World) (message : String) : w.Quiet (w.logged .debug message) where
  tree := rfl
  cache := rfl
  reads := rfl
  sink := log_add_sink w.log .debug message
  warnings := messages_add_of_ne message (by decide)

theorem quiet_called (w : World) (call : ServiceCall) : w.Quiet (w.called call) :=
  ⟨⟨rfl, rfl⟩, rfl, rfl, rfl⟩

theorem quiet_noted (w : World) (notes : List String) : w.Quiet (w.noted notes) := by
  rw [World.noted]
  induction notes generalizing w with
  | nil => exact .refl w
  | cons note notes ih => exact (quiet_logged w note).trans (ih _)

theorem quiet_applyRecords (w : World) (fileName text : Text) (records : List FileChanges) :
    w.Quiet (applyRecords w fileName text records).2 := by
  rw [applyRecords.eq_def]
  split
  · exact .refl w
  · exact quiet_logged w _

theorem quiet_organizeText (factory : ServiceFactory) (w : World) (fileName text : Text)
    (options : Settings.Options) :
    w.Quiet (organizeText factory w fileName text options).2 := by
  have created := quiet_called w (.create options.parser fileName text)
  have asked := created.trans (quiet_called _
    (.organize ⟨fileName, options.keepUnused, options.typeOrder⟩))
  simp only [organizeText]
  split
  · exact created
  · split
    · exact asked
    · exact asked.trans (quiet_applyRecords _ fileName text _)

theorem aliasesAt_tree (w : World) (path : Text) : (aliasesAt w path).2.tree = w.tree := by
  rw [aliasesAt]
  split
  · rfl
  · rw [loadAliases]
    split <;> rfl

theorem get?_aliasesAt (w : World) (path : Text) :
    (aliasesAt w path).2.cache.get? path = some (aliasesAt w path).1 := by
  rw [aliasesAt]
  split
  · next table htable => exact htable
  · rw [loadAliases]
    split <;> exact Config.AliasCache.get?_insert _ _ _

theorem optionAliases_tree (w : World) (options : Settings.SpecifierOptions) :
    (optionAliases w options).2.tree = w.tree := by
  rw [optionAliases]
  split
  · exact aliasesAt_tree w _
  · rfl

theorem optionAliases_again (w : World) (options : Settings.SpecifierOptions)
    (h : (optionAliases w options).2.SameFiles w') :
    optionAliases w' options = ((optionAliases w options).1, w') := by
  have tree := h.tree.trans (optionAliases_tree w options)
  have cache := h.cache
  rw [optionAliases] at cache ⊢
  cases hpath : options.tsconfigPath with
  | none => rw [optionAliases, hpath]
  | some path =>
      simp only [hpath] at cache
      simp only [optionAliases, hpath, tree]
      have there := get?_aliasesAt w (w.tree.resolve path)
      rw [← cache] at there
      rw [aliasesAt, there]

/-- The configuration whose aliases a run asks for, by its absolute path. A block of a component file
and a document of unknown kind ask for none. -/
def configOf? (tree : FileTree) (options : Settings.Options) : Option Text :=
  if options.isEmbedded then none
  else
    match Document.Kind.resolve? options.parser
      (Path.normalizeSeparators options.effectivePath) with
    | none => none
    | some _ => options.specifiers.tsconfigPath.map tree.resolve

def World.asked (w : World) : Option Text → World
  | none => w
  | some path => (aliasesAt w path).2

theorem optionAliases_snd (w : World) (options : Settings.SpecifierOptions) :
    (optionAliases w options).2 = w.asked (options.tsconfigPath.map w.tree.resolve) := by
  rw [optionAliases]
  cases options.tsconfigPath <;> rfl

theorem quiet_replaceSpecifiers (w : World) (fileName text : Text) (options : Settings.Options)
    {kind : Document.Kind} (hkind : Document.Kind.resolve? options.parser fileName = some kind) :
    (optionAliases w options.specifiers).2.Quiet (replaceSpecifiers w fileName text options).2 := by
  simp only [replaceSpecifiers, hkind]
  split <;> exact quiet_noted _ _

theorem quiet_organize_of_enabled (factory : ServiceFactory) (w : World) (code : Text)
    (options : Settings.Options) {kind : Document.Kind}
    (hkind : Document.Kind.resolve? options.parser
      (Path.normalizeSeparators options.effectivePath) = some kind)
    (halone : options.isEmbedded = false) (henabled : options.specifiers.isEnabled = true) :
    (optionAliases w options.specifiers).2.Quiet (organize factory w code options).2 := by
  have replaced := quiet_replaceSpecifiers w (Path.normalizeSeparators options.effectivePath) code
    options hkind
  simp only [organize, halone, henabled, Bool.false_eq_true, if_false, if_true]
  split
  · next hreplace =>
    rw [hreplace] at replaced
    exact replaced
  · next hreplace =>
    rw [hreplace] at replaced
    exact replaced.trans (quiet_organizeText factory _ _ _ options)

theorem sameFiles_organize (factory : ServiceFactory) (w : World) (code : Text)
    (options : Settings.Options) {kind : Document.Kind}
    (hkind : Document.Kind.resolve? options.parser
      (Path.normalizeSeparators options.effectivePath) = some kind)
    (halone : options.isEmbedded = false) (henabled : options.specifiers.isEnabled = true) :
    (optionAliases w options.specifiers).2.SameFiles (organize factory w code options).2 :=
  (quiet_organize_of_enabled factory w code options hkind halone henabled).toSameFiles

theorem tsconfigPath_of_not_enabled {options : Settings.SpecifierOptions}
    (h : options.isEnabled = false) : options.tsconfigPath = none := by
  simp only [Settings.SpecifierOptions.isEnabled, Bool.or_eq_false_iff,
    Option.isSome_eq_false_iff, Option.isNone_iff_eq_none] at h
  exact h.1.2

/-- A run looks at files, warns and adds aliases only by asking for those of its configuration. -/
theorem quiet_organize (factory : ServiceFactory) (w : World) (code : Text)
    (options : Settings.Options) :
    (w.asked (configOf? w.tree options)).Quiet (organize factory w code options).2 := by
  rw [configOf?]
  cases halone : options.isEmbedded with
  | true =>
      rw [organize, if_pos halone]
      exact quiet_logged w _
  | false =>
      simp only [Bool.false_eq_true, if_false]
      cases hkind : Document.Kind.resolve? options.parser
          (Path.normalizeSeparators options.effectivePath) with
      | some kind =>
          cases henabled : options.specifiers.isEnabled with
          | true =>
              rw [← optionAliases_snd]
              exact quiet_organize_of_enabled factory w code options hkind halone henabled
          | false =>
              rw [tsconfigPath_of_not_enabled henabled, organize, if_neg (by simp [halone]),
                if_neg (by simp [henabled])]
              exact quiet_organizeText factory w _ code options
      | none =>
          cases henabled : options.specifiers.isEnabled with
          | true =>
              simp only [organize, halone, henabled, Bool.false_eq_true, if_false, if_true,
                replaceSpecifiers, hkind]
              exact .refl w
          | false =>
              rw [organize, if_neg (by simp [halone]), if_neg (by simp [henabled])]
              exact quiet_organizeText factory w _ code options

theorem asked_tree (w : World) (config : Option Text) : (w.asked config).tree = w.tree := by
  cases config with
  | none => rfl
  | some path => exact aliasesAt_tree w path

theorem organize_tree (factory : ServiceFactory) (w : World) (code : Text)
    (options : Settings.Options) : (organize factory w code options).2.tree = w.tree :=
  (quiet_organize factory w code options).tree.trans (asked_tree w _)

theorem organizeAll_tree (factory : ServiceFactory) (w : World)
    (batch : List (Text × Settings.Options)) : (organizeAll factory w batch).2.tree = w.tree := by
  induction batch generalizing w with
  | nil => rfl
  | cons file batch ih => exact (ih _).trans (organize_tree factory w file.1 file.2)

end TidyImports.Organizer
