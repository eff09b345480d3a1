import Mathlib.Data.List.TakeWhile
import TidyImports.Settings.Host

/-! Two ways to hand over options. A host that gives them field by field gets what it would get for a JSON
object of the same fields, in whatever order they stand there and whatever else the object holds. -/
namespace TidyImports.Settings

variable {entries : List (String × Option Json)} {names : List String}
  {fields others : List (Option Text × Json)} {h : HostOptions}

def present (entries : List (String × Option Json)) : List (Option Text × Json) :=
  entries.filterMap fun entry => entry.2.map fun value => (some entry.1.toList, value)

def jsonText (t : Text) : Json := .string (some t)

def jsonNumber (n : Nat) : Json := .number (Nat.toDigits 10 n)

def HostOptions.byName (h : HostOptions) : List (String × Option Json) :=
  [("filepath", h.filepath.map jsonText),
    ("parser", h.parser.map jsonText),
    ("parentParser", h.parentParser.map jsonText),
    ("organizeImportsSkipDestructiveCodeActions", h.keepUnused.map .bool),
    ("organizeImportsTypeOrder", h.typeOrder.map jsonText),
    ("absolutePathPrefix", h.absolutePathPrefix.map jsonText),
    ("maxRelativePathDepth", h.maxRelativePathDepth.map jsonNumber),
    ("tsconfigPath", h.tsconfigPath.map jsonText),
    ("frameworkResolutionMode", h.frameworkMode.map jsonText),
    ("nextjsMode", h.nextJsMode.map .bool),
    ("projectRoot", h.projectRoot.map jsonText)]

/-- The fields of an object are the options of a host in some order, mixed with well formed fields of other
names. -/
structure HoldsAmong (h : HostOptions) (others fields : List (Option Text × Json)) : Prop where
  perm : fields.Perm (present h.byName ++ others)
  unknown : ∀ field ∈ others, ∀ entry ∈ h.byName, field.1 ≠ some entry.1.toList
  wellFormed : isWellFormed (.object others) = true

/-! Well formed objects -/

theorem everywhereInFields_iff (p : Json → Bool) : Json.everywhereInFields p fields = true ↔
    ∀ field ∈ fields, p (.string field.1) = true ∧ field.2.everywhere p = true := by
  induction fields with
  | nil => simp [Json.everywhereInFields]
  | cons field fields ih => simp [Json.everywhereInFields, ih, and_assoc]

theorem depthOfFields_lt_iff {bound : Nat} (hbound : 0 < bound) :
    Json.depthOfFields fields < bound ↔ ∀ field ∈ fields, field.2.depth < bound := by
  induction fields with
  | nil => simpa [Json.depthOfFields] using hbound
  | cons field fields ih =>
      rw [List.forall_mem_cons, ← ih, Json.depthOfFields]
      exact Nat.max_lt

theorem isWellFormed_object_iff : isWellFormed (.object fields) = true ↔
    ∀ field ∈ fields, isPlain (.string field.1) = true ∧ field.2.everywhere isPlain = true ∧
      field.2.depth + 1 < maxNesting := by
  have depth : Json.depthOfFields fields + 1 < maxNesting ↔
      ∀ field ∈ fields, field.2.depth + 1 < maxNesting := by
    have bound : 0 < maxNesting - 1 := by decide
    simpa only [Nat.lt_sub_iff_add_lt] using depthOfFields_lt_iff bound
  rw [isWellFormed, Bool.and_eq_true, decide_eq_true_iff, Json.everywhere, Json.depth, depth,
    Bool.and_eq_true, everywhereInFields_iff]
  simp [isPlain, forall_and, and_assoc]

theorem digitsValue_toDigits (n : Nat) : Json.digitsValue (Nat.toDigits 10 n) = n := by
  have value := Nat.ofDigitChars_toDigits (b := 10) (n := n) (by decide) (by decide)
  simpa only [Nat.ofDigitChars, Json.digitsValue, Nat.mul_comm 10] using value

theorem wordValue?_toDigits {n : Nat} (hn : n < Nat.pow 2 64) :
    Json.wordValue? (Nat.toDigits 10 n) = some n := by
  have digits : (Nat.toDigits 10 n).all Char.isDigit = true :=
    List.all_eq_true.2 fun c hc => Nat.isDigit_of_mem_toDigits (by decide) (by decide) hc
  have some : (Nat.toDigits 10 n).isEmpty = false := by simp [Nat.toDigits_ne_nil]
  simp only [Json.wordValue?, digits, some, digitsValue_toDigits, Bool.not_false, Bool.and_self, if_true]
  exact if_pos hn

theorem isFiniteDouble_of_digits {t : Text} (h : ∀ c ∈ t, c.isDigit = true)
    (hlt : Json.digitsValue t < Json.doubleLimit) : Json.isFiniteDouble t = true := by
  have ne : ∀ c ∈ t, c ≠ '-' ∧ c ≠ 'e' ∧ c ≠ 'E' ∧ c ≠ '.' := by
    intro c hc
    have digit := h c hc
    refine ⟨?_, ?_, ?_, ?_⟩ <;> rintro rfl <;> exact absurd digit (by decide)
  have unsigned : t.dropWhile (· == '-') = t := by
    cases t with
    | nil => rfl
    | cons c t => exact List.dropWhile_cons_of_neg (by simpa using (ne c List.mem_cons_self).1)
  have mantissa : ∀ c ∈ t, (c != 'e' && c != 'E') = true := fun c hc => by simp [ne c hc]
  have whole : ∀ c ∈ t, (c != '.') = true := fun c hc => by simp [ne c hc]
  simp only [Json.isFiniteDouble, unsigned, List.takeWhile_eq_self_iff.2 mantissa,
    List.dropWhile_eq_nil_iff.2 mantissa, List.takeWhile_eq_self_iff.2 whole,
    List.dropWhile_eq_nil_iff.2 whole, List.drop_nil, List.append_nil, List.filter_nil,
    show Json.digitsValue [] = 0 from rfl]
  simp [hlt]

theorem isPlain_jsonNumber {n : Nat} (hn : n < Nat.pow 2 64) : isPlain (jsonNumber n) = true := by
  refine isFiniteDouble_of_digits
    (fun c hc => Nat.isDigit_of_mem_toDigits (by decide) (by decide) hc) ?_
  rw [digitsValue_toDigits]
  exact Nat.lt_of_lt_of_le hn (by decide +kernel)

/-! Fields by name -/

theorem filter_present : (present entries).filter
      (fun field => names.any fun name => field.1 == some name.toList) =
    present (entries.filter fun entry => names.contains entry.1) := by
  have named (entry : String × Option Json) :
      (names.any fun name => some entry.1.toList == some name.toList) = names.contains entry.1 := by
    rw [Bool.eq_iff_iff, List.any_eq_true, List.contains_iff_mem]
    simp only [beq_iff_eq, Option.some.injEq, String.toList_inj]
    exact ⟨fun ⟨name, hname, heq⟩ => heq ▸ hname, fun hentry => ⟨entry.1, hentry, rfl⟩⟩
  rw [present, List.filter_filterMap, present, List.filterMap_filter]
  congr 1
  funext entry
  cases entry.2 with
  | none => simp
  | some value => simp only [Option.map_some, Option.filter_some, named]

theorem HoldsAmong.readField {α : Type} (holds : HoldsAmong h others fields) {name : String}
    {value : Option Json} (known : ∀ name ∈ names, name ∈ h.byName.map Prod.fst)
    (found : present (h.byName.filter fun entry => names.contains entry.1) = present [(name, value)])
    (fallback : α) (read : Json → Except Unit α) :
    readField fields names fallback read = (value.map read).getD (.ok fallback) := by
  have foreign : others.filter (fun field => names.any fun name => field.1 == some name.toList) = [] := by
    refine List.filter_eq_nil_iff.2 fun field hfield hnamed => ?_
    obtain ⟨name, hname, heq⟩ := List.any_eq_true.1 hnamed
    obtain ⟨entry, hentry, rfl⟩ := List.mem_map.1 (known name hname)
    exact holds.unknown field hfield entry hentry (beq_iff_eq.1 heq)
  have own := holds.perm.filter fun field => names.any fun name => field.1 == some name.toList
  rw [List.filter_append, filter_present, found, foreign, List.append_nil] at own
  rw [Settings.readField, uniqueField]
  cases value with
  | none =>
      rw [own.eq_nil]
      rfl
  | some value =>
      rw [List.perm_singleton.1 own]
      rfl

theorem HoldsAmong.readText (holds : HoldsAmong h others fields) {name : String} {value : Option Text}
    (found : h.byName.filter (fun entry => [name].contains entry.1) = [(name, value.map jsonText)]) :
    Settings.readField fields [name] none readOptionalText = .ok value := by
  have member : (name, value.map jsonText) ∈ h.byName :=
    (List.mem_filter.1 (found.symm ▸ List.mem_singleton_self (name, value.map jsonText))).1
  have known : ∀ other ∈ [name], other ∈ h.byName.map Prod.fst := by
    rintro other hother
    rw [List.mem_singleton.1 hother]
    exact List.mem_map_of_mem member
  rw [holds.readField known (congrArg present found)]
  cases value <;> rfl

theorem HoldsAmong.readKeepUnused (holds : HoldsAmong h others fields) :
    Settings.readField fields ["organizeImportsSkipDestructiveCodeActions"] false readBool =
      .ok (h.keepUnused.getD false) := by
  rw [holds.readField (by simp [HostOptions.byName]) (congrArg present rfl)]
  cases h.keepUnused <;> rfl

theorem HoldsAmong.readDepth (holds : HoldsAmong h others fields)
    (fits : ∀ depth ∈ h.maxRelativePathDepth, depth < Nat.pow 2 64) :
    Settings.readField fields ["maxRelativePathDepth"] none readOptionalDepth =
      .ok h.maxRelativePathDepth := by
  rw [holds.readField (by simp [HostOptions.byName]) (congrArg present rfl)]
  cases hdepth : h.maxRelativePathDepth with
  | none => rfl
  | some depth => simp [jsonNumber, readOptionalDepth, wordValue?_toDigits (fits depth hdepth)]

theorem HoldsAmong.readTypeOrder (holds : HoldsAmong h others fields) :
    Settings.readField fields ["organizeImportsTypeOrder"] .last Settings.readTypeOrder =
      h.chosenOrder.mapError fun _ => () := by
  rw [holds.readField (by simp [HostOptions.byName]) (congrArg present rfl), HostOptions.chosenOrder]
  cases h.typeOrder with
  | none => rfl
  | some name =>
      simp only [jsonText, Option.map_some, Option.getD_some, Settings.readTypeOrder, choiceName?,
        Option.bind_some, choose]
      cases typeOrder? name <;> rfl

theorem HoldsAmong.readFramework (holds : HoldsAmong h others fields)
    (once : h.frameworkMode = none ∨ h.nextJsMode = none) :
    Settings.readField fields ["frameworkResolutionMode", "nextjsMode"] none Settings.readFramework =
      h.chosenFramework.mapError fun _ => () := by
  have known : ∀ name ∈ ["frameworkResolutionMode", "nextjsMode"],
      name ∈ h.byName.map Prod.fst := by simp [HostOptions.byName]
  have both : h.byName.filter (fun entry =>
        ["frameworkResolutionMode", "nextjsMode"].contains entry.1) =
      [("frameworkResolutionMode", h.frameworkMode.map jsonText),
        ("nextjsMode", h.nextJsMode.map .bool)] := rfl
  rw [HostOptions.chosenFramework]
  cases hmode : h.frameworkMode with
  | none =>
      have found : present [("frameworkResolutionMode", h.frameworkMode.map jsonText),
            ("nextjsMode", h.nextJsMode.map .bool)] =
          present [("nextjsMode", h.nextJsMode.map .bool)] := by
        rw [hmode]
        rfl
      rw [holds.readField known ((congrArg present both).trans found)]
      rcases h.nextJsMode with _ | _ | _ <;> rfl
  | some name =>
      have found : present [("frameworkResolutionMode", h.frameworkMode.map jsonText),
            ("nextjsMode", h.nextJsMode.map .bool)] =
          present [("frameworkResolutionMode", some (jsonText name))] := by
        rw [once.resolve_left (by simp [hmode]), hmode]
        rfl
      rw [holds.readField known ((congrArg present both).trans found)]
      simp only [jsonText, Option.map_some, Option.getD_some, Settings.readFramework, choiceName?,
        Option.bind_some, choose]
      cases frameworkMode? name <;> rfl

theorem HoldsAmong.readOptions (holds : HoldsAmong h others fields)
    (once : h.frameworkMode = none ∨ h.nextJsMode = none)
    (fits : ∀ depth ∈ h.maxRelativePathDepth, depth < Nat.pow 2 64) :
    Settings.readOptions fields = h.toOptions.mapError fun _ => () := by
  rw [Settings.readOptions, holds.readText rfl, holds.readText rfl, holds.readText rfl,
    holds.readKeepUnused, holds.readTypeOrder, holds.readText rfl, holds.readDepth fits,
    holds.readText rfl, holds.readFramework once, holds.readText rfl, HostOptions.toOptions]
  cases h.chosenOrder with
  | error invalid => rfl
  | ok order => cases h.chosenFramework <;> rfl

theorem mem_present {field : Option Text × Json} (hfield : field ∈ present entries) :
    ∃ entry ∈ entries, ∃ value ∈ entry.2, field = (some entry.1.toList, value) := by
  obtain ⟨entry, hentry, heq⟩ := List.mem_filterMap.1 hfield
  obtain ⟨value, hvalue, rfl⟩ := Option.map_eq_some_iff.1 heq
  exact ⟨entry, hentry, value, hvalue, rfl⟩

theorem wellFormed_present (fits : ∀ depth ∈ h.maxRelativePathDepth, depth < Nat.pow 2 64) :
    isWellFormed (.object (present h.byName)) = true := by
  have shallow : 0 + 1 < maxNesting := by decide
  have text (value : Option Text) : ∀ json ∈ value.map jsonText,
      json.everywhere isPlain = true ∧ json.depth + 1 < maxNesting := by
    intro json hjson
    obtain ⟨t, -, rfl⟩ := Option.map_eq_some_iff.1 hjson
    exact ⟨rfl, shallow⟩
  have flag (value : Option Bool) : ∀ json ∈ value.map Json.bool,
      json.everywhere isPlain = true ∧ json.depth + 1 < maxNesting := by
    intro json hjson
    obtain ⟨b, -, rfl⟩ := Option.map_eq_some_iff.1 hjson
    exact ⟨rfl, shallow⟩
  have number : ∀ json ∈ h.maxRelativePathDepth.map jsonNumber,
      json.everywhere isPlain = true ∧ json.depth + 1 < maxNesting := by
    intro json hjson
    obtain ⟨depth, hdepth, rfl⟩ := Option.map_eq_some_iff.1 hjson
    exact ⟨isPlain_jsonNumber (fits depth hdepth), shallow⟩
  have values : ∀ entry ∈ h.byName, ∀ json ∈ entry.2,
      json.everywhere isPlain = true ∧ json.depth + 1 < maxNesting := by
    simp only [HostOptions.byName, List.forall_mem_cons]
    exact ⟨text _, text _, text _, flag _, text _, text _, number, text _, text _, flag _, text _,
      List.forall_mem_nil _⟩
  rw [isWellFormed_object_iff]
  intro field hfield
  obtain ⟨entry, hentry, json, hjson, rfl⟩ := mem_present hfield
  exact ⟨rfl, values entry hentry json hjson⟩

theorem HoldsAmong.isWellFormed (holds : HoldsAmong h others fields)
    (fits : ∀ depth ∈ h.maxRelativePathDepth, depth < Nat.pow 2 64) :
    Settings.isWellFormed (.object fields) = true := by
  have own := isWellFormed_object_iff.1 (wellFormed_present fits)
  have foreign := isWellFormed_object_iff.1 holds.wellFormed
  exact isWellFormed_object_iff.2 fun field hfield =>
    List.forall_mem_append.2 ⟨own, foreign⟩ field (holds.perm.mem_iff.1 hfield)

/-- Options that a host hands over field by field are accepted if and only if the object of these fields is,
and they are then the same. The host names the framework in one way at most, and its numbers are
machine words. -/
theorem ofJson?_eq_toOptions (once : h.frameworkMode = none ∨ h.nextJsMode = none)
    (fits : ∀ depth ∈ h.maxRelativePathDepth, depth < Nat.pow 2 64) (holds : HoldsAmong h others fields) :
    Options.ofJson? (.object fields) = h.toOptions.toOption := by
  rw [Options.ofJson?, if_pos (holds.isWellFormed fits), holds.readOptions once fits]
  cases h.toOptions <;> rfl

def sampleHost : HostOptions :=
  ⟨none, some "vue".toList, none, some true, some "first".toList, none, some 3, none, none, some false,
    none⟩

def sampleOthers : List (Option Text × Json) :=
  [(some "rewrite".toList, .object [(some "parser".toList, .null)]),
    (some "tabWidth".toList, .number "2.5e0".toList)]

def sampleFields : List (Option Text × Json) :=
  [(some "tabWidth".toList, .number "2.5e0".toList),
    (some "rewrite".toList, .object [(some "parser".toList, .null)]),
    (some "nextjsMode".toList, .bool false),
    (some "maxRelativePathDepth".toList, .number "3".toList),
    (some "organizeImportsTypeOrder".toList, .string (some "first".toList)),
    (some "organizeImportsSkipDestructiveCodeActions".toList, .bool true),
    (some "parser".toList, .string (some "vue".toList))]

theorem holdsAmong_sample : HoldsAmong sampleHost sampleOthers sampleFields where
  perm := List.reverse_perm (present sampleHost.byName ++ sampleOthers)
  unknown := by decide
  wellFormed := by decide +kernel

theorem ofJson?_eq_toOptions_sample :
    (sampleHost.frameworkMode = none ∨ sampleHost.nextJsMode = none) ∧
    (3 ∈ sampleHost.maxRelativePathDepth ∧
      ∀ depth ∈ sampleHost.maxRelativePathDepth, depth < Nat.pow 2 64) ∧
    HoldsAmong sampleHost sampleOthers sampleFields ∧
    Options.ofJson? (.object sampleFields) = sampleHost.toOptions.toOption ∧
    sampleHost.toOptions.toOption = some ⟨none, some "vue".toList, none, true, .first,
      ⟨none, some 3, none, some none, none⟩⟩ := by
  have once : sampleHost.frameworkMode = none ∨ sampleHost.nextJsMode = none := .inl rfl
  have fits : ∀ depth ∈ sampleHost.maxRelativePathDepth, depth < Nat.pow 2 64 := by
    rintro depth ⟨⟩
    decide
  exact ⟨once, ⟨rfl, fits⟩, holdsAmong_sample, ofJson?_eq_toOptions once fits holdsAmong_sample, rfl⟩

end TidyImports.Settings
