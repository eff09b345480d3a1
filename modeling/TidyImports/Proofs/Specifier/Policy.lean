import TidyImports.Proofs.Path.Below
import TidyImports.Proofs.Specifier.Replaced

/-! The policy for relative specifiers, stated on the files, the options and the aliases. One that climbs
further than allowed is spelled by an alias of the path that it leads to, and without one by what the
path has below the root of the project. A resolver decides as the policy does. -/
namespace TidyImports.Specifier

variable (tree : FileTree) (options : Settings.SpecifierOptions) (aliases : Config.AliasTable)
  (filePath : Text) (s : ModuleSpecifier)

/-- Where prefixed paths start: the given root, seen from the current directory, else the base directory
of the aliases, else the directory of their configuration, else the current directory. -/
inductive IsProjectRoot : Text → Prop
  | given {root : Text} (h : options.projectRoot = some root) : IsProjectRoot (tree.resolve root)
  | base {directory : Text} (noRoot : options.projectRoot = none)
      (h : aliases.baseUrl = some directory) : IsProjectRoot (Path.clean directory)
  | config {directory : Text} (noRoot : options.projectRoot = none)
      (noBase : aliases.baseUrl = none) (h : aliases.configDir = some directory) :
      IsProjectRoot (Path.clean directory)
  | current (noRoot : options.projectRoot = none) (noBase : aliases.baseUrl = none)
      (noConfig : aliases.configDir = none) : IsProjectRoot tree.cwd

/-- The path that a relative specifier leads to from its file, in the spelling of the framework if there
is one. -/
inductive LeadsTo : Text → Prop
  | plain (h : options.framework? = none) :
      LeadsTo (Path.join (Path.dirname filePath) [s.targetModule])
  | framework {mode : FrameworkMode} (h : options.framework? = some mode) :
      LeadsTo (Path.join (Path.dirname filePath) [mode.normalize s.targetModule])

/-- A relative specifier that climbs further than allowed, as it is written. -/
structure ClimbsTooFar : Prop where
  relative : s.kind = .relative
  deep : ∀ limit, options.maxRelativePathDepth = some limit → limit < depth s.targetModule

/-- What becomes of a specifier; nothing stands for leaving it as it is written. -/
inductive Decided : Option Replacement → Prop
  | near (h : ¬ ClimbsTooFar options s) : Decided none
  | aliased {path : Text} {found : Config.AliasMatch} (climbs : ClimbsTooFar options s)
      (leads : LeadsTo options filePath s path) (h : aliases.lookup? path = some found) :
      Decided (some ⟨.aliased, found.specifier⟩)
  | below {path root start rest : Text} (climbs : ClimbsTooFar options s)
      (leads : LeadsTo options filePath s path) (noAlias : aliases.lookup? path = none)
      (h : options.absolutePathPrefix = some start)
      (isRoot : IsProjectRoot tree options aliases root) (isBelow : Path.IsBelow root path)
      (more : rest ≠ []) (eq : path = Path.trimSlashes root ++ '/' :: rest) :
      Decided (some ⟨.absolute, start ++ rest⟩)
  | outside {path root : Text} (climbs : ClimbsTooFar options s)
      (leads : LeadsTo options filePath s path) (noAlias : aliases.lookup? path = none)
      (isRoot : IsProjectRoot tree options aliases root)
      (h : options.absolutePathPrefix = none ∨ ¬ Path.IsBelow root path) : Decided none

variable {tree options aliases filePath s} {path root : Text} {outcome : Option Replacement}

theorem isProjectRoot_iff :
    IsProjectRoot tree options aliases root ↔ Resolver.rootOf tree options aliases = root := by
  constructor
  · intro h
    cases h <;> simp [Resolver.rootOf, *]
  · rintro rfl
    rw [Resolver.rootOf]
    cases hroot : options.projectRoot with
    | some root => exact .given hroot
    | none =>
        cases hbase : aliases.baseUrl with
        | some directory => exact .base hroot hbase
        | none =>
            cases hconfig : aliases.configDir with
            | some directory => exact .config hroot hbase hconfig
            | none => exact .current hroot hbase hconfig

theorem LeadsTo.canonical (leads : LeadsTo options filePath s path) (h : Path.Canonical filePath) :
    Path.Canonical path := by
  have rooted := (Path.canonical_dirname h.isRooted).isRooted
  cases leads with
  | plain => exact Path.canonical_join rooted _
  | framework => exact Path.canonical_join rooted _

namespace Resolver

theorem leadsTo_iff : LeadsTo options filePath s path ↔
    (new tree options aliases filePath).pathOf s.targetModule = path := by
  constructor
  · intro h
    cases h <;> simp [pathOf, new, *]
  · rintro rfl
    cases hmode : options.framework? with
    | none => simpa [pathOf, new, hmode] using LeadsTo.plain hmode
    | some mode => simpa [pathOf, new, hmode] using LeadsTo.framework hmode

theorem isShallow_eq_false : (new tree options aliases filePath).isShallow s.targetModule = false ↔
    ∀ limit, options.maxRelativePathDepth = some limit → limit < depth s.targetModule := by
  rw [isShallow, new]
  cases options.maxRelativePathDepth with
  | none => simp
  | some limit => simp

theorem resolve?_near (h : ¬ ClimbsTooFar options s) :
    (new tree options aliases filePath).resolve? s = none := by
  rw [resolve?_eq]
  exact if_neg fun asked => h ⟨asked.1, isShallow_eq_false.1 asked.2⟩

theorem resolve?_climbing (h : ClimbsTooFar options s) (leads : LeadsTo options filePath s path) :
    (new tree options aliases filePath).resolve? s =
      match aliases.lookup? path with
      | some found => some ⟨.aliased, found.specifier⟩
      | none => (new tree options aliases filePath).absolute? path := by
  rw [resolve?_eq, if_pos ⟨h.relative, isShallow_eq_false.2 h.deep⟩, leadsTo_iff.1 leads]
  rfl

variable {start rest : Text}

theorem absolute?_below (isRoot : IsProjectRoot tree options aliases root)
    (h : options.absolutePathPrefix = some start) (more : rest ≠ [])
    (eq : path = Path.trimSlashes root ++ '/' :: rest) :
    (new tree options aliases filePath).absolute? path = some ⟨.absolute, start ++ rest⟩ := by
  obtain rfl := isProjectRoot_iff.1 isRoot
  exact absolute?_eq_some.2 ⟨start, rest, h, more, eq, rfl⟩

theorem absolute?_outside (h : Path.Canonical path)
    (isRoot : IsProjectRoot tree options aliases root)
    (out : options.absolutePathPrefix = none ∨ ¬ Path.IsBelow root path) :
    (new tree options aliases filePath).absolute? path = none := by
  obtain rfl := isProjectRoot_iff.1 isRoot
  rw [Option.eq_none_iff_forall_ne_some]
  intro found hfound
  obtain ⟨start, rest, hstart, more, eq, -⟩ := absolute?_eq_some.1 hfound
  rcases out with noPrefix | notBelow
  · rw [new, noPrefix] at hstart
    cases hstart
  · exact notBelow ((Path.isBelow_iff h).2 ⟨rest, more, eq⟩)

theorem decided_absolute? (h : Path.Canonical filePath) (climbs : ClimbsTooFar options s)
    (leads : LeadsTo options filePath s path) (noAlias : aliases.lookup? path = none) :
    Decided tree options aliases filePath s
      ((new tree options aliases filePath).absolute? path) := by
  have isRoot : IsProjectRoot tree options aliases _ := isProjectRoot_iff.2 rfl
  cases hprefix : options.absolutePathPrefix with
  | none =>
      rw [absolute?_outside (leads.canonical h) isRoot (.inl hprefix)]
      exact .outside climbs leads noAlias isRoot (.inl hprefix)
  | some start =>
      by_cases isBelow : Path.IsBelow (rootOf tree options aliases) path
      · obtain ⟨rest, more, eq⟩ := (Path.isBelow_iff (leads.canonical h)).1 isBelow
        rw [absolute?_below isRoot hprefix more eq]
        exact .below climbs leads noAlias hprefix isRoot isBelow more eq
      · rw [absolute?_outside (leads.canonical h) isRoot (.inr isBelow)]
        exact .outside climbs leads noAlias isRoot (.inr isBelow)

/-- The resolver of a file decides about a specifier as the policy does. -/
theorem resolve?_iff (h : Path.Canonical filePath) :
    (new tree options aliases filePath).resolve? s = outcome ↔
      Decided tree options aliases filePath s outcome := by
  constructor
  · rintro rfl
    by_cases climbs : ClimbsTooFar options s
    · have leads : LeadsTo options filePath s
          ((new tree options aliases filePath).pathOf s.targetModule) := leadsTo_iff.2 rfl
      rw [resolve?_climbing climbs leads]
      split
      · next found hlookup => exact .aliased climbs leads hlookup
      · next noAlias => exact decided_absolute? h climbs leads noAlias
    · rw [resolve?_near climbs]
      exact .near climbs
  · intro decided
    cases decided with
    | near near => exact resolve?_near near
    | aliased climbs leads hlookup => rw [resolve?_climbing climbs leads, hlookup]
    | below climbs leads noAlias hprefix isRoot _ more eq =>
        rw [resolve?_climbing climbs leads, noAlias]
        exact absolute?_below isRoot hprefix more eq
    | outside climbs leads noAlias isRoot out =>
        rw [resolve?_climbing climbs leads, noAlias]
        exact absolute?_outside (leads.canonical h) isRoot out

theorem resolve?_iff_at_drive :
    let tree := FileTree.new "/w".toList
    let options : Settings.SpecifierOptions :=
      ⟨some "@/".toList, some 3, none, some (some .nextJs), some "C:\\".toList⟩
    let aliases : Config.AliasTable := ⟨[], some "C:/p".toList, none⟩
    let s : ModuleSpecifier := ⟨"'../../../../lib/index.ts'".toList, .relative, "a.ts".toList,
      "../../../../lib/index.ts".toList, ⟨8, 24⟩⟩
    Path.Canonical "C:/p/src/a.ts".toList ∧
      Decided tree options aliases "C:/p/src/a.ts".toList s (some ⟨.absolute, "@/lib".toList⟩) := by
  intro tree options aliases s
  have hfile : Path.Canonical "C:/p/src/a.ts".toList := by decide
  exact ⟨hfile, (resolve?_iff hfile).1 (by decide)⟩

end Resolver

end TidyImports.Specifier
