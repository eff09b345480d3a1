import TidyImports.Proofs.Config.Chains
import TidyImports.Proofs.Config.Entries

/-! What a configuration takes over from those that it builds on. In postorder every file stands behind its
parents; the last file that names a base directory counts for it, the last one with a map of patterns
for the patterns, and each of them means its own directory. -/
namespace TidyImports.Config

structure Source where
  path : Text
  raw : RawConfig
  deriving DecidableEq, Repr

variable {tree : FileTree} {path : Text} {paths : List Text} {before sources others : List Source}

def Source.directory (s : Source) : Text := Path.dirname s.path

def Source.baseUrl? (s : Source) : Option Text :=
  s.raw.baseUrl.map fun baseUrl => Path.join s.directory [baseUrl]

def Source.paths? (s : Source) : Option (List (Text × List Text) × Text) :=
  s.raw.paths.map fun paths => (paths, s.directory)

/-- The files behind a list of files in postorder: those that a file builds on, in order, and then the
file itself. A file that several others build on stands there several times. -/
inductive Postorder (tree : FileTree) : List Text → List Source → Prop
  | nil : Postorder tree [] []
  | cons {path : Text} {raw : RawConfig} {paths : List Text} {above others : List Source}
    (own : config? tree path = some raw) (parents : Postorder tree (raw.followed path) above)
    (rest : Postorder tree paths others) :
    Postorder tree (path :: paths) (above ++ ⟨path, raw⟩ :: others)

namespace Postorder

theorem unique (h : Postorder tree paths sources) (k : Postorder tree paths others) :
    sources = others := by
  induction h generalizing others with
  | nil => cases k; rfl
  | cons own _ _ ihParents ihRest =>
      cases k with
      | cons own' parents rest =>
          obtain rfl := Option.some.inj (own.symm.trans own')
          rw [ihParents parents, ihRest rest]

theorem cons_of_single (h : Postorder tree [path] sources) (k : Postorder tree paths others) :
    Postorder tree (path :: paths) (sources ++ others) := by
  cases h with
  | cons own parents rest =>
      cases rest
      rw [List.append_assoc]
      exact .cons own parents k

end Postorder

/-- What the last file says that says anything. -/
def lastSaid {α : Type} (say : Source → Option α) (sources : List Source) : Option α :=
  sources.reverse.findSome? say

section LastSaid

variable {α : Type} {say : Source → Option α}

@[simp] theorem lastSaid_nil : lastSaid say [] = none := rfl

@[simp] theorem lastSaid_single (s : Source) : lastSaid say [s] = say s := by
  simp [lastSaid, List.findSome?_cons]
  cases say s <;> rfl

@[simp] theorem lastSaid_append :
    lastSaid say (before ++ sources) = (lastSaid say sources).or (lastSaid say before) := by
  rw [lastSaid, List.reverse_append, List.findSome?_append]
  rfl

end LastSaid

structure Resolved.Known (r : Resolved) (sources : List Source) : Prop where
  baseUrl : r.baseUrl = lastSaid Source.baseUrl? sources
  paths : r.paths = lastSaid Source.paths? sources

namespace Resolved

variable {r later : Resolved}

theorem known_empty : empty.Known [] := ⟨rfl, rfl⟩

theorem known_resolved (raw : RawConfig) (path : Text) :
    (raw.resolved path).Known [⟨path, raw⟩] := by
  constructor <;> rw [lastSaid_single] <;> rfl

theorem Known.overrideWith (h : r.Known before) (k : later.Known sources) :
    (r.overrideWith later).Known (before ++ sources) := by
  constructor
  · rw [lastSaid_append, ← h.baseUrl, ← k.baseUrl]
    rfl
  · rw [lastSaid_append, ← h.paths, ← k.paths]
    rfl

end Resolved

theorem exists_postorder_of_parents {load : Text → Loading}
    (each : ∀ p found, (load p).outcome = .ok found →
      ∃ own, Postorder tree [p] own ∧ found.Known own) {known result : Resolved}
    (h : known.Known before) (hload : (loadParents load known paths).outcome = .ok result) :
    ∃ sources, Postorder tree paths sources ∧ result.Known (before ++ sources) := by
  induction paths generalizing known before with
  | nil =>
      obtain rfl := Except.ok.inj hload
      exact ⟨[], .nil, by rwa [List.append_nil]⟩
  | cons p paths ih =>
      rw [loadParents] at hload
      cases hone : (load p).outcome with
      | error e => simp [hone] at hload
      | ok found =>
          obtain ⟨own, place, hfound⟩ := each p found hone
          simp only [hone] at hload
          obtain ⟨others, rest, hresult⟩ := ih (h.overrideWith hfound) hload
          exact ⟨own ++ others, place.cons_of_single rest, by rwa [← List.append_assoc]⟩

theorem loadWithin_eq_ok {steps : Nat} {result : Resolved}
    (h : (loadWithin tree (steps + 1) path).outcome = .ok result) :
    ∃ raw known, config? tree path = some raw ∧
      (loadParents (loadWithin tree steps) Resolved.empty (raw.followed path)).outcome = .ok known ∧
      result = known.overrideWith (raw.resolved path) := by
  rw [loadWithin] at h
  cases hread : tree.read? path with
  | none => simp [hread] at h
  | some content =>
      cases hparse : RawConfig.parse? content with
      | none => simp [hread, hparse] at h
      | some raw =>
          simp only [hread, hparse] at h
          cases habove : (loadParents (loadWithin tree steps) Resolved.empty
              (raw.followed path)).outcome with
          | error e =>
              rw [RawConfig.followed] at habove
              simp [RawConfig.resolved, habove, Except.map] at h
          | ok known =>
              refine ⟨raw, known, by simp [config?, hread, hparse], habove, ?_⟩
              rw [RawConfig.followed] at habove
              simpa [RawConfig.resolved, habove, Except.map, eq_comm] using h

theorem exists_postorder_of_load {steps : Nat} {result : Resolved}
    (h : (loadWithin tree steps path).outcome = .ok result) :
    ∃ sources, Postorder tree [path] sources ∧ result.Known sources ∧
      result.configDir = Path.dirname path := by
  induction steps generalizing path result with
  | zero => simp [loadWithin] at h
  | succ steps ih =>
      obtain ⟨raw, known, own, habove, rfl⟩ := loadWithin_eq_ok h
      have each (p : Text) (found : Resolved) (hp : (loadWithin tree steps p).outcome = .ok found) :
          ∃ sources, Postorder tree [p] sources ∧ found.Known sources := by
        obtain ⟨sources, place, hfound, -⟩ := ih hp
        exact ⟨sources, place, hfound⟩
      obtain ⟨above, parents, hknown⟩ := exists_postorder_of_parents each Resolved.known_empty habove
      exact ⟨above ++ [⟨path, raw⟩], .cons own parents .nil,
        hknown.overrideWith (Resolved.known_resolved raw path), rfl⟩

/-- What loading finds is what the files say that a configuration builds on, in postorder and with the
configuration at their end. The base directory is the last that is named; the aliases come from the
last map of patterns, with targets below the base directory or else below the directory of the map. -/
theorem load_inherits {table : AliasTable} (h : AliasTable.load tree path = .ok table) :
    ∃ sources, Postorder tree [path] sources ∧
      (∀ others, Postorder tree [path] others → others = sources) ∧
      table.baseUrl = lastSaid Source.baseUrl? sources ∧
      table.configDir = some (Path.dirname path) ∧
      (lastSaid Source.paths? sources = none → table.entries = []) ∧
      ∀ paths directory, lastSaid Source.paths? sources = some (paths, directory) →
        table.entries = (paths.flatMap fun (pattern, targets) => targets.map (pattern, ·)).filterMap
          fun (pattern, target) => buildEntry? pattern target (table.baseUrl.getD directory) := by
  rw [AliasTable.load, loadConfig] at h
  cases hload : (loadWithin tree (maxDepth + 1) path).outcome with
  | error e => simp [hload, Except.map] at h
  | ok found =>
      simp only [hload, Except.map, Except.ok.injEq] at h
      subst h
      obtain ⟨sources, place, hfound, directory⟩ := exists_postorder_of_load hload
      refine ⟨sources, place, fun others k => k.unique place, hfound.baseUrl,
        congrArg some directory, fun silent => ?_, fun paths directory said => ?_⟩
      · simp only [Resolved.table, hfound.paths, silent]
      · simp only [Resolved.table, hfound.paths, said, buildEntries, List.filterMap_flatMap,
          List.filterMap_map]
        rfl

/-- A configuration with two parents in different directories, of which each says one thing. -/
def layered : FileTree :=
  (((FileTree.new ['/']).write "/p/tsconfig.json".toList
    "\x7b\"extends\": [\"./base/one\", \"@x/pkg\", \"./two.json\"]\x7d".toList).write
    "/p/base/one.json".toList
    "\x7b\"compilerOptions\": \x7b\"baseUrl\": \"./lib\"\x7d\x7d".toList).write "/p/two.json".toList
    "\x7b\"compilerOptions\": \x7b\"paths\": \x7b\"@/*\": [\"src/*\"]\x7d\x7d\x7d".toList

theorem layered_inherits : ∃ table sources,
    AliasTable.load layered "/p/tsconfig.json".toList = .ok table ∧
    Postorder layered ["/p/tsconfig.json".toList] sources ∧
    sources.map (String.ofList ·.path) = ["/p/base/one.json", "/p/two.json", "/p/tsconfig.json"] ∧
    table.baseUrl = lastSaid Source.baseUrl? sources ∧
    table.baseUrl = some "/p/base/lib".toList ∧ table.configDir = some "/p".toList ∧
    table.entries = [⟨"@/*".toList, "@/".toList, "/p/base/lib/src".toList, true⟩] := by
  have load : AliasTable.load layered "/p/tsconfig.json".toList =
      .ok ⟨[⟨"@/*".toList, "@/".toList, "/p/base/lib/src".toList, true⟩],
        some "/p/base/lib".toList, some "/p".toList⟩ := by decide +kernel
  have one : config? layered "/p/base/one.json".toList = some ⟨[], some "./lib".toList, none⟩ := by
    decide +kernel
  have two : config? layered "/p/two.json".toList =
      some ⟨[], none, some [("@/*".toList, ["src/*".toList])]⟩ := by decide +kernel
  have child : config? layered "/p/tsconfig.json".toList =
      some ⟨["./base/one".toList, "@x/pkg".toList, "./two.json".toList], none, none⟩ := by
    decide +kernel
  obtain ⟨sources, place, unique, base, -⟩ := load_inherits load
  have order := unique _ (.cons child (.cons one .nil (.cons two .nil .nil)) .nil)
  exact ⟨_, sources, load, place, order ▸ rfl, base, rfl, rfl, rfl⟩

end TidyImports.Config
