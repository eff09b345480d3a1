import TidyImports.Config.Load

/-! The files that loading comes to. A file builds on the parents that it follows, and chains of files may
run in circles. Loading opens files depth first, each one before those that it builds on, and stops at
the first that cannot be opened or is too far away; it succeeds if there is none among all that can be
reached. -/
namespace TidyImports.Config

variable {tree : FileTree} {path other parent : Text} {steps depth n m : Nat} {e : ConfigError}

def RawConfig.followed (raw : RawConfig) (path : Text) : List Text :=
  (raw.parents.filter isFileParent).map (parentPath (Path.dirname path))

def config? (tree : FileTree) (path : Text) : Option RawConfig :=
  (tree.read? path).bind RawConfig.parse?

def parents (tree : FileTree) (path : Text) : List Text :=
  match config? tree path with
  | none => []
  | some raw => raw.followed path

/-- A chain with a number of steps, each from a file to one that it builds on. -/
inductive Chain (tree : FileTree) : Nat → Text → Text → Prop
  | here (path : Text) : Chain tree 0 path path
  | step {n : Nat} {path parent other : Text} (builds : parent ∈ parents tree path)
    (more : Chain tree n parent other) : Chain tree (n + 1) path other

/-- A place that loading comes to: a file, and the number of steps from the requested one. -/
structure Visit where
  depth : Nat
  path : Text
  deriving DecidableEq, Repr

def Visit.offence? (tree : FileTree) (v : Visit) : Option ConfigError :=
  if maxDepth < v.depth then some (.tooDeep v.path)
  else
    match tree.read? v.path with
    | none => some (.unreadable v.path)
    | some content =>
      match RawConfig.parse? content with
      | none => some (.malformed v.path)
      | some _ => none

/-- The places behind a file in depth-first preorder, as far as a number of further steps allows. -/
def visitsFrom (tree : FileTree) : (steps depth : Nat) → Text → List Visit
  | 0, depth, path => [⟨depth, path⟩]
  | steps + 1, depth, path =>
    ⟨depth, path⟩ :: (parents tree path).flatMap (visitsFrom tree steps (depth + 1))

/-- The places that loading may come to. The last ones are too far away, and nothing is behind them. -/
def visits (tree : FileTree) (path : Text) : List Visit := visitsFrom tree (maxDepth + 1) 0 path

/-- The number of files that are asked for on the way through places, up to the first offence. A file that
is too far away is not asked for. -/
def asked (tree : FileTree) : List Visit → Nat
  | [] => 0
  | v :: rest =>
    match v.offence? tree with
    | none => asked tree rest + 1
    | some (.tooDeep _) => 0
    | some _ => 1

def failure? {ε α : Type} : Except ε α → Option ε
  | .ok _ => none
  | .error e => some e

theorem failure?_eq_some {α : Type} {outcome : Except ConfigError α} :
    failure? outcome = some e ↔ outcome = .error e := by
  cases outcome <;> simp [failure?]

theorem failure?_eq_none {α : Type} {outcome : Except ConfigError α} :
    failure? outcome = none ↔ ∃ a, outcome = .ok a := by
  cases outcome <;> simp [failure?]

theorem failure?_map {α β : Type} (f : α → β) (outcome : Except ConfigError α) :
    failure? (outcome.map f) = failure? outcome := by
  cases outcome <;> rfl

theorem asked_append (tree : FileTree) (before behind : List Visit) :
    asked tree (before ++ behind) =
      if (before.findSome? (Visit.offence? tree)).isNone then asked tree before + asked tree behind
      else asked tree before := by
  induction before with
  | nil => simp [asked]
  | cons v before ih =>
      rw [List.cons_append, asked, asked, List.findSome?_cons, ih]
      cases v.offence? tree with
      | none =>
          simp only
          split <;> omega
      | some e => cases e <;> rfl

theorem loadParents_eq {load : Text → Loading} {places : Text → List Visit}
    (each : ∀ p, failure? (load p).outcome = (places p).findSome? (Visit.offence? tree) ∧
      (load p).reads = asked tree (places p)) (known : Resolved) (paths : List Text) :
    failure? (loadParents load known paths).outcome =
        (paths.flatMap places).findSome? (Visit.offence? tree) ∧
      (loadParents load known paths).reads = asked tree (paths.flatMap places) := by
  induction paths generalizing known with
  | nil => exact ⟨rfl, rfl⟩
  | cons p paths ih =>
      obtain ⟨own, reads⟩ := each p
      rw [List.flatMap_cons, List.findSome?_append, asked_append, ← own, ← reads, loadParents]
      cases (load p).outcome with
      | error e => exact ⟨rfl, rfl⟩
      | ok found =>
          obtain ⟨others, more⟩ := ih (known.overrideWith found)
          exact ⟨others, congrArg ((load p).reads + ·) more⟩

/-- Loading fails with the first offence among the places behind a file, and asks for the files before
it. -/
theorem loadWithin_eq (h : depth + steps = maxDepth + 1) (path : Text) :
    failure? (loadWithin tree steps path).outcome =
        (visitsFrom tree steps depth path).findSome? (Visit.offence? tree) ∧
      (loadWithin tree steps path).reads = asked tree (visitsFrom tree steps depth path) := by
  induction steps generalizing depth path with
  | zero =>
      have far : maxDepth < depth := by omega
      simp [loadWithin, visitsFrom, asked, Visit.offence?, far, failure?]
  | succ steps ih =>
      have near : ¬maxDepth < depth := by omega
      have next : depth + 1 + steps = maxDepth + 1 := by omega
      have behind := loadParents_eq (fun p => ih next p) Resolved.empty (parents tree path)
      rw [visitsFrom, List.findSome?_cons, asked, loadWithin, Visit.offence?]
      simp only [near, if_false]
      cases hread : tree.read? path with
      | none => exact ⟨rfl, rfl⟩
      | some content =>
          cases hparse : RawConfig.parse? content with
          | none =>
              simp only
              rw [hparse]
              exact ⟨rfl, rfl⟩
          | some raw =>
              have own : parents tree path = raw.followed path := by
                simp [parents, config?, hread, hparse]
              rw [own] at behind ⊢
              simp only
              rw [hparse]
              exact ⟨(failure?_map _ _).trans behind.1, congrArg (· + 1) behind.2⟩

theorem mem_visitsFrom {v : Visit} : v ∈ visitsFrom tree steps depth path ↔
    ∃ n ≤ steps, v.depth = depth + n ∧ Chain tree n path v.path := by
  induction steps generalizing depth path with
  | zero =>
      rw [visitsFrom, List.mem_singleton]
      constructor
      · rintro rfl
        exact ⟨0, Nat.le_refl 0, rfl, .here path⟩
      · rintro ⟨n, bound, hdepth, chain⟩
        obtain rfl := Nat.le_zero.1 bound
        cases chain
        obtain ⟨_, _⟩ := v
        exact congrArg (Visit.mk · _) hdepth
  | succ steps ih =>
      rw [visitsFrom, List.mem_cons, List.mem_flatMap]
      constructor
      · rintro (rfl | ⟨parent, builds, inside⟩)
        · exact ⟨0, Nat.zero_le _, rfl, .here path⟩
        · obtain ⟨n, bound, hdepth, chain⟩ := ih.1 inside
          exact ⟨n + 1, Nat.succ_le_succ bound, by omega, .step builds chain⟩
      · rintro ⟨n, bound, hdepth, chain⟩
        cases chain with
        | here =>
            obtain ⟨_, _⟩ := v
            exact .inl (congrArg (Visit.mk · _) hdepth)
        | @step n _ parent _ builds more =>
            exact .inr ⟨parent, builds, ih.2 ⟨n, by omega, by omega, more⟩⟩

namespace Chain

theorem append (h : Chain tree n path parent) (k : Chain tree m parent other) :
    Chain tree (n + m) path other := by
  induction h with
  | here => rwa [Nat.zero_add]
  | step builds _ ih =>
      rw [Nat.add_right_comm]
      exact .step builds (ih k)

theorem exists_through (h : Chain tree n path other) (bound : m ≤ n) :
    ∃ between, Chain tree m path between := by
  induction h generalizing m with
  | here path =>
      obtain rfl := Nat.le_zero.1 bound
      exact ⟨path, .here path⟩
  | step builds _ ih =>
      cases m with
      | zero => exact ⟨_, .here _⟩
      | succ m =>
          obtain ⟨between, more⟩ := ih (Nat.le_of_succ_le_succ bound)
          exact ⟨between, .step builds more⟩

theorem exists_long (h : Chain tree (m + 1) path path) (length : Nat) :
    ∃ n ≥ length, Chain tree n path path := by
  induction length with
  | zero => exact ⟨0, Nat.le_refl 0, .here path⟩
  | succ length ih =>
      obtain ⟨n, bound, more⟩ := ih
      exact ⟨m + 1 + n, by omega, h.append more⟩

end Chain

theorem offence?_eq_none {v : Visit} : v.offence? tree = none ↔ v.depth ≤ maxDepth ∧
    ∃ content raw, tree.read? v.path = some content ∧ RawConfig.parse? content = some raw := by
  rw [Visit.offence?]
  by_cases far : maxDepth < v.depth
  · simp [far, Nat.not_le_of_lt far]
  · rw [if_neg far]
    have near : v.depth ≤ maxDepth := Nat.le_of_not_lt far
    cases hread : tree.read? v.path with
    | none => simp
    | some content => cases hparse : RawConfig.parse? content <;> simp [near, hparse]

theorem load_eq_error_iff : AliasTable.load tree path = .error e ↔
    (visits tree path).findSome? (Visit.offence? tree) = some e := by
  rw [AliasTable.load, ← failure?_eq_some, failure?_map, visits,
    ← (loadWithin_eq (Nat.zero_add _) path).1, loadConfig]

/-- Loading succeeds if every file at the end of a chain can be read and parsed and no chain is too
long. -/
theorem load_eq_ok_iff : (∃ table, AliasTable.load tree path = .ok table) ↔
    ∀ n other, Chain tree n path other → n ≤ maxDepth ∧
      ∃ content raw, tree.read? other = some content ∧ RawConfig.parse? content = some raw := by
  have none : (∃ table, AliasTable.load tree path = .ok table) ↔
      ∀ v ∈ visits tree path, v.offence? tree = none := by
    rw [← failure?_eq_none, AliasTable.load, failure?_map, loadConfig,
      (loadWithin_eq (Nat.zero_add _) path).1, List.findSome?_eq_none_iff, visits]
  rw [none]
  constructor
  · intro h n other chain
    have place {n : Nat} {other : Text} (bound : n ≤ maxDepth + 1) (chain : Chain tree n path other) :=
      offence?_eq_none.1 (h ⟨n, other⟩ (mem_visitsFrom.2 ⟨n, bound, (Nat.zero_add n).symm, chain⟩))
    by_cases bound : n ≤ maxDepth + 1
    · exact place bound chain
    · -- A longer chain goes through a file that is just too far away.
      obtain ⟨between, short⟩ := chain.exists_through (Nat.le_of_not_le bound)
      exact absurd (place (Nat.le_refl _) short).1 (Nat.not_succ_le_self _)
  · intro h v hv
    obtain ⟨n, -, hdepth, chain⟩ := mem_visitsFrom.1 hv
    rw [Nat.zero_add] at hdepth
    exact offence?_eq_none.2 (hdepth ▸ h n v.path chain)

/-- When loading succeeds, with which error it fails, and what it asks for. The places that it may come to
are the ends of chains in depth-first preorder; the first offence among them decides, so a circle that
can be reached ends in an error. -/
theorem load_decided (tree : FileTree) (path : Text) :
    ((∃ table, AliasTable.load tree path = .ok table) ↔
      ∀ n other, Chain tree n path other → n ≤ maxDepth ∧
        ∃ content raw, tree.read? other = some content ∧ RawConfig.parse? content = some raw) ∧
    (∀ n m other, Chain tree n path other → Chain tree (m + 1) other other →
      ∃ e, AliasTable.load tree path = .error e) ∧
    (∀ e, AliasTable.load tree path = .error e ↔ ∃ before v behind,
      visits tree path = before ++ v :: behind ∧ v.offence? tree = some e ∧
        ∀ u ∈ before, u.offence? tree = none) ∧
    (∀ v, v ∈ visits tree path ↔ v.depth ≤ maxDepth + 1 ∧ Chain tree v.depth path v.path) ∧
    (loadConfig tree path).reads = asked tree (visits tree path) := by
  refine ⟨load_eq_ok_iff, fun n m other chain circle => ?_, fun e => ?_, fun v => ?_,
    (loadWithin_eq (Nat.zero_add _) path).2⟩
  · cases hload : AliasTable.load tree path with
    | error e => exact ⟨e, rfl⟩
    | ok table =>
        obtain ⟨k, long, more⟩ := circle.exists_long (maxDepth + 1)
        have bound := (load_eq_ok_iff.1 ⟨table, hload⟩ _ _ (chain.append more)).1
        omega
  · rw [load_eq_error_iff, List.findSome?_eq_some_iff]
  · rw [visits, mem_visitsFrom]
    constructor
    · rintro ⟨n, bound, hdepth, chain⟩
      rw [Nat.zero_add] at hdepth
      exact ⟨hdepth ▸ bound, hdepth ▸ chain⟩
    · rintro ⟨bound, chain⟩
      exact ⟨_, bound, (Nat.zero_add _).symm, chain⟩

def circle : FileTree :=
  ((FileTree.new ['/']).write "/a.json".toList "\x7b\"extends\": \"./b\"\x7d".toList).write
    "/b.json".toList "\x7b\"extends\": [\"pkg\", \"./a.json\"]\x7d".toList

theorem circle_decided : parents circle "/a.json".toList = ["/b.json".toList] ∧
    parents circle "/b.json".toList = ["/a.json".toList] ∧
    ∃ e, AliasTable.load circle "/a.json".toList = .error e := by
  have there : parents circle "/a.json".toList = ["/b.json".toList] := by decide +kernel
  have back : parents circle "/b.json".toList = ["/a.json".toList] := by decide +kernel
  have around : Chain circle 2 "/a.json".toList "/a.json".toList :=
    .step (there ▸ List.mem_singleton_self _) (.step (back ▸ List.mem_singleton_self _) (.here _))
  exact ⟨there, back, (load_decided circle _).2.1 0 1 _ (.here _) around⟩

end TidyImports.Config
