import TidyImports.Config.Load
import TidyImports.Proofs.Config.Entries
import TidyImports.Proofs.Path.Extensions

/-! Looking up the alias of a module. An alias with a star covers what stands below its directory, one
without a star the module that its target names without extension and index segment. Of all aliases that
cover a module the first one with the longest directory is found. -/
namespace TidyImports.Config

variable {path stem specifier : Text} {entry : AliasEntry} {table : AliasTable} {found : AliasMatch}

def IsStem (path stem : Text) : Prop :=
  ∃ bare, Path.WithoutExtension path bare ∧ Path.WithoutIndex bare stem

theorem isStem_iff : IsStem path stem ↔ moduleStem path = stem := by
  rw [IsStem, moduleStem]
  constructor
  · rintro ⟨bare, hbare, hstem⟩
    rw [Path.withoutExtension_iff.1 hbare, Path.withoutIndex_iff.1 hstem]
  · exact fun h => ⟨_, Path.withoutExtension_stripExtension path, Path.withoutIndex_iff.2 h⟩

/-- The modules that an alias covers, and how it spells them. -/
inductive AliasEntry.Spells (entry : AliasEntry) : (path specifier : Text) → Prop
  | below {rest : Text} (wild : entry.wildcard = true) (hrest : rest ≠ []) :
    Spells entry (entry.baseDir ++ '/' :: rest) (entry.aliasPrefix ++ rest)
  | stem {path : Text} (alone : entry.wildcard = false) (h : IsStem path entry.baseDir) :
    Spells entry path entry.pattern

def AliasEntry.Covers (entry : AliasEntry) (path : Text) : Prop := ∃ specifier, entry.Spells path specifier

namespace AliasTable

def IsBuilt (table : AliasTable) : Prop :=
  ∀ entry ∈ table.entries, ∃ pattern target base, buildEntry? pattern target base = some entry

/-- An alias and its spelling of a module: those before it that cover the module have a shorter directory,
and those behind it no longer one. -/
structure Finds (table : AliasTable) (path : Text) (found : AliasMatch) : Prop where
  spells : found.entry.Spells path found.specifier
  first : ∃ before after, table.entries = before ++ found.entry :: after ∧
    (∀ other ∈ before, other.Covers path → other.baseDir.width < found.entry.baseDir.width) ∧
    (∀ other ∈ after, other.Covers path → other.baseDir.width ≤ found.entry.baseDir.width)

theorem isBuilt_table (known : Resolved) : known.table.IsBuilt := by
  intro entry h
  rw [Resolved.table] at h
  cases hpaths : known.paths with
  | none => simp [hpaths] at h
  | some paths =>
      simp only [hpaths, buildEntries, List.mem_flatMap, List.mem_filterMap] at h
      obtain ⟨⟨pattern, targets⟩, _, target, _, h⟩ := h
      exact ⟨pattern, target, _, h⟩

theorem IsBuilt.isDeclared (h : table.IsBuilt) : ∀ entry ∈ table.entries, entry.IsDeclared := by
  intro entry hmem
  obtain ⟨pattern, target, base, hbuilt⟩ := h entry hmem
  exact (declares_of_built hbuilt).isDeclared

end AliasTable

theorem AliasEntry.IsDeclared.spells_iff (h : entry.IsDeclared) :
    entry.specifierFor? path = some specifier ↔ entry.Spells path specifier := by
  cases hwild : entry.wildcard with
  | true =>
      rw [specifierFor?_wildcard hwild, h.trimmed hwild]
      constructor
      · rintro ⟨rest, hrest, rfl, rfl⟩
        exact .below hwild hrest
      · rintro (⟨_, hrest⟩ | ⟨alone, _⟩)
        · exact ⟨_, hrest, rfl, rfl⟩
        · rw [hwild] at alone
          exact absurd alone (by decide)
  | false =>
      rw [specifierFor?_exact hwild, ← isStem_iff]
      constructor
      · rintro ⟨hstem, rfl⟩
        exact .stem hwild hstem
      · rintro (⟨wild, _⟩ | ⟨_, hstem⟩)
        · rw [hwild] at wild
          exact absurd wild (by decide)
        · exact ⟨hstem, rfl⟩

theorem AliasEntry.IsDeclared.covers_iff (h : entry.IsDeclared) :
    (entry.match? path).isSome ↔ entry.Covers path := by
  rw [AliasEntry.match?, Option.isSome_map, Option.isSome_iff_exists]
  exact exists_congr fun specifier => h.spells_iff

theorem AliasTable.IsBuilt.lookup?_eq_none_iff (h : table.IsBuilt) :
    table.lookup? path = none ↔ ∀ entry ∈ table.entries, ¬entry.Covers path := by
  constructor
  · intro hnone entry hmem hcovers
    have unmatched := bestMatch?_eq_none hnone entry hmem
    rw [← (h.isDeclared entry hmem).covers_iff, unmatched] at hcovers
    simp at hcovers
  · intro hcovers
    rw [Option.eq_none_iff_forall_ne_some]
    intro found hfound
    obtain ⟨hmem, hmatch, -⟩ := bestMatch?_best hfound
    refine hcovers _ hmem ((h.isDeclared _ hmem).covers_iff.1 ?_)
    rw [hmatch]
    rfl

theorem AliasTable.IsBuilt.lookup?_eq_some_iff (h : table.IsBuilt) :
    table.lookup? path = some found ↔ table.Finds path found := by
  have declared := h.isDeclared
  constructor
  · intro hfound
    obtain ⟨hmatch, before, after, hentries, hbefore, hafter⟩ := bestMatch?_first hfound
    rw [hentries, List.forall_mem_append, List.forall_mem_cons] at declared
    obtain ⟨hfront, hentry, hback⟩ := declared
    refine ⟨hentry.spells_iff.1 (match?_eq_some.1 hmatch).2, before, after, hentries, ?_, ?_⟩
    · exact fun other hother hcovers => hbefore other hother ((hfront other hother).covers_iff.2 hcovers)
    · exact fun other hother hcovers => hafter other hother ((hback other hother).covers_iff.2 hcovers)
  · rintro ⟨hspells, before, after, hentries, hbefore, hafter⟩
    rw [hentries, List.forall_mem_append, List.forall_mem_cons] at declared
    obtain ⟨hfront, hentry, hback⟩ := declared
    rw [AliasTable.lookup?, hentries]
    refine bestMatch?_of_first (match?_eq_some.2 ⟨rfl, hentry.spells_iff.2 hspells⟩) ?_ ?_
    · exact fun other hother hsome => hbefore other hother ((hfront other hother).covers_iff.1 hsome)
    · exact fun other hother hsome => hafter other hother ((hback other hother).covers_iff.1 hsome)

/-- Nothing is found exactly if no alias covers the module, and otherwise the first alias with the longest
directory of all that cover it; the spelling is the one that this alias gives to the module. -/
theorem lookup?_nearest (h : table.IsBuilt) (path : Text) :
    (table.lookup? path = none ↔ ∀ entry ∈ table.entries, ¬entry.Covers path) ∧
    (∀ found, table.lookup? path = some found ↔ table.Finds path found) ∧
    ∀ entry ∈ table.entries, ∀ specifier,
      entry.specifierFor? path = some specifier ↔ entry.Spells path specifier :=
  ⟨h.lookup?_eq_none_iff, fun _ => h.lookup?_eq_some_iff,
    fun entry hmem _ => (h.isDeclared entry hmem).spells_iff⟩

def overlappingAliases : Resolved :=
  ⟨none, some ([("@/*".toList, ["src/*".toList]), ("~/*".toList, ["src/*".toList]),
    ("@lib".toList, ["src/lib/index.d.ts".toList])], "/p".toList), "/p".toList⟩

theorem overlappingAliases_lookup : overlappingAliases.table.IsBuilt ∧
    overlappingAliases.table.Finds "/p/src/a.ts".toList
      ⟨⟨"@/*".toList, "@/".toList, "/p/src".toList, true⟩, "@/a.ts".toList⟩ ∧
    overlappingAliases.table.Finds "/p/src/lib.D.MTS".toList
      ⟨⟨"@lib".toList, "@lib".toList, "/p/src/lib".toList, false⟩, "@lib".toList⟩ ∧
    ∀ entry ∈ overlappingAliases.table.entries, ¬entry.Covers "/p/src".toList := by
  have built := AliasTable.isBuilt_table overlappingAliases
  exact ⟨built, ((lookup?_nearest built _).2.1 _).1 (by decide),
    ((lookup?_nearest built _).2.1 _).1 (by decide), (lookup?_nearest built _).1.1 (by decide)⟩

end TidyImports.Config
