import Mathlib.Data.List.MinMax
import TidyImports.Proofs.Config.Lookup
import TidyImports.Proofs.Path.Below
import TidyImports.Text.Offset

/-! How the spelling of a module is read again. A reader of specifiers takes the exact pattern that is the
specifier and else the pattern with the longest start, while modules are spelled by the longest
directory. So a more specific pattern may take a spelling away. A longer pattern with a star never leads
back to the module, for its directory would have been the longer one; where overlapping patterns agree
nothing is taken away. -/
namespace TidyImports.Config

open TidyImports.Path (Canonical)

variable {path specifier : Text} {entry other : AliasEntry} {found : AliasMatch}
  {known : Resolved}

namespace AliasTable

def HasExact (table : AliasTable) (specifier : Text) : Prop :=
  ∃ entry ∈ table.entries, entry.wildcard = false ∧ entry.pattern = specifier

instance (table : AliasTable) (specifier : Text) : Decidable (table.HasExact specifier) :=
  inferInstanceAs (Decidable (∃ entry ∈ table.entries, _ ∧ _))

def covering (table : AliasTable) (specifier : Text) : List AliasEntry :=
  table.entries.filter fun entry => entry.wildcard && entry.aliasPrefix.isPrefixOf specifier

theorem mem_covering {table : AliasTable} : entry ∈ table.covering specifier ↔
    entry ∈ table.entries ∧ entry.wildcard = true ∧ entry.aliasPrefix <+: specifier := by
  simp [covering]

inductive Selects (table : AliasTable) (specifier : Text) : Text → Prop
  | exact (same : table.HasExact specifier) : Selects table specifier specifier
  | longest {entry : AliasEntry} (noExact : ¬ table.HasExact specifier)
    (covers : entry ∈ table.covering specifier)
    (longest : ∀ other ∈ table.covering specifier,
      other.aliasPrefix.length ≤ entry.aliasPrefix.length) : Selects table specifier entry.pattern

/-- Some alias with the pattern spells the module so. -/
def Spells (table : AliasTable) (pattern path specifier : Text) : Prop :=
  ∃ entry ∈ table.entries, entry.pattern = pattern ∧ entry.specifierFor? path = some specifier

/-- A reader of the spelling takes the pattern that it was spelled with, or one that spells the module
in the same way. -/
def LeadsBack (table : AliasTable) (found : AliasMatch) (path : Text) : Prop :=
  ∃ pattern, table.Selects found.specifier pattern ∧
    (pattern = found.entry.pattern ∨ table.Spells pattern path found.specifier)

/-- No pattern takes the spelling away: an exact one that is the spelling spells the module itself, and
without an exact one no pattern with a longer start covers the spelling. -/
structure Untaken (table : AliasTable) (found : AliasMatch) (path : Text) : Prop where
  exact : table.HasExact found.specifier → table.Spells found.specifier path found.specifier
  longer : ¬ table.HasExact found.specifier → ∀ other ∈ table.covering found.specifier,
    other.aliasPrefix.length ≤ found.entry.aliasPrefix.length

/-- Overlapping patterns agree: a pattern that is covered by another one with a star stands for what the
other one makes of it. -/
structure Agrees (table : AliasTable) : Prop where
  wild : ∀ entry ∈ table.entries, entry.wildcard = true → ∀ other ∈ table.entries,
    other.wildcard = true → ∀ more ≠ [], other.aliasPrefix = entry.aliasPrefix ++ more →
      ∃ same ∈ table.entries, same.pattern = other.pattern ∧
        same.baseDir ++ ['/'] = entry.baseDir ++ '/' :: more
  exact : ∀ entry ∈ table.entries, entry.wildcard = true → ∀ other ∈ table.entries,
    other.wildcard = false → ∀ more ≠ [], other.pattern = entry.aliasPrefix ++ more →
      ∃ same ∈ table.entries, same.pattern = other.pattern ∧
        same.baseDir = moduleStem (entry.baseDir ++ '/' :: more)

end AliasTable

theorem isDeclared_of_mem (h : entry ∈ known.table.entries) : entry.IsDeclared :=
  (AliasTable.isBuilt_table known).isDeclared entry h

theorem wildcard_of_not_hasExact {table : AliasTable} (hmem : entry ∈ table.entries)
    (hfor : entry.specifierFor? path = some specifier) (h : ¬ table.HasExact specifier) :
    entry.wildcard = true := by
  rw [← Bool.not_eq_false]
  exact fun halone => h ⟨entry, hmem, halone, ((specifierFor?_exact halone).1 hfor).2⟩

section Declared

variable {table : AliasTable} (declared : ∀ entry ∈ table.entries, entry.IsDeclared)
include declared

theorem specifierFor?_declared (hmem : entry ∈ table.entries) (hwild : entry.wildcard = true) :
    entry.specifierFor? path = some specifier ↔ ∃ rest, rest ≠ [] ∧
      path = entry.baseDir ++ '/' :: rest ∧ entry.aliasPrefix ++ rest = specifier := by
  rw [specifierFor?_wildcard hwild, (declared entry hmem).trimmed hwild]

theorem pattern_of_length (hentry : entry ∈ table.covering specifier)
    (hother : other ∈ table.covering specifier)
    (hlength : entry.aliasPrefix.length = other.aliasPrefix.length) :
    entry.pattern = other.pattern := by
  obtain ⟨hmem, hwild, hstart⟩ := AliasTable.mem_covering.1 hentry
  obtain ⟨hmem', hwild', hstart'⟩ := AliasTable.mem_covering.1 hother
  have starts : entry.aliasPrefix = other.aliasPrefix :=
    (List.prefix_of_prefix_length_le hstart hstart' hlength.le).eq_of_length hlength
  rw [(declared _ hmem).pattern, (declared _ hmem').pattern, hwild, hwild', starts]

theorem selects_unique {first second : Text} (h : table.Selects specifier first)
    (k : table.Selects specifier second) : first = second := by
  cases h with
  | exact same =>
      cases k with
      | exact => rfl
      | longest noExact => exact absurd same noExact
  | longest noExact covers longest =>
      cases k with
      | exact same => exact absurd same noExact
      | longest _ covers' longest' =>
          exact pattern_of_length declared covers covers'
            (le_antisymm (longest' _ covers) (longest _ covers'))

theorem covers_of_specifierFor? (hmem : entry ∈ table.entries) (hwild : entry.wildcard = true)
    (hfor : entry.specifierFor? path = some specifier) : entry ∈ table.covering specifier := by
  obtain ⟨rest, _, _, hspelled⟩ := (specifierFor?_declared declared hmem hwild).1 hfor
  exact AliasTable.mem_covering.2 ⟨hmem, hwild, rest, hspelled⟩

theorem exists_selects (hmem : entry ∈ table.entries)
    (hfor : entry.specifierFor? path = some specifier) :
    ∃ pattern, table.Selects specifier pattern := by
  by_cases hexact : table.HasExact specifier
  · exact ⟨specifier, .exact hexact⟩
  · have hwild := wildcard_of_not_hasExact hmem hfor hexact
    have covers := covers_of_specifierFor? declared hmem hwild hfor
    cases hmax : (table.covering specifier).argmax fun other => other.aliasPrefix.length with
    | none =>
        rw [List.argmax_eq_none.1 hmax] at covers
        exact absurd covers List.not_mem_nil
    | some longest =>
        refine ⟨longest.pattern, .longest hexact (List.argmax_mem hmax) fun other hother => ?_⟩
        exact List.le_of_mem_argmax (f := fun other : AliasEntry => other.aliasPrefix.length)
          hother hmax

theorem aliasPrefix_le_of_spells (hfound : table.lookup? path = some found)
    (hwild : found.entry.wildcard = true) (hmem : other ∈ table.entries)
    (hother : other.wildcard = true) (hfor : other.specifierFor? path = some found.specifier) :
    other.aliasPrefix.length ≤ found.entry.aliasPrefix.length := by
  obtain ⟨hentry, hmatch, hbest⟩ := bestMatch?_best hfound
  obtain ⟨rest, _, hpath, hspelled⟩ :=
    (specifierFor?_declared declared hentry hwild).1 (match?_eq_some.1 hmatch).2
  obtain ⟨rest', _, hpath', hspelled'⟩ := (specifierFor?_declared declared hmem hother).1 hfor
  have shorter : other.baseDir.width ≤ found.entry.baseDir.width := by
    refine hbest other hmem ?_
    rw [AliasEntry.match?, hfor]
    rfl
  rcases Nat.le_total other.aliasPrefix.length found.entry.aliasPrefix.length with h | h
  · exact h
  · obtain ⟨more, hmore⟩ := List.prefix_of_prefix_length_le ⟨rest, hspelled⟩ ⟨rest', hspelled'⟩ h
    rw [← hmore, List.append_assoc, ← hspelled, List.append_cancel_left_eq] at hspelled'
    rw [hpath', ← hspelled'] at hpath
    have directories : (other.baseDir ++ ['/']) ++ rest' =
        (found.entry.baseDir ++ '/' :: more) ++ rest' := by simpa using hpath
    have widths := congrArg Text.width (List.append_cancel_right directories)
    rw [Text.width_append, Text.width_append, Text.width_cons, Text.width_cons, Text.width_nil] at widths
    have none : more = [] := Text.nil_of_width (by omega)
    rw [← hmore, none, List.append_nil]

theorem leadsBack_iff_untaken (hfound : table.lookup? path = some found) :
    table.LeadsBack found path ↔ table.Untaken found path := by
  obtain ⟨hentry, hmatch, _⟩ := bestMatch?_best hfound
  have hfor := (match?_eq_some.1 hmatch).2
  constructor
  · rintro ⟨pattern, hselects, hback⟩
    refine ⟨fun hexact => ?_, fun noExact other hother => ?_⟩
    · obtain rfl := selects_unique declared hselects (.exact hexact)
      rcases hback with hown | hspells
      · exact ⟨found.entry, hentry, hown.symm, hfor⟩
      · exact hspells
    · have hwild := wildcard_of_not_hasExact hentry hfor noExact
      cases hselects with
      | exact same => exact absurd same noExact
      | @longest longest _ covers hlongest =>
          refine (hlongest other hother).trans ?_
          obtain ⟨hmem, hw, _⟩ := AliasTable.mem_covering.1 covers
          rcases hback with hown | ⟨same, hsame, hpattern, hspelled⟩
          · exact ((declared _ hmem).eq_of_pattern (declared _ hentry) hown).2 ▸ le_rfl
          · obtain ⟨hw', hstart⟩ := (declared _ hsame).eq_of_pattern (declared _ hmem) hpattern
            rw [← hstart]
            exact aliasPrefix_le_of_spells declared hfound hwild hsame (hw'.trans hw) hspelled
  · rintro ⟨hexact, hlonger⟩
    obtain ⟨pattern, hselects⟩ := exists_selects declared hentry hfor
    refine ⟨pattern, hselects, ?_⟩
    cases hselects with
    | exact same => exact .inr (hexact same)
    | @longest longest noExact covers hlongest =>
        have hwild := wildcard_of_not_hasExact hentry hfor noExact
        have own := covers_of_specifierFor? declared hentry hwild hfor
        exact .inl (pattern_of_length declared covers own
          (le_antisymm (hlonger noExact _ covers) (hlongest _ own)))

theorem specifierFor?_extension {more rest : Text} (hpath : Canonical path)
    (hmem : other ∈ table.entries) (hother : other.wildcard = true)
    (hdirectory : other.baseDir ++ ['/'] = entry.baseDir ++ '/' :: more)
    (hbelow : path = entry.baseDir ++ '/' :: (more ++ rest)) (hne : more ++ rest ≠ []) :
    other.specifierFor? path = some (other.aliasPrefix ++ rest) := by
  have moved : path = (other.baseDir ++ ['/']) ++ rest := by
    rw [hdirectory, hbelow, List.append_assoc, List.cons_append]
  refine (specifierFor?_declared declared hmem hother).2 ⟨rest, ?_, by simpa using moved, rfl⟩
  -- Something is left, for the path does not end with a slash.
  rintro rfl
  have ends := (hbelow ▸ hpath).getLast?_ne_slash hne
  rw [← hbelow, moved, List.append_nil, List.getLast?_concat] at ends
  exact ends rfl

theorem untaken_of_agrees (hpath : Canonical path) (hfound : table.lookup? path = some found)
    (hagrees : table.Agrees) : table.Untaken found path := by
  obtain ⟨hentry, hmatch, _⟩ := bestMatch?_best hfound
  have hfor := (match?_eq_some.1 hmatch).2
  constructor
  · rintro ⟨other, hother, halone, hsame⟩
    cases hwild : found.entry.wildcard with
    | false => exact ⟨found.entry, hentry, ((specifierFor?_exact hwild).1 hfor).2, hfor⟩
    | true =>
        obtain ⟨rest, hrest, hbelow, hspelled⟩ :=
          (specifierFor?_declared declared hentry hwild).1 hfor
        obtain ⟨same, hmem, hpattern, hdirectory⟩ := hagrees.exact found.entry hentry hwild other
          hother halone rest hrest (hsame.trans hspelled.symm)
        have alone : same.wildcard = false :=
          ((declared _ hmem).eq_of_pattern (declared _ hother) hpattern).1.trans halone
        have pattern := hpattern.trans hsame
        exact ⟨same, hmem, pattern, (specifierFor?_exact alone).2 ⟨by rw [hdirectory, hbelow], pattern⟩⟩
  · intro noExact other hother
    have hwild := wildcard_of_not_hasExact hentry hfor noExact
    obtain ⟨rest, hrest, hbelow, hspelled⟩ :=
      (specifierFor?_declared declared hentry hwild).1 hfor
    obtain ⟨hmem, hw, rest', hspelled'⟩ := AliasTable.mem_covering.1 hother
    rcases Nat.le_total other.aliasPrefix.length found.entry.aliasPrefix.length with h | h
    · exact h
    · obtain ⟨more, hmore⟩ := List.prefix_of_prefix_length_le ⟨rest, hspelled⟩ ⟨rest', hspelled'⟩ h
      by_cases hnone : more = []
      · rw [← hmore, hnone, List.append_nil]
      · obtain ⟨same, hsame, hpattern, hdirectory⟩ :=
          hagrees.wild found.entry hentry hwild other hmem hw more hnone hmore.symm
        obtain ⟨hw', hbegin⟩ := (declared _ hsame).eq_of_pattern (declared _ hmem) hpattern
        rw [← hspelled, ← hmore, List.append_assoc, List.append_cancel_left_eq] at hspelled'
        have spells := specifierFor?_extension declared hpath hsame (hw'.trans hw) hdirectory
          (hspelled' ▸ hbelow) (hspelled' ▸ hrest)
        rw [hbegin, ← hmore, List.append_assoc, hspelled', hspelled] at spells
        rw [← hbegin]
        exact aliasPrefix_le_of_spells declared hfound hwild hsame (hw'.trans hw) spells

end Declared

/-- What is found for a module is read as one pattern; this pattern leads back to the module exactly if no
other pattern takes the spelling away, and always where overlapping patterns agree. -/
theorem lookup?_leadsBack_iff (hpath : Canonical path) (hfound : known.table.lookup? path = some found) :
    (∃ pattern, ∀ other, known.table.Selects found.specifier other ↔ other = pattern) ∧
      (known.table.LeadsBack found path ↔ known.table.Untaken found path) ∧
      (known.table.Agrees → known.table.LeadsBack found path) := by
  have declared : ∀ entry ∈ known.table.entries, entry.IsDeclared := fun _ => isDeclared_of_mem
  obtain ⟨hentry, hmatch, _⟩ := bestMatch?_best hfound
  obtain ⟨pattern, hselects⟩ := exists_selects declared hentry (match?_eq_some.1 hmatch).2
  have back := leadsBack_iff_untaken declared hfound
  refine ⟨⟨pattern, fun other => ?_⟩, back, fun hagrees => ?_⟩
  · exact ⟨fun h => selects_unique declared h hselects, fun h => h ▸ hselects⟩
  · exact back.2 (untaken_of_agrees declared hpath hfound hagrees)

def indexAliases : Resolved :=
  ⟨none, some ([("@/*".toList, ["*".toList]), ("@/index".toList, ["./index.ts".toList])], "/p".toList),
    "/p".toList⟩

def indexMatch : AliasMatch := ⟨⟨"@/*".toList, "@/".toList, "/p".toList, true⟩, "@/index".toList⟩

theorem agrees_indexAliases : indexAliases.table.Agrees := by
  have entries : indexAliases.table.entries = [⟨"@/*".toList, "@/".toList, "/p".toList, true⟩,
      ⟨"@/index".toList, "@/index".toList, "/p".toList, false⟩] := by decide
  have first {entry : AliasEntry} (hmem : entry ∈ indexAliases.table.entries)
      (hwild : entry.wildcard = true) : entry = ⟨"@/*".toList, "@/".toList, "/p".toList, true⟩ := by
    rw [entries] at hmem
    exact (List.mem_pair.1 hmem).resolve_right (by rintro rfl; simp at hwild)
  constructor
  · intro entry hentry hwild other hother hwild' more hmore hcovers
    rw [first hentry hwild, first hother hwild'] at hcovers
    exact absurd (List.append_right_eq_self.1 hcovers.symm) hmore
  · intro entry hentry hwild other hother halone more _ hcovers
    have second := hother
    rw [entries] at second
    obtain rfl := (List.mem_pair.1 second).resolve_left (by rintro rfl; simp at halone)
    rw [first hentry hwild] at hcovers ⊢
    have index : "index".toList = more :=
      List.append_cancel_left (show "@/".toList ++ "index".toList = "@/".toList ++ more from hcovers)
    exact ⟨_, hother, rfl, by rw [← index]; decide⟩

theorem indexAliases_leadsBack : Canonical "/p/index".toList ∧
    indexAliases.table.lookup? "/p/index".toList = some indexMatch ∧ indexAliases.table.Agrees ∧
    (∃ pattern, ∀ other, indexAliases.table.Selects indexMatch.specifier other ↔ other = pattern) ∧
    indexAliases.table.LeadsBack indexMatch "/p/index".toList := by
  have canonical : Canonical "/p/index".toList := by decide
  have found : indexAliases.table.lookup? "/p/index".toList = some indexMatch := by decide
  obtain ⟨one, _, back⟩ := lookup?_leadsBack_iff canonical found
  exact ⟨canonical, found, agrees_indexAliases, one, back agrees_indexAliases⟩

def nestedAliases : Resolved :=
  ⟨none, some ([("@/*".toList, ["src/*".toList]), ("@/lib/*".toList, ["other/*".toList])], "/p".toList),
    "/p".toList⟩

def nestedMatch : AliasMatch := ⟨⟨"@/*".toList, "@/".toList, "/p/src".toList, true⟩, "@/lib/a".toList⟩

/-- The reader takes the longer pattern, which leads elsewhere. -/
theorem nestedAliases_captured : Canonical "/p/src/lib/a".toList ∧
    nestedAliases.table.lookup? "/p/src/lib/a".toList = some nestedMatch ∧
    nestedAliases.table.Selects nestedMatch.specifier "@/lib/*".toList ∧
    ¬ nestedAliases.table.LeadsBack nestedMatch "/p/src/lib/a".toList := by
  have found : nestedAliases.table.lookup? "/p/src/lib/a".toList = some nestedMatch := by decide
  have declared : ∀ entry ∈ nestedAliases.table.entries, entry.IsDeclared :=
    fun _ => isDeclared_of_mem
  have longer : (⟨"@/lib/*".toList, "@/lib/".toList, "/p/other".toList, true⟩ : AliasEntry) ∈
      nestedAliases.table.covering nestedMatch.specifier := by decide
  refine ⟨by decide, found, .longest (by decide) longer (by decide), fun back => ?_⟩
  have untaken := (leadsBack_iff_untaken declared found).1 back
  exact absurd (untaken.longer (by decide) _ longer) (by decide)

end TidyImports.Config
