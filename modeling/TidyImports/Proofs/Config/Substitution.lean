import TidyImports.Proofs.Config.Entries
import TidyImports.Proofs.Path.Below

/-! What an alias with a star means. A text in the place of the star in the target, followed from the
base, leads to the module that is spelled with this text in the place of the star in the pattern. So it
does wherever the star stands alone behind a slash; where it continues a name, the spelling means a
module beside the one that is spelled. -/
namespace TidyImports.Config

open TidyImports.Path (isRooted Canonical IsOpen)

variable {base pattern target path specifier text directory : Text} {entry : AliasEntry}

def substitute (text pattern : Text) : Text :=
  pattern.flatMap fun c => if c = '*' then text else [c]

theorem substitute_star (text : Text) (h : '*' ∉ directory) :
    substitute text (directory ++ ['*']) = directory ++ text := by
  induction directory with
  | nil => simp [substitute]
  | cons c directory ih =>
      rw [List.mem_cons, not_or] at h
      have behind := ih h.2
      rw [substitute] at behind ⊢
      rw [List.cons_append, List.flatMap_cons, if_neg (Ne.symm h.1), behind]
      rfl

/-- Whether a text in the place of the star makes segments of its own: before the star nothing stands
but a drive or a directory with its slash, and the text is no path of its own. -/
def StarStandsAlone (target text : Text) : Prop :=
  ∃ directory, target = directory ++ ['*'] ∧ IsOpen directory ∧
    (directory = [] → isRooted text = false)

theorem starStandsAlone_iff : StarStandsAlone (directory ++ ['*']) text ↔
    IsOpen directory ∧ (directory = [] → isRooted text = false) := by
  constructor
  · rintro ⟨other, hother, h⟩
    rwa [List.append_cancel_right hother]
  · exact fun h => ⟨directory, rfl, h⟩

/-- The spelling of a module is the pattern with some text in the place of the star, and the target with
this text leads back to the module exactly if the star stands alone in it. -/
theorem specifierFor?_names_iff (hbase : isRooted base = true)
    (hentry : buildEntry? pattern target base = some entry) (hwild : entry.wildcard = true)
    (hpath : Canonical path) (hspecifier : entry.specifierFor? path = some specifier) :
    ∃ text, text ≠ [] ∧ specifier = substitute text pattern ∧
      (Path.join base [substitute text target] = path ↔ StarStandsAlone target text) := by
  obtain ⟨text, htext, rfl, rfl⟩ := (specifierFor?_wildcard hwild).1 hspecifier
  cases declares_of_built hentry with
  | exact => exact absurd hwild (by simp)
  | wild starts plain plainTarget =>
      simp only [Path.trimSlashes_trimSlashes] at hpath ⊢
      refine ⟨text, htext, (substitute_star text plain).symm, ?_⟩
      rw [substitute_star text plainTarget, starStandsAlone_iff]
      exact Path.join_append_iff hbase hpath htext

def foldedEntry : AliasEntry := ⟨"@/*".toList, "@/".toList, "/p/src".toList, true⟩

theorem foldedEntry_names : isRooted "/p".toList = true ∧
    buildEntry? "@/*".toList "lib\\./../src//*".toList "/p".toList = some foldedEntry ∧
    foldedEntry.wildcard = true ∧ Canonical "/p/src/a".toList ∧
    foldedEntry.specifierFor? "/p/src/a".toList = some "@/a".toList ∧
    ∃ text, text ≠ [] ∧ "@/a".toList = substitute text "@/*".toList ∧
      (Path.join "/p".toList [substitute text "lib\\./../src//*".toList] = "/p/src/a".toList ↔
        StarStandsAlone "lib\\./../src//*".toList text) := by
  have entry : buildEntry? "@/*".toList "lib\\./../src//*".toList "/p".toList = some foldedEntry := by
    decide
  have spelled : foldedEntry.specifierFor? "/p/src/a".toList = some "@/a".toList := by decide
  have canonical : Canonical "/p/src/a".toList := by decide
  exact ⟨by decide, entry, rfl, canonical, spelled,
    specifierFor?_names_iff (by decide) entry rfl canonical spelled⟩

example : Path.join "/p".toList [substitute "a".toList "lib\\./../src//*".toList] =
    "/p/src/a".toList := by decide

def fusedEntry : AliasEntry := ⟨"@/*".toList, "@/".toList, "/p/lib-".toList, true⟩

/-- No text in the place of the star leads to the module that is spelled. -/
theorem fusedEntry_names_other : isRooted "/p".toList = true ∧
    buildEntry? "@/*".toList "lib-*".toList "/p".toList = some fusedEntry ∧
    fusedEntry.wildcard = true ∧ Canonical "/p/lib-/a".toList ∧
    fusedEntry.specifierFor? "/p/lib-/a".toList = some "@/a".toList ∧
    ¬ ∃ text, text ≠ [] ∧ "@/a".toList = substitute text "@/*".toList ∧
      Path.join "/p".toList [substitute text "lib-*".toList] = "/p/lib-/a".toList := by
  refine ⟨by decide, by decide, rfl, by decide, by decide, ?_⟩
  rintro ⟨text, -, hspelled, hjoin⟩
  have star : "@/*".toList = "@/".toList ++ ['*'] := rfl
  have source : "@/a".toList = "@/".toList ++ ['a'] := rfl
  rw [star, source, substitute_star text (by decide)] at hspelled
  obtain rfl : ['a'] = text := List.append_cancel_left hspelled
  exact absurd hjoin (by decide)

end TidyImports.Config
