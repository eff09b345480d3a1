import TidyImports.Config.Alias
import TidyImports.Proofs.Path.Canonical

/-! Single aliases. The pattern of a declared alias tells all of it but its directory. An alias with a star
spells what stands below its directory, one without a star spells one module; of all aliases that spell
a module one with the longest directory is found. -/
namespace TidyImports.Config

open TidyImports.Path (trimSlashes)

variable {base pattern target path specifier : Text} {entry other : AliasEntry} {found : AliasMatch}

/-- The aliases that declarations make: of a pattern and a target without a star, or with one at the end
of both. -/
inductive Declares (base : Text) : (pattern target : Text) → AliasEntry → Prop
  | exact {pattern target : Text} (plain : '*' ∉ pattern) (plainTarget : '*' ∉ target) :
    Declares base pattern target ⟨pattern, pattern, moduleStem (Path.join base [target]), false⟩
  | wild {start directory : Text} (starts : start ≠ []) (plain : '*' ∉ start)
    (plainTarget : '*' ∉ directory) : Declares base (start ++ ['*']) (directory ++ ['*'])
      ⟨start ++ ['*'], start, trimSlashes (Path.join base [directory]), true⟩

theorem declares_of_built (h : buildEntry? pattern target base = some entry) :
    Declares base pattern target entry := by
  have star {s t : Text} (hcount : t.count '*' = 1) (hstrip : Text.stripTail? ['*'] t = some s) :
      '*' ∉ s ∧ t = s ++ ['*'] := by
    obtain rfl := Text.stripTail?_eq_some.1 hstrip
    rw [List.count_append, List.count_singleton_self] at hcount
    exact ⟨List.count_eq_zero.1 (by omega), rfl⟩
  unfold buildEntry? at h
  split at h
  · next hpattern htarget =>
    obtain rfl := Option.some.inj h
    exact .exact (List.count_eq_zero.1 hpattern) (List.count_eq_zero.1 htarget)
  · next hpattern htarget =>
    split at h
    · simp at h
    · next start directory hne hstart hdirectory =>
      obtain ⟨hs, rfl⟩ := star hpattern hstart
      obtain ⟨hd, rfl⟩ := star htarget hdirectory
      obtain rfl := Option.some.inj h
      exact .wild hne hs hd
    · simp at h
  · simp at h

/-- The pattern of a declared alias tells the rest of it but the directory, which has no slash at its
end. -/
structure AliasEntry.IsDeclared (entry : AliasEntry) : Prop where
  pattern : entry.pattern = if entry.wildcard then entry.aliasPrefix ++ ['*'] else entry.aliasPrefix
  plain : '*' ∉ entry.aliasPrefix
  starts : entry.wildcard = true → entry.aliasPrefix ≠ []
  trimmed : entry.wildcard = true → trimSlashes entry.baseDir = entry.baseDir

theorem Declares.isDeclared (h : Declares base pattern target entry) : entry.IsDeclared := by
  cases h with
  | exact plain => exact ⟨rfl, plain, by simp, by simp⟩
  | wild starts plain => exact ⟨rfl, plain, fun _ => starts, fun _ => Path.trimSlashes_trimSlashes _⟩

theorem Declares.pattern_eq (h : Declares base pattern target entry) : entry.pattern = pattern := by
  cases h <;> rfl

theorem AliasEntry.IsDeclared.eq_of_pattern (h : entry.IsDeclared) (hother : other.IsDeclared)
    (same : entry.pattern = other.pattern) :
    entry.wildcard = other.wildcard ∧ entry.aliasPrefix = other.aliasPrefix := by
  rw [h.pattern, hother.pattern] at same
  have star := h.plain
  have starOther := hother.plain
  cases hw : entry.wildcard <;> cases hwo : other.wildcard <;>
    simp only [hw, hwo, Bool.false_eq_true, if_false, if_true] at same
  · exact ⟨rfl, same⟩
  · rw [same] at star
    simp at star
  · rw [← same] at starOther
    simp at starOther
  · exact ⟨rfl, List.append_cancel_right same⟩

theorem specifierFor?_wildcard (hwild : entry.wildcard = true) :
    entry.specifierFor? path = some specifier ↔ ∃ rest, rest ≠ [] ∧
      path = trimSlashes entry.baseDir ++ '/' :: rest ∧ entry.aliasPrefix ++ rest = specifier := by
  rw [AliasEntry.specifierFor?, if_pos hwild]
  constructor
  · intro h
    split at h
    · exact absurd h (by simp)
    · exact absurd h (by simp)
    · next rest hrest hwithin =>
      exact ⟨rest, hrest, (Path.relativeWithin?_eq_some hrest).1 hwithin, Option.some.inj h⟩
  · rintro ⟨rest, hne, hpath, hspecifier⟩
    obtain ⟨c, rest, rfl⟩ := List.exists_cons_of_ne_nil hne
    rw [(Path.relativeWithin?_eq_some hne).2 hpath]
    exact congrArg some hspecifier

theorem specifierFor?_exact (halone : entry.wildcard = false) :
    entry.specifierFor? path = some specifier ↔
      moduleStem path = entry.baseDir ∧ entry.pattern = specifier := by
  simp [AliasEntry.specifierFor?, halone]

theorem match?_eq_some : entry.match? path = some found ↔
    found.entry = entry ∧ entry.specifierFor? path = some found.specifier := by
  rw [AliasEntry.match?, Option.map_eq_some_iff]
  constructor
  · rintro ⟨specifier, hfor, rfl⟩
    exact ⟨rfl, hfor⟩
  · rintro ⟨rfl, hfor⟩
    exact ⟨found.specifier, hfor, rfl⟩

theorem bestMatch?_eq_none {entries : List AliasEntry} (h : bestMatch? path entries = none) :
    ∀ other ∈ entries, other.match? path = none := by
  induction entries with
  | nil => simp
  | cons first rest ih =>
      rw [bestMatch?] at h
      cases hfirst : first.match? path with
      | none =>
          simp only [hfirst] at h
          exact List.forall_mem_cons.2 ⟨hfirst, ih h⟩
      | some _ =>
          cases hrest : bestMatch? path rest <;> simp [hfirst, hrest] at h

theorem bestMatch?_first {entries : List AliasEntry} (h : bestMatch? path entries = some found) :
    found.entry.match? path = some found ∧ ∃ before after, entries = before ++ found.entry :: after ∧
      (∀ other ∈ before, (other.match? path).isSome →
        other.baseDir.width < found.entry.baseDir.width) ∧
      (∀ other ∈ after, (other.match? path).isSome →
        other.baseDir.width ≤ found.entry.baseDir.width) := by
  induction entries generalizing found with
  | nil => simp [bestMatch?] at h
  | cons first rest ih =>
      rw [bestMatch?] at h
      cases hfirst : first.match? path with
      | none =>
          simp only [hfirst] at h
          obtain ⟨hmatch, before, after, rfl, hbefore, hafter⟩ := ih h
          exact ⟨hmatch, first :: before, after, rfl,
            List.forall_mem_cons.2 ⟨by simp [hfirst], hbefore⟩, hafter⟩
      | some here =>
          obtain rfl : here.entry = first := (match?_eq_some.1 hfirst).1
          cases hrest : bestMatch? path rest with
          | none =>
              simp only [hfirst, hrest, Option.some.injEq] at h
              subst h
              refine ⟨hfirst, [], rest, rfl, by simp, fun other hother hsome => ?_⟩
              rw [bestMatch?_eq_none hrest other hother] at hsome
              simp at hsome
          | some later =>
              obtain ⟨hmatch, before, after, rfl, hbefore, hafter⟩ := ih hrest
              simp only [hfirst, hrest, Option.some.injEq, better] at h
              split at h
              · next hlonger =>
                subst h
                exact ⟨hmatch, here.entry :: before, after, rfl,
                  List.forall_mem_cons.2 ⟨fun _ => hlonger, hbefore⟩, hafter⟩
              · next hshorter =>
                subst h
                rw [Nat.not_lt] at hshorter
                refine ⟨hfirst, [], _, rfl, by simp, List.forall_mem_append.2 ⟨?_,
                  List.forall_mem_cons.2 ⟨fun _ => hshorter, ?_⟩⟩⟩
                · exact fun other hother hsome => (hbefore other hother hsome).le.trans hshorter
                · exact fun other hother hsome => (hafter other hother hsome).trans hshorter

theorem bestMatch?_best {entries : List AliasEntry} (h : bestMatch? path entries = some found) :
    found.entry ∈ entries ∧ found.entry.match? path = some found ∧
      ∀ other ∈ entries, (other.match? path).isSome →
        other.baseDir.width ≤ found.entry.baseDir.width := by
  obtain ⟨hmatch, before, after, rfl, hbefore, hafter⟩ := bestMatch?_first h
  refine ⟨by simp, hmatch, List.forall_mem_append.2 ⟨?_, List.forall_mem_cons.2 ⟨fun _ => Nat.le_refl _,
    hafter⟩⟩⟩
  exact fun other hother hsome => Nat.le_of_lt (hbefore other hother hsome)

theorem bestMatch?_of_first {before after : List AliasEntry}
    (hmatch : found.entry.match? path = some found)
    (hbefore : ∀ other ∈ before, (other.match? path).isSome →
      other.baseDir.width < found.entry.baseDir.width)
    (hafter : ∀ other ∈ after, (other.match? path).isSome →
      other.baseDir.width ≤ found.entry.baseDir.width) :
    bestMatch? path (before ++ found.entry :: after) = some found := by
  induction before with
  | nil =>
      rw [List.nil_append, bestMatch?, hmatch]
      cases hrest : bestMatch? path after with
      | none => rfl
      | some later =>
          obtain ⟨hmem, hlater, -⟩ := bestMatch?_best hrest
          have shorter := hafter later.entry hmem (by rw [hlater]; rfl)
          simp only [better, if_neg (Nat.not_lt.2 shorter)]
  | cons first before ih =>
      obtain ⟨hhead, htail⟩ := List.forall_mem_cons.1 hbefore
      rw [List.cons_append, bestMatch?, ih htail]
      cases hfirst : first.match? path with
      | none => rfl
      | some here =>
          obtain rfl : here.entry = first := (match?_eq_some.1 hfirst).1
          have longer := hhead (by rw [hfirst]; rfl)
          simp only [better, if_pos longer]

end TidyImports.Config
