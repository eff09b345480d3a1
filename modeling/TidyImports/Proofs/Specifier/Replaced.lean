import TidyImports.Proofs.Config.Entries
import TidyImports.Specifier.Replacement

/-! What specifiers are replaced by. Unless the options spell it with a dot, no replacement is relative
again, so a specifier that was replaced stays as it is the next time. -/
namespace TidyImports.Config

variable {path specifier : Text} {entry : AliasEntry}

def AliasEntry.IsUndotted (entry : AliasEntry) : Prop :=
  ∃ pattern target base, buildEntry? pattern target base = some entry ∧ pattern.head? ≠ some '.'

theorem AliasEntry.IsUndotted.head?_ne_dot (h : entry.IsUndotted)
    (hfor : entry.specifierFor? path = some specifier) : specifier.head? ≠ some '.' := by
  obtain ⟨pattern, target, base, hbuild, hpattern⟩ := h
  have declares := declares_of_built hbuild
  have declared := declares.isDeclared
  rw [← declares.pattern_eq] at hpattern
  cases hwild : entry.wildcard with
  | false =>
      rw [← ((specifierFor?_exact hwild).1 hfor).2]
      exact hpattern
  | true =>
      obtain ⟨rest, _, _, rfl⟩ := (specifierFor?_wildcard hwild).1 hfor
      rw [declared.pattern, if_pos hwild,
        List.head?_append_of_ne_nil _ (declared.starts hwild)] at hpattern
      rw [List.head?_append_of_ne_nil _ (declared.starts hwild)]
      exact hpattern

end TidyImports.Config

namespace TidyImports.Specifier

variable {specifier : Text}

theorem not_isRelative_of_head? (h : specifier.head? ≠ some '.') : isRelative specifier = false := by
  cases specifier with
  | nil => rfl
  | cons c rest =>
      have hc : c ≠ '.' := fun hc => h (by rw [hc]; rfl)
      simp [isRelative, Text.startsWith, Text.stripHead?, hc, Ne.symm hc]

theorem exists_dots_of_isRelative (h : isRelative specifier = true) :
    ∃ p ∈ specifier.pieces '/', p = ['.'] ∨ p = ['.', '.'] := by
  simp only [isRelative, Text.startsWith, Bool.or_eq_true, beq_iff_eq, Option.isSome_iff_exists] at h
  rcases h with ((rfl | rfl) | ⟨rest, hrest⟩) | ⟨rest, hrest⟩
  · exact ⟨['.'], by decide, .inl rfl⟩
  · exact ⟨['.', '.'], by decide, .inr rfl⟩
  · rw [Text.stripHead?_eq_some.1 hrest]
    exact ⟨['.'], by simp [Text.pieces], .inl rfl⟩
  · rw [Text.stripHead?_eq_some.1 hrest]
    exact ⟨['.', '.'], by simp [Text.pieces], .inr rfl⟩

namespace Resolver

variable {r : Resolver} {s : ModuleSpecifier} {found : Replacement}

theorem absolute?_eq_some {path : Text} : r.absolute? path = some found ↔
    ∃ start rest, r.options.absolutePathPrefix = some start ∧ rest ≠ [] ∧
      path = Path.trimSlashes r.projectRoot ++ '/' :: rest ∧ found = ⟨.absolute, start ++ rest⟩ := by
  rw [Resolver.absolute?]
  constructor
  · intro h
    split at h
    · next start c rest hstart hbelow =>
      have hrest := List.cons_ne_nil c rest
      exact ⟨start, c :: rest, hstart, hrest, (Path.relativeWithin?_eq_some hrest).1 hbelow,
        (Option.some.inj h).symm⟩
    · cases h
  · rintro ⟨start, rest, hstart, hrest, hpath, rfl⟩
    obtain ⟨c, rest, rfl⟩ := List.exists_cons_of_ne_nil hrest
    rw [hstart, (Path.relativeWithin?_eq_some hrest).2 hpath]

theorem resolve?_eq (r : Resolver) (s : ModuleSpecifier) : r.resolve? s =
    if s.kind = .relative ∧ r.isShallow s.targetModule = false then
      match r.aliases.lookup? (r.pathOf s.targetModule) with
      | some aliased => some ⟨.aliased, aliased.specifier⟩
      | none => r.absolute? (r.pathOf s.targetModule)
    else none := by
  rw [resolve?, ← ite_not]
  refine if_congr ?_ rfl rfl
  simp only [ne_eq, Bool.or_eq_true, decide_eq_true_eq, not_or, not_not, Bool.not_eq_true]

theorem resolve?_eq_some (h : r.resolve? s = some found) :
    s.kind = .relative ∧ r.isShallow s.targetModule = false ∧
      ((∃ aliased, r.aliases.lookup? (r.pathOf s.targetModule) = some aliased ∧
          found.text = aliased.specifier) ∨
        r.aliases.lookup? (r.pathOf s.targetModule) = none ∧
          r.absolute? (r.pathOf s.targetModule) = some found) := by
  rw [resolve?_eq] at h
  split at h
  · next asked =>
    refine ⟨asked.1, asked.2, ?_⟩
    split at h
    · next aliased hlookup => exact .inl ⟨aliased, hlookup, by rw [← Option.some.inj h]⟩
    · next hlookup => exact .inr ⟨hlookup, h⟩
  · cases h

theorem newText?_eq_some {text : Text} (h : r.newText? s = some text) :
    ∃ found, r.resolve? s = some found ∧ found.text = text ∧ text ≠ s.targetModule := by
  rw [newText?] at h
  split at h
  · next found hfound =>
    split at h
    · cases h
    · next other =>
      obtain rfl := Option.some.inj h
      exact ⟨found, hfound, rfl, other⟩
  · cases h

/-- A resolver whose replacements do not start with a dot of their own. -/
structure IsUndotted (r : Resolver) : Prop where
  rooted : Path.isRooted r.sourceDir = true
  start : ∀ start, r.options.absolutePathPrefix = some start → start.head? ≠ some '.'
  aliases : ∀ entry ∈ r.aliases.entries, entry.IsUndotted

theorem IsUndotted.absolute? (h : r.IsUndotted) {path : Text} (hpath : Path.Canonical path)
    (hfound : r.absolute? path = some found) : isRelative found.text = false := by
  obtain ⟨start, rest, hstart, hrest, hbelow, rfl⟩ := absolute?_eq_some.1 hfound
  -- An empty prefix leaves a part of a canonical path.
  cases start with
  | nil =>
      rw [← Bool.not_eq_true]
      intro relative
      obtain ⟨p, hp, hdots⟩ := exists_dots_of_isRelative relative
      have below : Text.pieces '/' rest <:+ path.pieces '/' := by
        rw [hbelow, Text.pieces_append_cons]
        exact List.suffix_append _ _
      obtain ⟨hdot, htwo⟩ := hpath.ne_dots p (below.subset hp)
      exact hdots.elim hdot htwo
  | cons d start => exact not_isRelative_of_head? (h.start (d :: start) hstart)

theorem IsUndotted.resolve? (h : r.IsUndotted) (hfound : r.resolve? s = some found) :
    isRelative found.text = false := by
  rcases (resolve?_eq_some hfound).2.2 with ⟨aliased, hlookup, htext⟩ | ⟨_, habsolute⟩
  · obtain ⟨hentry, hmatch, _⟩ := Config.bestMatch?_best hlookup
    rw [htext]
    exact not_isRelative_of_head?
      ((h.aliases _ hentry).head?_ne_dot (Config.match?_eq_some.1 hmatch).2)
  · exact h.absolute? (Path.canonical_join h.rooted _) habsolute

theorem IsUndotted.newText?_again (h : r.IsUndotted) {t : ModuleSpecifier}
    (hs : s.kind = classify s.targetModule) (ht : t.kind = classify t.targetModule)
    (hsame : t.targetModule = (r.newText? s).getD s.targetModule) : r.newText? t = none := by
  cases hnew : r.newText? s with
  | none =>
      rw [hnew, Option.getD_none] at hsame
      have same : r.resolve? t = r.resolve? s := by
        rw [Resolver.resolve?, Resolver.resolve?, ht, hs, hsame]
      rw [newText?] at hnew ⊢
      rw [same, hsame]
      exact hnew
  | some text =>
      rw [hnew, Option.getD_some] at hsame
      have notRelative : isRelative t.targetModule = false := by
        obtain ⟨found, hfound, htext, _⟩ := newText?_eq_some hnew
        rw [hsame, ← htext]
        exact h.resolve? hfound
      have kind : t.kind ≠ .relative := by
        rw [ht, classify, if_neg (by simp [notRelative])]
        split <;> simp
      rw [newText?, Resolver.resolve?, if_pos (by simp [kind])]

end Resolver

end TidyImports.Specifier
