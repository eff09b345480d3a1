import TidyImports.Proofs.Path.Letters
import TidyImports.Proofs.Script.Literals
import TidyImports.Proofs.Specifier.Placement
import TidyImports.Proofs.Specifier.Replaced

/-! What becomes of a literal when its specifier is replaced. The new specifier comes between the old
quotes as it is, without an escape, so the literal stays one literal with the right value exactly if the
new specifier is plain. It is spelled with the letters of the prefix or of an alias, of the directory of
the file and of the value of the old literal, in which nothing is escaped any more. -/
namespace TidyImports.Specifier

open Document Script

variable {document fileName : Text} {block : ScriptBlock} {r : Resolver} {s : ModuleSpecifier}
  {found : Replacement} {quote : Char}

theorem stripIndexSegment_subset (specifier : Text) :
    stripIndexSegment specifier ⊆ '/' :: specifier := by
  unfold stripIndexSegment
  split
  · simp
  · next directory _ htail =>
    rw [Text.stripTail?_eq_some.1 htail]
    exact List.subset_cons_of_subset '/' (List.subset_append_left _ _)
  · exact List.subset_cons_self '/' specifier

theorem FrameworkMode.normalize_subset (mode : FrameworkMode) (specifier : Text) :
    mode.normalize specifier ⊆ '/' :: specifier := by
  cases mode
  exact List.Subset.trans (stripIndexSegment_subset _)
    (List.cons_subset_cons '/' (Path.stripModuleExtension_subset specifier))

def front (entry : Config.AliasEntry) : Text :=
  if entry.wildcard then entry.aliasPrefix else entry.pattern

namespace Resolver

def fronts (r : Resolver) : List Text :=
  r.options.absolutePathPrefix.toList ++ r.aliases.entries.map front

theorem pathOf_subset (r : Resolver) (target : Text) : r.pathOf target ⊆
    '/' :: (Path.normalizeSeparators r.sourceDir ++ Path.normalizeSeparators target) := by
  have same (spelled : Text) (h : spelled ⊆ '/' :: target) : Path.join r.sourceDir [spelled] ⊆
      '/' :: (Path.normalizeSeparators r.sourceDir ++ Path.normalizeSeparators target) := by
    have letters : Path.normalizeSeparators spelled ⊆ '/' :: Path.normalizeSeparators target :=
      List.map_subset _ h
    intro c hc
    have either := Path.join_subset r.sourceDir spelled hc
    have spelling := @letters c
    simp only [List.mem_cons, List.mem_append] at either spelling ⊢
    tauto
  unfold pathOf
  simp only
  split
  · next mode _ => exact same _ (mode.normalize_subset target)
  · exact same target (List.subset_cons_self '/' target)

theorem spelling_of_resolve? (h : r.resolve? s = some found) :
    ∃ first ∈ r.fronts, ∃ rest, rest ⊆ r.pathOf s.targetModule ∧ found.text = first ++ rest := by
  have below {base rest path : Text} (hpath : path = base ++ '/' :: rest) : rest ⊆ path := by
    rw [hpath]
    exact fun c hc => List.mem_append_right base (List.mem_cons_of_mem '/' hc)
  rcases (resolve?_eq_some h).2.2 with ⟨aliased, hlookup, htext⟩ | ⟨_, habsolute⟩
  · obtain ⟨hentry, hmatch, _⟩ := Config.bestMatch?_best hlookup
    have hfront : front aliased.entry ∈ r.fronts :=
      List.mem_append_right _ (List.mem_map_of_mem hentry)
    refine ⟨_, hfront, ?_⟩
    rw [htext, front]
    have covers := (Config.match?_eq_some.1 hmatch).2
    cases hwild : aliased.entry.wildcard with
    | true =>
        obtain ⟨rest, _, hpath, hspecifier⟩ := (Config.specifierFor?_wildcard hwild).1 covers
        exact ⟨rest, below hpath, hspecifier.symm⟩
    | false =>
        have spelled := ((Config.specifierFor?_exact hwild).1 covers).2
        exact ⟨[], List.nil_subset _, by simpa using spelled.symm⟩
  · obtain ⟨start, rest, hstart, _, hpath, rfl⟩ := absolute?_eq_some.1 habsolute
    have hfront : start ∈ r.fronts := List.mem_append_left _ (by simp [hstart])
    exact ⟨start, hfront, rest, below hpath, rfl⟩

/-- All that the replacement of a specifier is spelled with may stand between quotes. -/
structure SpellsPlain (r : Resolver) (quote : Char) (s : ModuleSpecifier) : Prop where
  fronts : ∀ first ∈ r.fronts, IsPlain quote first
  directory : IsPlain quote (Path.normalizeSeparators r.sourceDir)
  target : IsPlain quote (Path.normalizeSeparators s.targetModule)

theorem SpellsPlain.resolve? (h : r.SpellsPlain quote s) (hquote : quote = '"' ∨ quote = '\'')
    (hfound : r.resolve? s = some found) : IsPlain quote found.text := by
  obtain ⟨first, hfirst, rest, hrest, htext⟩ := spelling_of_resolve? hfound
  have slash : quote ≠ '/' := by rcases hquote with rfl | rfl <;> decide
  have letters : IsPlain quote ('/' :: (Path.normalizeSeparators r.sourceDir ++
      Path.normalizeSeparators s.targetModule)) :=
    isPlain_cons.2 ⟨⟨slash, by decide⟩, h.directory.append h.target⟩
  rw [htext]
  exact (h.fronts first hfirst).append
    (letters.of_subset (List.Subset.trans hrest (r.pathOf_subset s.targetModule)))

end Resolver

def StandsAt (document : Text) (start stop : Nat) (quote : Char) (rawText : Text) : Prop :=
  ∃ before old behind : Text, document = before ++ (quote :: old ++ quote :: behind) ∧
    rawText = quote :: old ++ [quote] ∧ start = before.width + 1 ∧ stop = start + old.width

theorem standsAt_ofLiteral (fileName : Text) {literal : SourceLiteral}
    (h : literal.Quoted block.text) (place : block.PlacedIn document) :
    ∃ quote, (quote = '"' ∨ quote = '\'') ∧
      StandsAt document (ofLiteral fileName block literal).span.start
        (ofLiteral fileName block literal).span.stop quote
        (ofLiteral fileName block literal).rawText := by
  obtain ⟨hstart, hstop, _⟩ := ofLiteral_between fileName h place
  obtain ⟨quote, old, rest, hquote, hplace, hlength⟩ := h
  obtain ⟨last, hblock⟩ := place
  have hsize : quote.utf8Size = 1 := by rcases hquote with rfl | rfl <;> rfl
  have whole : Text.width (quote :: old ++ [quote]) = literal.span.length := by
    rw [hlength, List.cons_append, Text.width_cons, Text.width_append, Text.width_cons, hsize,
      Text.width_nil]
    omega
  have hraw : (ofLiteral fileName block literal).rawText = quote :: old ++ [quote] := by
    have here : block.text.RestAt literal.span.start ((quote :: old ++ [quote]) ++ rest) := by
      simpa using hplace
    rw [ofLiteral, Edit.Span.stop, ← whole]
    exact here.slice_eq
  obtain ⟨before, hdocument, hbefore⟩ := hblock.inner hplace
  have hliteral : literal.span.stop = literal.span.start + literal.span.length := rfl
  refine ⟨quote, hquote, before, old, rest ++ last, ?_, hraw, ?_, ?_⟩
  · simpa using hdocument.symm
  · omega
  · omega

/-- A change puts the text that is chosen for a collected specifier between the quotes of its
literal. -/
structure Rewrites (r : Resolver) (fileName : Text) (kind : Document.Kind) (document : Text)
    (c : Edit.Change) (s : ModuleSpecifier) (quote : Char) : Prop where
  collected : ∃ block ∈ scriptBlocks kind document, ∃ specifiers,
    collect fileName block = .ok specifiers ∧ s ∈ specifiers
  quoted : quote = '"' ∨ quote = '\''
  placed : StandsAt document c.start c.stop quote s.rawText
  chosen : (r.resolve? s).map Replacement.text = some c.text

theorem exists_rewrites {kind : Document.Kind} {changes : List Edit.Change}
    (h : (r.document fileName kind document).outcome = .ok changes) :
    ∀ c ∈ changes, ∃ s quote, Rewrites r fileName kind document c s quote := by
  obtain ⟨lists, rfl, each⟩ := blocks_eq_ok h
  intro c hc
  obtain ⟨s, hs, hchange⟩ := List.mem_filterMap.1 hc
  obtain ⟨specifiers, hspecifiers, hs⟩ := List.mem_flatten.1 hs
  obtain ⟨block, hblock, hcollect⟩ := Edit.exists_of_forall₂ each specifiers hspecifiers
  obtain ⟨program, hparse, rfl⟩ := collect_eq_ok hcollect
  obtain ⟨statement, hstatement, hsource⟩ := List.mem_filterMap.1 hs
  obtain ⟨literal, hliteral, rfl⟩ := Option.map_eq_some_iff.1 hsource
  have placed := (inOrder_of_parse hparse).placed statement hstatement
  obtain ⟨quote, hquote, hstands⟩ := standsAt_ofLiteral fileName
    (placed.sourced literal hliteral).quoted ((inOrder_scriptBlocks kind document).placed block hblock)
  obtain ⟨hstart, hstop⟩ := start_stop_of_change? hchange
  rw [← hstart, ← hstop] at hstands
  obtain ⟨text, hnew, rfl⟩ := Option.map_eq_some_iff.1 hchange
  obtain ⟨found, hfound, rfl, _⟩ := Resolver.newText?_eq_some hnew
  exact ⟨_, quote, ⟨block, hblock, _, hcollect, hs⟩, hquote, hstands, by rw [hfound]; rfl⟩

/-- Every change of a resolver puts the text that it chose into a literal and keeps both quotes. What
comes out is one literal with that text as its value exactly if the text holds neither the quote nor a
backslash nor a line break. That is so if the prefix and the aliases, the directory of the file and the
value of the old literal hold none of these, up to backslashes that separate segments. -/
theorem rewritten_literal_iff {kind : Document.Kind} {changes : List Edit.Change}
    (h : (r.document fileName kind document).outcome = .ok changes) :
    ∀ c ∈ changes, ∃ s quote, Rewrites r fileName kind document c s quote ∧
      (∀ rest, scanToken? (quote :: c.text ++ quote :: rest) = some (.string c.text, rest) ↔
        IsPlain quote c.text) ∧
      (r.SpellsPlain quote s → IsPlain quote c.text) := by
  intro c hc
  obtain ⟨s, quote, rewrites⟩ := exists_rewrites h c hc
  refine ⟨s, quote, rewrites, scanToken?_literal_iff rewrites.quoted, fun plain => ?_⟩
  obtain ⟨found, hfound, htext⟩ := Option.map_eq_some_iff.1 rewrites.chosen
  exact htext ▸ plain.resolve? rewrites.quoted hfound

def aliasResolver : Resolver :=
  ⟨.none, ⟨[⟨"@/*".toList, "@/".toList, "/p".toList, true⟩], none, none⟩, "/p".toList,
    "/p/src".toList⟩

def doubleQuoted : Text := "import a from \"../it's\"".toList

def doubleSpecifier : ModuleSpecifier :=
  ⟨"\"../it's\"".toList, .relative, "a.ts".toList, "../it's".toList, ⟨15, 7⟩⟩

theorem doubleQuoted_rewritten :
    collect "a.ts".toList ⟨0, doubleQuoted, .ts, false⟩ = .ok [doubleSpecifier] ∧
      aliasResolver.SpellsPlain '"' doubleSpecifier ∧
      (aliasResolver.document "a.ts".toList (.script .ts) doubleQuoted).outcome =
        .ok [.replace 15 22 "@/it's".toList] ∧
      ∃ s quote, Rewrites aliasResolver "a.ts".toList (.script .ts) doubleQuoted
          (.replace 15 22 "@/it's".toList) s quote ∧
        (∀ rest, scanToken? (quote :: "@/it's".toList ++ quote :: rest) =
          some (.string "@/it's".toList, rest) ↔ IsPlain quote "@/it's".toList) ∧
        (aliasResolver.SpellsPlain quote s → IsPlain quote "@/it's".toList) := by
  have run : (aliasResolver.document "a.ts".toList (.script .ts) doubleQuoted).outcome =
      .ok [.replace 15 22 "@/it's".toList] := eq_ok_of_toOption (by decide +kernel)
  exact ⟨eq_ok_of_toOption (by decide +kernel), ⟨by decide, by decide, by decide⟩, run,
    rewritten_literal_iff run _ List.mem_cons_self⟩

def singleQuoted : Text := "import a from '../it\\'s'".toList

def singleSpecifier : ModuleSpecifier :=
  ⟨"'../it\\'s'".toList, .relative, "a.ts".toList, "../it's".toList, ⟨15, 8⟩⟩

/-- Between single quotes the quote of the old literal is escaped. That of the new one is not and ends
the literal too early. -/
theorem singleQuoted_cut :
    (aliasResolver.document "a.ts".toList (.script .ts) singleQuoted).outcome =
        .ok [.replace 15 23 "@/it's".toList] ∧
      Rewrites aliasResolver "a.ts".toList (.script .ts) singleQuoted
        (.replace 15 23 "@/it's".toList) singleSpecifier '\'' ∧
      scanToken? ('\'' :: "@/it's".toList ++ ['\'']) = some (.string "@/it".toList, "s'".toList) := by
  have collected : collect "a.ts".toList ⟨0, singleQuoted, .ts, false⟩ = .ok [singleSpecifier] :=
    eq_ok_of_toOption (by decide +kernel)
  have placed : StandsAt singleQuoted 15 23 '\'' singleSpecifier.rawText :=
    ⟨"import a from ".toList, "../it\\'s".toList, [], by decide, by decide, by decide, by decide⟩
  exact ⟨eq_ok_of_toOption (by decide +kernel),
    ⟨⟨_, List.mem_cons_self, _, collected, List.mem_cons_self⟩, .inr rfl, placed, by decide +kernel⟩,
    by decide +kernel⟩

end TidyImports.Specifier
