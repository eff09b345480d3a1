import TidyImports.Proofs.Import.Groups
import TidyImports.Proofs.Import.Merging

/-! What a group of declarations binds before and after it is organized. The declarations that bind
nothing, that have a phase or that hold comments without an owner stay as they are written and divide
the group into stretches. Between two of them no used binding is lost or invented, whatever is sorted
or merged, and no comment of a binding is lost. -/
namespace TidyImports.Import

open Script

variable {text : Text} {comments : List Edit.Span} {isUsed : Text → Bool}

def headerOf (text : Text) (d : ImportDeclaration) : Header :=
  ⟨d.source.value, d.isType, d.attributes.map (spanText text)⟩

def formOf (text : Text) : ImportSpecifier → Form
  | .defaultName _ span => .default (spanText text span)
  | .namespaceName _ span => .whole (spanText text span)
  | .named imported name isType _ => .named imported name isType

def Binding.isAlone (b : Binding) : Bool :=
  match b.form with
  | .named _ _ _ => false
  | _ => true

def usedForms (text : Text) (isUsed : Text → Bool) (header : Header)
    (specifiers : List ImportSpecifier) : List Binding :=
  (specifiers.filter fun s => isUsed s.name).map fun s => ⟨header, formOf text s⟩

theorem usedForms_cons_of_pos {header : Header} {s : ImportSpecifier}
    {rest : List ImportSpecifier} (h : isUsed s.name = true) :
    usedForms text isUsed header (s :: rest) =
      ⟨header, formOf text s⟩ :: usedForms text isUsed header rest := by
  simp [usedForms, h]

theorem usedForms_cons_of_neg {header : Header} {s : ImportSpecifier}
    {rest : List ImportSpecifier} (h : ¬isUsed s.name = true) :
    usedForms text isUsed header (s :: rest) = usedForms text isUsed header rest := by
  simp [usedForms, h]

def usedIn (text : Text) (isUsed : Text → Bool) (d : ImportDeclaration) : List Binding :=
  usedForms text isUsed (headerOf text d) d.specifiers

def occurrence? (text : Text) (isUsed : Text → Bool) (header : Header) :
    ImportSpecifier × SpecifierComments → Option Occurrence
  | (.named imported name isType span, own) =>
    if isUsed name then
      some ⟨header, ⟨spanText text span, imported, name, isType, own.leading, own.trailing⟩⟩
    else none
  | _ => none

def ownComments? (text : Text) (comments : List Edit.Span) (d : ImportDeclaration) :
    Option (List SpecifierComments) :=
  attachedComments? text d.span (d.specifiers.filterMap namedSpan?) comments

def occurrencesIn (text : Text) (comments : List Edit.Span) (isUsed : Text → Bool)
    (d : ImportDeclaration) : List Occurrence :=
  match ownComments? text comments d with
  | none => []
  | some attached =>
    ((d.specifiers.filter ImportSpecifier.isNamed).zip attached).filterMap
      (occurrence? text isUsed (headerOf text d))

/-- Whether a declaration stays as it is: it binds nothing, has a phase, or holds a comment without an
owner. -/
def isFrozen (text : Text) (comments : List Edit.Span) (d : ImportDeclaration) : Bool :=
  d.specifiers.isEmpty || d.hasPhase || (ownComments? text comments d).isNone

/-- Imports bind what the used specifiers of declarations bind, and name modules as these do. -/
structure StretchKept (text : Text) (comments : List Edit.Span) (isUsed : Text → Bool)
    (ds : List ImportDeclaration) (outs : List Item) : Prop where
  thawed : (∀ d ∈ ds, isFrozen text comments d = false) ∧ ∀ o ∈ outs, o.frozen = false
  same : ∀ b, b ∈ outs.flatMap Item.bindings ↔ b ∈ ds.flatMap (usedIn text isUsed)
  alone : (outs.flatMap Item.alone).Perm ((ds.flatMap (usedIn text isUsed)).filter Binding.isAlone)
  gathered : Gathers (outs.flatMap Item.occurrences)
    (ds.flatMap (occurrencesIn text comments isUsed))
  origin : ∀ o ∈ outs, ∃ d ∈ ds, d.source.value = o.module ∧
    spanText text d.source.span = o.source ∧ spanText text d.span = o.written

/-- A group of declarations and the imports that are made of it: stretches that bind the same, and
between them frozen declarations, which are printed as they are written. -/
inductive Kept (text : Text) (comments : List Edit.Span) (isUsed : Text → Bool) :
    List ImportDeclaration → List Item → Prop
  | stretch {ds : List ImportDeclaration} {outs : List Item}
    (h : StretchKept text comments isUsed ds outs) : Kept text comments isUsed ds outs
  | barrier {ds rest : List ImportDeclaration} {outs more : List Item} {d : ImportDeclaration}
    {i : Item} (h : StretchKept text comments isUsed ds outs)
    (frozen : isFrozen text comments d = true)
    (verbatim : ∀ newline, i.render newline = spanText text d.span)
    (hmore : Kept text comments isUsed rest more) :
    Kept text comments isUsed (ds ++ d :: rest) (outs ++ i :: more)

theorem commentsFrom_length {stop : Nat} {leading : List Text} {spans : List Edit.Span}
    {attached : List SpecifierComments} (h : commentsFrom text stop leading spans = some attached) :
    attached.length = spans.length := by
  induction spans generalizing leading attached with
  | nil =>
      simp only [commentsFrom, Option.some.injEq] at h
      exact h ▸ rfl
  | cons span spans ih =>
      cases spans with
      | nil =>
          simp only [commentsFrom] at h
          split at h
          · simp at h
          · split at h
            · simp only [Option.some.injEq] at h
              exact h ▸ rfl
            · simp at h
      | cons next more =>
          simp only [commentsFrom] at h
          split at h
          · simp at h
          · split at h
            · obtain ⟨rest, hrest, rfl⟩ := Option.map_eq_some_iff.1 h
              simp only [List.length_cons, ih hrest]
            · simp at h

theorem attachedComments?_length {declaration : Edit.Span} {named : List Edit.Span}
    {attached : List SpecifierComments}
    (h : attachedComments? text declaration named comments = some attached) :
    attached.length = named.length := by
  simp only [attachedComments?] at h
  split at h
  · simp only [Option.some.injEq] at h
    rw [← h, List.length_map]
  · split at h
    · simp at h
    · split at h
      · simp at h
      · split at h
        · simp at h
        · next hfrom =>
          split at h
          · simp only [Option.some.injEq] at h
            rw [← h]
            exact commentsFrom_length hfrom
          · simp at h

theorem map_usedBindings (header : Header) {specifiers : List ImportSpecifier}
    {attached : List SpecifierComments}
    (h : attached.length = (specifiers.filterMap namedSpan?).length) :
    (usedBindings text isUsed specifiers attached).map (Occurrence.mk header) =
      ((specifiers.filter ImportSpecifier.isNamed).zip attached).filterMap
        (occurrence? text isUsed header) := by
  -- By induction on the specifiers: only those in braces take comments from the list.
  induction specifiers generalizing attached with
  | nil => rfl
  | cons specifier rest ih =>
      cases specifier with
      | defaultName name span => exact ih h
      | namespaceName name span => exact ih h
      | named imported name isType span =>
          cases attached with
          | nil => simp [namedSpan?] at h
          | cons own attached =>
              have hrest : attached.length = (rest.filterMap namedSpan?).length := by
                simpa [namedSpan?] using h
              have used := ih hrest
              simp only [usedBindings, List.filter_cons, ImportSpecifier.isNamed, if_true,
                List.zip_cons_cons, List.filterMap_cons, occurrence?, List.head?_cons,
                Option.getD_some, List.tail_cons]
              split
              · rw [List.map_cons, used]
              · exact used

theorem braces_alone (text : Text) (isUsed : Text → Bool) (header : Header)
    {specifiers : List ImportSpecifier}
    (h : ∀ s ∈ specifiers, s.isNamed = true) :
    usedDefault text isUsed specifiers = none ∧ usedNamespace text isUsed specifiers = none ∧
      (usedForms text isUsed header specifiers).filter Binding.isAlone = [] := by
  induction specifiers with
  | nil => exact ⟨rfl, rfl, rfl⟩
  | cons specifier rest ih =>
      obtain ⟨named, h⟩ := List.forall_mem_cons.1 h
      obtain ⟨noDefault, noWhole, noAlone⟩ := ih h
      cases specifier with
      | defaultName name span => simp [ImportSpecifier.isNamed] at named
      | namespaceName name span => simp [ImportSpecifier.isNamed] at named
      | named imported name isType span =>
          refine ⟨noDefault, noWhole, ?_⟩
          by_cases used : isUsed name = true
          · rw [usedForms_cons_of_pos used, List.filter_cons_of_neg (by simp [formOf, Binding.isAlone]),
              noAlone]
          · rw [usedForms_cons_of_neg used, noAlone]

def aloneOf (header : Header) (default whole : Option Text) : List Binding :=
  (default.toList.map fun name => ⟨header, .default name⟩) ++
    whole.toList.map fun name => ⟨header, .whole name⟩

theorem aloneOf_bindingTail (text : Text) (isUsed : Text → Bool) (header : Header)
    {specifiers : List ImportSpecifier}
    (h : BindingTail specifiers) :
    usedDefault text isUsed specifiers = none ∧
      aloneOf header none (usedNamespace text isUsed specifiers) =
        (usedForms text isUsed header specifiers).filter Binding.isAlone := by
  cases h with
  | whole name span =>
      refine ⟨rfl, ?_⟩
      by_cases used : isUsed name = true
      · rw [usedForms_cons_of_pos used]
        simp [aloneOf, usedNamespace, used, usedForms, formOf, Binding.isAlone, List.filter_cons]
      · rw [usedForms_cons_of_neg used]
        simp [aloneOf, usedNamespace, used, usedForms]
  | braces h =>
      obtain ⟨noDefault, noWhole, noAlone⟩ := braces_alone text isUsed header h
      rw [noWhole, noAlone]
      exact ⟨noDefault, rfl⟩

theorem aloneOf_clause (header : Header) {specifiers : List ImportSpecifier}
    (h : Clause specifiers) :
    aloneOf header (usedDefault text isUsed specifiers) (usedNamespace text isUsed specifiers) =
      (usedForms text isUsed header specifiers).filter Binding.isAlone := by
  cases h with
  | plain h =>
      obtain ⟨noDefault, alone⟩ := aloneOf_bindingTail text isUsed header h
      rw [noDefault]
      exact alone
  | @withDefault name span tail h =>
      obtain ⟨noDefault, alone⟩ := aloneOf_bindingTail text isUsed header h
      by_cases used : isUsed name = true
      · rw [usedForms_cons_of_pos used, List.filter_cons_of_pos (by simp [formOf, Binding.isAlone]),
          ← alone]
        simp [aloneOf, usedDefault, usedNamespace, used, formOf]
      · have first : usedDefault text isUsed (.defaultName name span :: tail) = none := by
          simpa [usedDefault, used] using noDefault
        rw [usedForms_cons_of_neg used, first, ← alone]
        rfl

theorem map_bound_occurrences (header : Header) {specifiers : List ImportSpecifier}
    {attached : List SpecifierComments}
    (h : attached.length = (specifiers.filterMap namedSpan?).length) :
    (((specifiers.filter ImportSpecifier.isNamed).zip attached).filterMap
      (occurrence? text isUsed header)).map Occurrence.bound =
        (usedForms text isUsed header specifiers).filter fun b => !b.isAlone := by
  induction specifiers generalizing attached with
  | nil => rfl
  | cons specifier rest ih =>
      cases specifier with
      | defaultName name span =>
          rw [List.filter_cons_of_neg (by simp [ImportSpecifier.isNamed]), ih h]
          by_cases used : isUsed name = true
          · rw [usedForms_cons_of_pos used,
              List.filter_cons_of_neg (by simp [formOf, Binding.isAlone])]
          · rw [usedForms_cons_of_neg used]
      | namespaceName name span =>
          rw [List.filter_cons_of_neg (by simp [ImportSpecifier.isNamed]), ih h]
          by_cases used : isUsed name = true
          · rw [usedForms_cons_of_pos used,
              List.filter_cons_of_neg (by simp [formOf, Binding.isAlone])]
          · rw [usedForms_cons_of_neg used]
      | named imported name isType span =>
          cases attached with
          | nil => simp [namedSpan?] at h
          | cons own attached =>
              have hrest : attached.length = (rest.filterMap namedSpan?).length := by
                simpa [namedSpan?] using h
              rw [List.filter_cons_of_pos rfl, List.zip_cons_cons, List.filterMap_cons]
              by_cases used : isUsed name = true
              · rw [usedForms_cons_of_pos used,
                  List.filter_cons_of_pos (by simp [formOf, Binding.isAlone]), ← ih hrest]
                simp [occurrence?, used, Occurrence.bound, formOf]
              · rw [usedForms_cons_of_neg used, ← ih hrest]
                simp [occurrence?, used]

/-- Imports are what the organizer reads from declarations that are not frozen. -/
structure ReadsAs (text : Text) (comments : List Edit.Span) (isUsed : Text → Bool)
    (ds : List ImportDeclaration) (ins : List Item) : Prop where
  alone : ins.flatMap Item.alone = (ds.flatMap (usedIn text isUsed)).filter Binding.isAlone
  named : ins.flatMap Item.occurrences = ds.flatMap (occurrencesIn text comments isUsed)
  bound : (ds.flatMap (occurrencesIn text comments isUsed)).map Occurrence.bound =
    (ds.flatMap (usedIn text isUsed)).filter fun b => !b.isAlone
  thawed : ∀ d ∈ ds, isFrozen text comments d = false
  origin : ∀ i ∈ ins, i.frozen = false ∧ ∃ d ∈ ds, d.source.value = i.module ∧
    spanText text d.source.span = i.source ∧ spanText text d.span = i.written

namespace ReadsAs

variable {ds more : List ImportDeclaration} {ins others : List Item}

theorem nil : ReadsAs text comments isUsed [] [] := ⟨rfl, rfl, rfl, by simp, by simp⟩

theorem append (h : ReadsAs text comments isUsed ds ins)
    (k : ReadsAs text comments isUsed more others) :
    ReadsAs text comments isUsed (ds ++ more) (ins ++ others) := by
  refine ⟨?_, ?_, ?_, List.forall_mem_append.2 ⟨h.thawed, k.thawed⟩, fun i hi => ?_⟩
  · rw [List.flatMap_append, List.flatMap_append, List.filter_append, h.alone, k.alone]
  · rw [List.flatMap_append, List.flatMap_append, h.named, k.named]
  · rw [List.flatMap_append, List.flatMap_append, List.map_append, List.filter_append, h.bound,
      k.bound]
  · rcases List.mem_append.1 hi with hi | hi
    · obtain ⟨frozen, d, hd, same⟩ := h.origin i hi
      exact ⟨frozen, d, List.mem_append_left _ hd, same⟩
    · obtain ⟨frozen, d, hd, same⟩ := k.origin i hi
      exact ⟨frozen, d, List.mem_append_right _ hd, same⟩

end ReadsAs

theorem ofDeclaration?_frozen {d : ImportDeclaration} (h : isFrozen text comments d = true) :
    Item.ofDeclaration? text comments isUsed d =
      some { Item.bare text d with frozen := true } := by
  simp only [isFrozen, Bool.or_eq_true] at h
  simp only [Item.ofDeclaration?]
  split
  · rfl
  · next plain =>
    have none : ownComments? text comments d = none := by
      rcases h with h | h
      · exact absurd ((Bool.or_eq_true_iff ..).2 h) plain
      · simpa using h
    rw [ownComments?] at none
    rw [none]

def wholeImport (text : Text) (isUsed : Text → Bool) (d : ImportDeclaration)
    (attached : List SpecifierComments) : Item :=
  { Item.bare text d with
    defaultName := usedDefault text isUsed d.specifiers
    namespaceName := usedNamespace text isUsed d.specifiers
    named := usedBindings text isUsed d.specifiers attached
    modified := d.specifiers.any fun specifier => !isUsed specifier.name }

theorem ofDeclaration?_thawed (isUsed : Text → Bool) {d : ImportDeclaration}
    (h : isFrozen text comments d = false) :
    ∃ attached, ownComments? text comments d = some attached ∧ d.hasPhase = false ∧
      Item.ofDeclaration? text comments isUsed d =
        if (wholeImport text isUsed d attached).isEmpty then none
        else some (wholeImport text isUsed d attached) := by
  simp only [isFrozen, Bool.or_eq_false_iff] at h
  obtain ⟨⟨specifiers, phase⟩, own⟩ := h
  cases hattached : ownComments? text comments d with
  | none => simp [hattached] at own
  | some attached =>
      refine ⟨attached, rfl, phase, ?_⟩
      rw [ownComments?] at hattached
      simp only [Item.ofDeclaration?, specifiers, phase, hattached]
      rfl

theorem isEmpty_bindings {i : Item} (h : i.isEmpty = true) : i.alone = [] ∧ i.occurrences = [] := by
  simp only [Item.isEmpty, Bool.and_eq_true, Option.isNone_iff_eq_none, List.isEmpty_iff] at h
  obtain ⟨⟨noDefault, noWhole⟩, noNamed⟩ := h
  simp [Item.alone, Item.occurrences, noDefault, noWhole, noNamed]

theorem readsAs_ofDeclaration? (isUsed : Text → Bool) {d : ImportDeclaration}
    (clause : Clause d.specifiers)
    (h : isFrozen text comments d = false) :
    ReadsAs text comments isUsed [d] (Item.ofDeclaration? text comments isUsed d).toList := by
  obtain ⟨attached, own, phase, read⟩ := ofDeclaration?_thawed isUsed h
  have length := attachedComments?_length own
  have alone : (wholeImport text isUsed d attached).alone =
      (usedIn text isUsed d).filter Binding.isAlone := aloneOf_clause (headerOf text d) clause
  have named : (wholeImport text isUsed d attached).occurrences =
      occurrencesIn text comments isUsed d := by
    rw [occurrencesIn, own]
    exact map_usedBindings (headerOf text d) length
  have bound : (occurrencesIn text comments isUsed d).map Occurrence.bound =
      (usedIn text isUsed d).filter fun b => !b.isAlone := by
    rw [occurrencesIn, own]
    exact map_bound_occurrences (headerOf text d) length
  have thawed : ∀ e ∈ [d], isFrozen text comments e = false := by simpa using h
  rw [read]
  split
  · next empty =>
    obtain ⟨noAlone, noNamed⟩ := isEmpty_bindings empty
    rw [alone] at noAlone
    rw [named] at noNamed
    rw [noNamed] at bound
    refine ⟨?_, ?_, ?_, thawed, by simp⟩
    · simpa using noAlone.symm
    · simpa using noNamed.symm
    · simpa [noNamed] using bound
  · refine ⟨?_, ?_, ?_, thawed, ?_⟩
    · simpa using alone
    · simpa using named
    · simpa using bound
    · simp only [Option.toList_some, List.mem_singleton, forall_eq]
      exact ⟨phase, d, rfl, rfl, rfl, rfl⟩

theorem Gathers.mem_bound {outs ins : List Occurrence} (h : Gathers outs ins) (b : Binding) :
    b ∈ outs.map Occurrence.bound ↔ b ∈ ins.map Occurrence.bound := by
  obtain ⟨parts, each, whole⟩ := h
  rw [(whole.map Occurrence.bound).mem_iff]
  clear whole
  induction each with
  | nil => rfl
  | @cons o part outs parts gathered _ ih =>
      have here : b = o.bound ↔ b ∈ part.map Occurrence.bound := by
        constructor
        · rintro rfl
          cases part with
          | nil => exact absurd gathered.written (by simp)
          | cons p part => exact List.mem_map.2 ⟨p, by simp, gathered.same p (by simp)⟩
        · intro hb
          obtain ⟨p, hp, rfl⟩ := List.mem_map.1 hb
          exact gathered.same p hp
      rw [List.map_cons, List.mem_cons, here, ih, List.flatten_cons, List.map_append,
        List.mem_append]

theorem mem_bindings {outs : List Item} {b : Binding} : b ∈ outs.flatMap Item.bindings ↔
    b ∈ outs.flatMap Item.alone ∨ b ∈ (outs.flatMap Item.occurrences).map Occurrence.bound := by
  induction outs with
  | nil => simp
  | cons o outs ih =>
      simp only [List.flatMap_cons, List.mem_append, List.map_append, ih, Item.bindings]
      tauto

theorem ReadsAs.stretchKept {ds : List ImportDeclaration} {ins outs : List Item}
    (h : ReadsAs text comments isUsed ds ins) (k : Keeps ins outs) :
    StretchKept text comments isUsed ds outs := by
  have alone : (outs.flatMap Item.alone).Perm
      ((ds.flatMap (usedIn text isUsed)).filter Binding.isAlone) := h.alone ▸ k.alone
  have gathered : Gathers (outs.flatMap Item.occurrences)
      (ds.flatMap (occurrencesIn text comments isUsed)) := h.named ▸ gathers_of_joins k.joined
  refine ⟨⟨h.thawed, fun o ho => ?_⟩, fun b => ?_, alone, gathered, fun o ho => ?_⟩
  · obtain ⟨i, hi, _, _, _, frozen⟩ := k.origin o ho
    exact frozen ▸ (h.origin i hi).1
  · rw [mem_bindings, alone.mem_iff, gathered.mem_bound, h.bound, List.mem_filter, List.mem_filter]
    cases b.isAlone <;> simp
  · obtain ⟨i, hi, module, source, written, _⟩ := k.origin o ho
    obtain ⟨_, d, hd, module', source', written'⟩ := h.origin i hi
    exact ⟨d, hd, module'.trans module, source'.trans source, written'.trans written⟩

theorem kept_organizeFrom (order : TypeOrder) {ds : List ImportDeclaration} {segment : List Item}
    (hsegment : ReadsAs text comments isUsed ds segment) {group : List ImportDeclaration}
    (clauses : ∀ d ∈ group, Clause d.specifiers) :
    Kept text comments isUsed (ds ++ group) (organizeFrom order segment
      (group.filterMap (Item.ofDeclaration? text comments isUsed))) := by
  -- By induction on the declarations that are left, with those of the current stretch at hand: a
  -- frozen one ends the stretch, any other joins it.
  induction group generalizing ds segment with
  | nil =>
      rw [List.append_nil]
      exact .stretch (hsegment.stretchKept (keeps_organizeSegment order segment))
  | cons d rest ih =>
      obtain ⟨clause, clauses⟩ := List.forall_mem_cons.1 clauses
      cases hfrozen : isFrozen text comments d with
      | true =>
          rw [List.filterMap_cons_some (ofDeclaration?_frozen hfrozen)]
          have kept := hsegment.stretchKept (keeps_organizeSegment order segment)
          exact .barrier kept hfrozen (fun newline => rfl) (ih .nil clauses)
      | false =>
          have read := readsAs_ofDeclaration? isUsed clause hfrozen
          have kept := ih (hsegment.append read) clauses
          rw [List.append_assoc, List.singleton_append] at kept
          cases hread : Item.ofDeclaration? text comments isUsed d with
          | none =>
              rw [hread, Option.toList_none, List.append_nil] at kept
              rw [List.filterMap_cons_none hread]
              exact kept
          | some i =>
              rw [hread, Option.toList_some] at kept read
              have thawed := (read.origin i (List.mem_singleton_self i)).1
              rw [List.filterMap_cons_some hread, organizeFrom, thawed]
              exact kept

theorem clause_of_mem_group {dialect : Dialect} {program : Program}
    (h : parse dialect text = .ok program) {group : List ImportDeclaration}
    (hgroup : group ∈ importGroups text program.statements) :
    ∀ d ∈ group, Clause d.specifiers := by
  intro d hd
  have hmem : d ∈ declarations program.statements := by
    rw [← flatten_importGroups text]
    exact List.mem_flatten.2 ⟨group, hgroup, hd⟩
  obtain ⟨s, hs, hkind⟩ := List.mem_filterMap.1 hmem
  have placed := (inOrder_of_parse h).placed s hs
  exact (placed.importing d (declaration?_eq_some.1 hkind)).2.1

/-- Organizing a group of a parsed script loses no binding, invents none and moves none across a
frozen declaration, whatever counts as used and wherever types go. Everything counts as used when
unused bindings are kept and in a block of another document. -/
theorem organizeGroup_kept {dialect : Dialect} {program : Program}
    (h : parse dialect text = .ok program) {group : List ImportDeclaration}
    (hgroup : group ∈ importGroups text program.statements) (order : TypeOrder) :
    (∀ isUsed : Text → Bool, Kept text program.comments isUsed group (organizeGroup order
      (group.filterMap (Item.ofDeclaration? text program.comments isUsed)))) ∧
    ∀ (keepUnused embedded hasElements : Bool) (name : Text), (keepUnused || embedded) = true →
      isUsedIn program (keepUnused || embedded) hasElements name = true := by
  refine ⟨fun isUsed => ?_, fun keepUnused embedded hasElements name keeps => ?_⟩
  · exact kept_organizeFrom order .nil (clause_of_mem_group h hgroup)
  · rw [isUsedIn, keeps]
    rfl

def sampleScript : Text :=
  ("import b, {c /* c */} from 'y'\nimport {c /* d */} from 'y'\nimport './side'\n" ++
    "import a from 'x'\nc(a)").toList

theorem parse_sampleScript :
    parse ⟨true, false⟩ sampleScript = .ok (parsed ⟨true, false⟩ sampleScript) :=
  parse_eq_parsed (by decide +kernel)

def sampleGroup : List ImportDeclaration :=
  (importGroups sampleScript (parsed ⟨true, false⟩ sampleScript).statements).flatten

theorem sampleGroup_kept :
    sampleGroup.map (fun d => String.ofList d.source.value) = ["y", "y", "./side", "x"] ∧
      Kept sampleScript (parsed ⟨true, false⟩ sampleScript).comments
        (fun name => name != "b".toList) sampleGroup
        (organizeGroup .last (sampleGroup.filterMap (Item.ofDeclaration? sampleScript
          (parsed ⟨true, false⟩ sampleScript).comments fun name => name != "b".toList))) := by
  have hgroup : sampleGroup ∈
      importGroups sampleScript (parsed ⟨true, false⟩ sampleScript).statements := by
    decide +kernel
  exact ⟨by decide +kernel, (organizeGroup_kept parse_sampleScript hgroup .last).1 _⟩

end TidyImports.Import
