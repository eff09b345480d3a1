import TidyImports.Proofs.Import.Reattached

/-! Imports by themselves. What an import declaration of a script is read as depends on its own text
alone: the text of the declaration is a script of its own, and read there the declaration is the same
import. So declarations with one text are read as one import, wherever they stand. -/
namespace TidyImports.Text

variable {s t r x : Text} {n a b : Nat}

theorem upto_append_of_le (x : Text) (h : n ≤ width s) : upto (s ++ x) n = upto s n := by
  induction s generalizing n with
  | nil =>
      obtain rfl := Nat.le_zero.1 h
      cases x <;> rfl
  | cons c s ih =>
      cases n with
      | zero => rfl
      | succ n =>
          rw [width_cons] at h
          rw [List.cons_append, upto, upto, ih (by omega)]

theorem RestAt.slice_inner (h : RestAt t n (s ++ x)) (start : RestAt s a r) (stop : b ≤ width s) :
    t.slice (a + n) (b + n) = s.slice a b := by
  have room := start.add_width
  rw [slice, slice, Nat.add_comm a, (h.inner start).after_eq, start.after_eq,
    show b + n - (n + a) = b - a by omega, upto_append_of_le x (by omega)]

end TidyImports.Text

namespace TidyImports.Import

open Script

variable {text text' t rest rest' : Text} {n offset : Nat} {types : Bool} {dialect : Dialect}
  {comments comments' own : List Edit.Span} {d d' : ImportDeclaration} {w w' : Wording}
  {gap : List GapPiece} {ls : List Lexeme} {items : List (Listed Naming)} {span declaration : Edit.Span}
  {named : List Edit.Span} {isUsed : Text → Bool} {leading : List Text}
  {specifiers specifiers' : List ImportSpecifier}

/-! The comments of a declaration. -/

/-- A text is cut further to the right as another one is cut, at the offsets between which the comments
of a declaration are looked for. -/
def CutsAlike (text : Text) (n : Nat) (t : Text) (declaration : Edit.Span) (named : List Edit.Span) : Prop :=
  ∀ a ∈ declaration.start :: named.map Edit.Span.stop, ∀ b ∈ declaration.stop :: named.map Edit.Span.start,
    text.slice (a + n) (b + n) = t.slice a b

theorem start_shift (n : Nat) (s : Edit.Span) : (s.shift n).start = s.start + n := rfl

theorem within_shift (n : Nat) (inner outer : Edit.Span) :
    (inner.shift n).within (outer.shift n) = inner.within outer := by
  simp only [Edit.Span.within, Edit.Span.stop_shift, start_shift, Nat.add_le_add_iff_right]

theorem commentsFrom_shift {stop : Nat}
    (cuts : ∀ a ∈ named.map Edit.Span.stop, ∀ b ∈ stop :: named.map Edit.Span.start,
      text.slice (a + n) (b + n) = t.slice a b) (leading : List Text) :
    commentsFrom text (stop + n) leading (named.map (Edit.Span.shift n)) =
      commentsFrom t stop leading named := by
  induction named generalizing leading with
  | nil => rfl
  | cons span named ih =>
      have own := cuts span.stop (by simp)
      have more := ih fun a ha b hb => cuts a (List.mem_cons_of_mem _ ha) b (by
        rcases List.mem_cons.1 hb with rfl | hb <;> simp_all)
      cases named with
      | nil =>
          have slice := own stop (by simp)
          simp only [List.map_cons, List.map_nil, commentsFrom, Edit.Span.stop_shift, slice]
      | cons next named =>
          have slice := own next.start (by simp)
          simp only [List.map_cons] at more
          simp only [List.map_cons, commentsFrom, Edit.Span.stop_shift, start_shift, slice, more]

theorem attachedComments?_shift (cuts : CutsAlike text n t declaration named)
    (same : comments.filter (fun c => c.within (declaration.shift n)) =
      (own.filter fun c => c.within declaration).map (Edit.Span.shift n)) :
    attachedComments? text (declaration.shift n) (named.map (Edit.Span.shift n)) comments =
      attachedComments? t declaration named own := by
  have loose : looseComments (declaration.shift n) (named.map (Edit.Span.shift n)) comments =
      looseComments declaration named own := by
    have split (outer : Edit.Span) (inner all : List Edit.Span) : looseComments outer inner all =
        (all.filter fun c => c.within outer).countP fun c => !inner.any fun span => c.within span := by
      rw [looseComments, List.countP_filter]
      simp only [Bool.and_comm]
    rw [split, split, same, List.countP_map]
    simp only [Function.comp_def, List.any_map, within_shift]
  cases named with
  | nil =>
      simp only [List.map_nil] at loose
      simp only [attachedComments?, List.map_nil, loose]
  | cons first more =>
      have head := cuts declaration.start (by simp) first.start (by simp)
      have behind (leading : List Text) : commentsFrom text (declaration.stop + n) leading
          ((first :: more).map (Edit.Span.shift n)) =
            commentsFrom t declaration.stop leading (first :: more) :=
        commentsFrom_shift (fun a ha b hb => cuts a (List.mem_cons_of_mem _ ha) b hb) leading
      simp only [List.map_cons] at loose behind
      simp only [attachedComments?, List.map_cons, loose, Edit.Span.stop_shift, start_shift, behind, head,
        List.map_map, Function.comp_def]

theorem exists_restAt_of_spansAt {v : Text} (place : t.RestAt offset
    (fullText (items.flatMap Listed.lexemes) ++ v)) (h : span ∈ spansAt offset items) :
    ∃ r, t.RestAt span.stop r := by
  induction items generalizing offset with
  | nil => cases h
  | cons item items ih =>
      rw [List.flatMap_cons, fullText_append, List.append_assoc] at place
      rcases List.mem_cons.1 h with rfl | h
      · rw [fullText_item, List.append_assoc] at place
        rw [stop_ofBounds_add]
        exact ⟨_, place.append⟩
      · exact ih place.append h

theorem bounds_of_namedSpan (valid : w.Valid types)
    (h : span ∈ (w.specifiers 0).filterMap namedSpan?) :
    span.start ≤ (spelled w.lexemes).width ∧ ∃ r, (spelled w.lexemes).RestAt span.stop r := by
  obtain ⟨pre, opening, items, closing, post, braced⟩ :=
    exists_braced valid (List.ne_nil_of_mem h)
  have place := Text.restAt_zero (spelled w.lexemes)
  rw [spelled_of_braced braced] at place
  rw [braced.named] at h
  obtain ⟨r, stop⟩ := exists_restAt_of_spansAt place.append h
  rw [← spelled_of_braced braced] at stop
  have width := stop.le_width
  have order := span.start_le_stop
  exact ⟨by omega, r, stop⟩

theorem declaration_withGap (valid : w.Valid types) (gap : List GapPiece) (offset : Nat) :
    (w.withGap gap).declaration offset = w.declaration offset := by
  have spelled := w.spelled_withGap gap
  have attributes (offset : Nat) : attributesSpan? offset (withLastGap gap w.attributes) =
      attributesSpan? offset w.attributes := by
    have attributes := valid.attributes
    generalize w.attributes = ls at attributes
    cases attributes with
    | none => rfl
    | some =>
        rw [withLastGap_cons _ _ (by simp), attributesSpan?, spelled_withLastGap, attributesSpan?]
  simp only [Wording.declaration, spelled]
  rw [Wording.withGap]
  split
  · rfl
  · split
    · simp only [attributes]
      rfl
    · next none =>
      simp only [Decidable.not_not.1 none]
      rfl

/-! Declarations with one text. -/

theorem usedBindings_congr (same : specifiers'.map (said text') = specifiers.map (said text))
    (isUsed : Text → Bool) (attached : List SpecifierComments) :
    usedBindings text' isUsed specifiers' attached = usedBindings text isUsed specifiers attached := by
  induction specifiers' generalizing specifiers attached with
  | nil => rw [List.map_eq_nil_iff.1 same.symm]; rfl
  | cons s' rest' ih =>
      obtain ⟨s, rest, rfl, own, others⟩ := List.map_eq_cons_iff.1 same.symm
      cases s' <;> cases s <;> simp only [said, reduceCtorEq, Said.named.injEq, Naming.mk.injEq] at own
      · exact ih others.symm attached
      · exact ih others.symm attached
      · obtain ⟨⟨rfl, rfl, rfl⟩, written⟩ := own
        simp only [usedBindings, written, ih others.symm]

theorem usedDefault_eq (text : Text) (isUsed : Text → Bool) (specifiers : List ImportSpecifier) :
    usedDefault text isUsed specifiers = (specifiers.map (said text)).findSome? fun
      | .default name written => if isUsed name then some written else none
      | _ => none := by
  rw [usedDefault, List.findSome?_map]
  congr 1
  funext s
  cases s <;> rfl

theorem usedNamespace_eq (text : Text) (isUsed : Text → Bool) (specifiers : List ImportSpecifier) :
    usedNamespace text isUsed specifiers = (specifiers.map (said text)).findSome? fun
      | .whole name written => if isUsed name then some written else none
      | _ => none := by
  rw [usedNamespace, List.findSome?_map]
  congr 1
  funext s
  cases s <;> rfl

/-- Two declarations with one text, the comments of which are given away alike. -/
structure Alike (text : Text) (comments : List Edit.Span) (d : ImportDeclaration) (text' : Text)
    (comments' : List Edit.Span) (d' : ImportDeclaration) : Prop where
  written : spanText text' d'.span = spanText text d.span
  module : d'.source.value = d.source.value
  source : spanText text' d'.source.span = spanText text d.source.span
  attributes : d'.attributes.map (spanText text') = d.attributes.map (spanText text)
  isType : d'.isType = d.isType
  hasPhase : d'.hasPhase = d.hasPhase
  said : d'.specifiers.map (said text') = d.specifiers.map (said text)
  own : ownComments? text' comments' d' = ownComments? text comments d

theorem Alike.ofDeclaration?_eq (h : Alike text comments d text' comments' d') (isUsed : Text → Bool) :
    Item.ofDeclaration? text' comments' isUsed d' = Item.ofDeclaration? text comments isUsed d := by
  have bare : Item.bare text' d' = Item.bare text d := by
    simp only [Item.bare, h.written, h.module, h.source, h.attributes, h.isType, h.hasPhase]
  have empty : d'.specifiers.isEmpty = d.specifiers.isEmpty := by
    have same := congrArg List.isEmpty h.said
    rwa [List.isEmpty_map, List.isEmpty_map] at same
  have names : d'.specifiers.map ImportSpecifier.name = d.specifiers.map ImportSpecifier.name := by
    have same := congrArg (List.map Said.name) h.said
    simpa only [List.map_map, Function.comp_def, name_said] using same
  have unused : (d'.specifiers.any fun s => !isUsed s.name) = d.specifiers.any fun s => !isUsed s.name := by
    have same := congrArg (List.any · fun name => !isUsed name) names
    simpa only [List.any_map, Function.comp_def] using same
  have own := h.own
  rw [ownComments?, ownComments?] at own
  simp only [Item.ofDeclaration?, bare, empty, h.hasPhase, own, unused, usedDefault_eq,
    usedNamespace_eq, h.said, usedBindings_congr h.said]

theorem lexemeComments_shift (offset n : Nat) (ls : List Lexeme) :
    lexemeComments (offset + n) ls = (lexemeComments offset ls).map (Edit.Span.shift n) := by
  induction ls generalizing offset with
  | nil => rfl
  | cons l ls ih =>
      simp only [lexemeComments, List.map_append, Nat.add_right_comm offset n, gapComments_shift, ih]

theorem dropLast_withLastGap (gap : List GapPiece) (ls : List Lexeme) :
    (withLastGap gap ls).dropLast = ls.dropLast := by
  by_cases h : ls = []
  · rw [h, withLastGap]
  · obtain ⟨init, l, rfl, same⟩ := exists_withLastGap gap h
    rw [same, List.dropLast_concat, List.dropLast_concat]

theorem exists_worded_alone (valid : w.Valid dialect.types) (phrase : Phrase w.lexemes) :
    ∃ program, parse dialect (spelled w.lexemes) = .ok program ∧
      program.statements = [⟨(w.declaration 0).span, .importing (w.declaration 0)⟩] ∧
      Worded dialect (spelled w.lexemes) program.comments (w.declaration 0) (w.withGap []) [] := by
  have closed := w.lastGap_withGap []
  have valid' := w.valid_withGap [] valid
  have phrase' : Phrase (w.withGap []).lexemes := Wording.phrase_withGap_iff.2 phrase
  obtain ⟨program, parsed, statements, -⟩ := parse_wording valid' phrase' closed
  obtain ⟨_, d, parsed', statements', -, worded⟩ := exists_worded_of_wording valid' phrase' closed
  cases parsed.symm.trans parsed'
  obtain ⟨-, same⟩ := Statement.mk.inj (List.singleton_inj.1 (statements'.symm.trans statements))
  obtain rfl := StatementKind.importing.inj same
  rw [w.spelled_withGap, declaration_withGap valid] at *
  exact ⟨program, parsed, statements, worded⟩

section Alone

variable (h : Worded dialect text comments d w rest)
include h

theorem declaration_alone : d = (w.declaration 0).shift d.span.start := by
  have declares := h.declares
  rwa [← Nat.zero_add d.span.start, w.declaration_shift] at declares

theorem restAt_alone :
    text.RestAt d.span.start (spelled w.lexemes ++ (gapText (lastGap w.lexemes) ++ rest)) := by
  rw [← List.append_assoc, ← fullText_eq]
  exact h.place

theorem cutsAlike_alone : CutsAlike text d.span.start (spelled w.lexemes) (w.declaration 0).span
    ((w.specifiers 0).filterMap namedSpan?) := by
  have stop : (w.declaration 0).span.stop = (spelled w.lexemes).width := by
    rw [Wording.declaration, stop_ofBounds_add, Nat.zero_add]
  intro a ha b hb
  obtain ⟨r, first⟩ : ∃ r, (spelled w.lexemes).RestAt a r := by
    rcases List.mem_cons.1 ha with rfl | ha
    · exact ⟨_, Text.restAt_zero _⟩
    · obtain ⟨span, hspan, rfl⟩ := List.mem_map.1 ha
      exact (bounds_of_namedSpan h.valid hspan).2
  refine (restAt_alone h).slice_inner first ?_
  rcases List.mem_cons.1 hb with rfl | hb
  · exact Nat.le_of_eq stop
  · obtain ⟨span, hspan, rfl⟩ := List.mem_map.1 hb
    exact (bounds_of_namedSpan h.valid hspan).1

theorem filter_within_alone
    (alone : Worded dialect (spelled w.lexemes) own (w.declaration 0) (w.withGap []) []) :
    comments.filter (fun c => c.within ((w.declaration 0).span.shift d.span.start)) =
      (own.filter fun c => c.within (w.declaration 0).span).map (Edit.Span.shift d.span.start) := by
  have inner := filter_within h w.lexemes_ne_nil
  have outer := filter_within alone (w.withGap []).lexemes_ne_nil
  rw [w.lexemes_withGap, dropLast_withLastGap] at outer
  have start : (w.declaration 0).span.start = 0 := rfl
  have span : d.span = (w.declaration 0).span.shift d.span.start :=
    congrArg ImportDeclaration.span (declaration_alone h)
  rw [outer, start, ← lexemeComments_shift, Nat.zero_add, ← inner, ← span]

theorem ownComments?_alone
    (alone : Worded dialect (spelled w.lexemes) own (w.declaration 0) (w.withGap []) []) :
    ownComments? text comments d = ownComments? (spelled w.lexemes) own (w.declaration 0) := by
  have shifted := attachedComments?_shift (cutsAlike_alone h) (filter_within_alone h alone)
  have moved := declaration_alone h
  generalize d.span.start = n at moved shifted
  have named : d.specifiers.filterMap namedSpan? =
      ((w.specifiers 0).filterMap namedSpan?).map (Edit.Span.shift n) := by
    rw [moved, ImportDeclaration.shift, List.filterMap_map, List.map_filterMap]
    refine List.filterMap_congr fun s _ => ?_
    cases s <;> rfl
  rw [ownComments?, ownComments?, named, moved]
  exact shifted

theorem exists_alone : ∃ program d₀, parse dialect (spanText text d.span) = .ok program ∧
    program.statements = [⟨d₀.span, .importing d₀⟩] ∧
    Alike (spanText text d.span) program.comments d₀ text comments d := by
  obtain ⟨program, parsed, statements, alone⟩ := exists_worded_alone h.valid h.phrase
  have written : spanText text d.span = spelled w.lexemes := by
    rw [h.declares]
    exact spanText_declaration h.place
  rw [written]
  refine ⟨program, w.declaration 0, parsed, statements, ?_⟩
  have own := ownComments?_alone h alone
  have place := h.place
  have declares := h.declares
  have place₀ : (spelled w.lexemes).RestAt 0 (fullText (w.withGap []).lexemes ++ []) := alone.place
  have same := declaration_withGap h.valid [] 0
  obtain ⟨binders, -, -, -, literal⟩ := w.withGap_fields []
  generalize d.span.start = n at place declares
  refine ⟨?_, ?_, ?_, ?_, ?_, ?_, ?_, own⟩
  · rw [written, ← same, spanText_declaration place₀, w.spelled_withGap]
  · rw [declares]
    rfl
  · rw [declares, spanText_source place, ← same, spanText_source place₀, literal]
  · rw [declares, map_attributes place, ← same, map_attributes place₀, attributesText?_withGap]
  · rw [declares]
    rfl
  · rw [declares]
    rfl
  · have here := map_said_specifiers place
    have there := map_said_specifiers place₀
    have said : saidBy w = saidBy (w.withGap []) := by rw [saidBy, saidBy, binders]
    rw [declares, ← same]
    exact here.trans (said.trans there.symm)

end Alone

theorem ofDeclaration?_eq_of_spanText (h : Worded dialect text comments d w rest)
    (k : Worded dialect text' comments' d' w' rest') (same : spanText text' d'.span = spanText text d.span)
    (isUsed : Text → Bool) :
    Item.ofDeclaration? text' comments' isUsed d' = Item.ofDeclaration? text comments isUsed d := by
  obtain ⟨program, d₀, parsed, statements, alike⟩ := exists_alone h
  obtain ⟨program', d₁, parsed', statements', alike'⟩ := exists_alone k
  rw [same] at parsed' alike'
  cases parsed.symm.trans parsed'
  obtain ⟨-, kind⟩ := Statement.mk.inj (List.singleton_inj.1 (statements'.symm.trans statements))
  obtain rfl := StatementKind.importing.inj kind
  rw [alike.ofDeclaration?_eq, alike'.ofDeclaration?_eq]

end TidyImports.Import
