import TidyImports.Proofs.Edit.Weaving
import TidyImports.Proofs.Import.Reprinted
import TidyImports.Proofs.Import.Stretches
import TidyImports.Proofs.Script.Rows

/-! What a script means to the modules around it: the texts of the statements that are no imports, in
order, and what its imports bind. Statements further to the right mean the same, and what import
declarations bind is what their wordings say. -/
namespace TidyImports.Import

open Script

variable {text text' t rest printed newline : Text} {offset n n' : Nat} {types : Bool} {w : Wording}
  {ws vs : List Wording} {o : Item} {d : ImportDeclaration} {statements statements' more : List Statement}

def boundIn (text : Text) (statements : List Statement) : List Binding :=
  (declarations statements).flatMap (usedIn text fun _ => true)

def othersIn (text : Text) (statements : List Statement) : List Text :=
  (statements.filter fun s => (declaration? s).isNone).map fun s => spanText text s.span

def modulesIn (statements : List Statement) : List Text :=
  statements.filterMap fun s => s.kind.source?.map SourceLiteral.value

theorem modulesIn_append (statements more : List Statement) :
    modulesIn (statements ++ more) = modulesIn statements ++ modulesIn more := by
  simp [modulesIn]

theorem mem_modulesIn_of_declaration (h : d ∈ declarations statements) :
    d.source.value ∈ modulesIn statements := by
  obtain ⟨s, hs, found⟩ := List.mem_filterMap.1 h
  refine List.mem_filterMap.2 ⟨s, hs, ?_⟩
  rw [declaration?_eq_some.1 found]
  rfl

/-- Statements of a text mean what those of another text mean. -/
structure Agree (text : Text) (statements : List Statement) (text' : Text)
    (statements' : List Statement) : Prop where
  others : othersIn text' statements' = othersIn text statements
  bound : ∀ b, b ∈ boundIn text' statements' ↔ b ∈ boundIn text statements

theorem boundIn_append (text : Text) (statements more : List Statement) :
    boundIn text (statements ++ more) = boundIn text statements ++ boundIn text more := by
  simp [boundIn, declarations]

theorem othersIn_append (text : Text) (statements more : List Statement) :
    othersIn text (statements ++ more) = othersIn text statements ++ othersIn text more := by
  simp [othersIn]

/-! Statements further to the right. -/

theorem slice_shift (h : text.RestAt n t) (start stop : Nat) :
    text.slice (start + n) (stop + n) = t.slice start stop := by
  obtain ⟨before, rfl, rfl⟩ := h
  rw [Text.slice, Nat.add_sub_add_right, Nat.add_comm, Text.after_append_add]
  rfl

theorem spanText_shift (h : text.RestAt n t) (s : Edit.Span) :
    spanText text (s.shift n) = spanText t s := by
  rw [spanText, Edit.Span.stop_shift]
  exact slice_shift h s.start s.stop

theorem declaration?_shift (n : Nat) (s : Statement) :
    declaration? (s.shift n) = (declaration? s).map (ImportDeclaration.shift n) := by
  obtain ⟨span, kind⟩ := s
  cases kind <;> rfl

theorem usedIn_shift (h : text.RestAt n t) (isUsed : Text → Bool) (d : ImportDeclaration) :
    usedIn text isUsed (d.shift n) = usedIn t isUsed d := by
  have header : headerOf text (d.shift n) = headerOf t d := by
    simp only [headerOf, ImportDeclaration.shift, SourceLiteral.shift, Option.map_map,
      Function.comp_def, spanText_shift h]
  have form (s : ImportSpecifier) : formOf text (s.shift n) = formOf t s := by
    cases s <;> simp only [ImportSpecifier.shift, formOf, spanText_shift h]
  have name (s : ImportSpecifier) : (s.shift n).name = s.name := by
    cases s <;> rfl
  rw [usedIn, usedIn, header]
  simp only [usedForms, ImportDeclaration.shift, List.filter_map, List.map_map, Function.comp_def,
    name, form]

theorem boundIn_shift (h : text.RestAt n t) (statements : List Statement) :
    boundIn text (statements.map (Statement.shift n)) = boundIn t statements := by
  have moved : declarations (statements.map (Statement.shift n)) =
      (declarations statements).map (ImportDeclaration.shift n) := by
    simp only [declarations, List.filterMap_map, List.map_filterMap, Function.comp_def,
      declaration?_shift]
  rw [boundIn, moved, List.flatMap_map]
  exact List.flatMap_congr fun d _ => usedIn_shift h _ d

theorem othersIn_shift (h : text.RestAt n t) (statements : List Statement) :
    othersIn text (statements.map (Statement.shift n)) = othersIn t statements := by
  simp only [othersIn, List.filter_map, List.map_map, Function.comp_def, declaration?_shift,
    Option.isNone_map]
  exact List.map_congr_left fun s _ => spanText_shift h s.span

theorem modulesIn_shift (n : Nat) (statements : List Statement) :
    modulesIn (statements.map (Statement.shift n)) = modulesIn statements := by
  rw [modulesIn, List.filterMap_map]
  refine List.filterMap_congr fun s _ => ?_
  obtain ⟨span, kind⟩ := s
  cases kind <;> rfl

theorem agree_shift (h : text.RestAt n t) (h' : text'.RestAt n' t) (statements : List Statement) :
    Agree text (statements.map (Statement.shift n)) text' (statements.map (Statement.shift n')) := by
  refine ⟨?_, fun b => ?_⟩
  · rw [othersIn_shift h, othersIn_shift h']
  · rw [boundIn_shift h, boundIn_shift h']

/-! Wordings. -/

def headerBy (w : Wording) : Header := ⟨w.value, w.isType, attributesText? w.attributes⟩

def Said.form : Said → Form
  | .default _ written => .default written
  | .whole _ written => .whole written
  | .named n _ => .named n.imported n.name n.isType

theorem form_said (text : Text) (s : ImportSpecifier) : (said text s).form = formOf text s := by
  cases s <;> rfl

theorem Said.Valid.name_eq {a b : Said} {types' isType isType' : Bool} (h : a.Valid types isType)
    (k : b.Valid types' isType') (same : a.form = b.form) : a.name = b.name := by
  cases h with
  | @default token written _ spells =>
      obtain @⟨token', _, -, spells'⟩ | _ | _ := k <;> cases same
      have first : Phrase [⟨token, written, []⟩] := Phrase.singleton_iff.2 spells
      have second : Phrase [⟨token', written, []⟩] := Phrase.singleton_iff.2 spells'
      exact congrArg Token.name (List.singleton_inj.1 (tokens_eq_of_spelled first second rfl))
  | whole _ phrase spells =>
      obtain _ | ⟨-, phrase', spells'⟩ | _ := k <;> cases same
      have tokens := tokens_eq_of_spelled phrase phrase' (spells.trans spells'.symm)
      simp only [List.map_cons, List.map_nil, List.cons.injEq, and_true] at tokens
      exact congrArg Token.name tokens.2.2
  | named =>
      cases k with
      | named => exact (Form.named.inj same).2.1
      | _ => cases same

def bindingsBy (w : Wording) : List Binding := (saidBy w).map fun s => ⟨headerBy w, s.form⟩

theorem usedIn_wording (place : text.RestAt offset (fullText w.lexemes ++ rest)) :
    usedIn text (fun _ => true) (w.declaration offset) = bindingsBy w := by
  have header : headerOf text (w.declaration offset) = headerBy w := by
    rw [headerOf, map_attributes place]
    rfl
  have same := map_said_specifiers place
  rw [usedIn, header, bindingsBy, ← same, usedForms, List.filter_eq_self.2 fun _ _ => rfl]
  simp only [List.map_map, Function.comp_def, form_said]
  rfl

theorem name_eq_of_form {comments comments' : List Edit.Span}
    {d d' : ImportDeclaration} {w w' : Wording} {rest rest' : Text} {dialect dialect' : Dialect}
    (h : Worded dialect text comments d w rest) (k : Worded dialect' text' comments' d' w' rest')
    {s s' : ImportSpecifier} (hs : s ∈ d.specifiers) (hs' : s' ∈ d'.specifiers)
    (same : formOf text s = formOf text' s') : s.name = s'.name := by
  have first := valid_of_worded h _ (List.mem_map_of_mem hs)
  have second := valid_of_worded k _ (List.mem_map_of_mem hs')
  rw [← name_said text, ← name_said text']
  exact first.name_eq second (by rw [form_said, form_said, same])

theorem bindingsBy_withGap (gap : List GapPiece) (w : Wording) :
    bindingsBy (w.withGap gap) = bindingsBy w := by
  obtain ⟨binders, value, isType, -, -⟩ := w.withGap_fields gap
  have header : headerBy (w.withGap gap) = headerBy w := by
    rw [headerBy, value, isType, attributesText?_withGap]
    rfl
  rw [bindingsBy, bindingsBy, header, saidBy, saidBy, binders]

theorem bindingsBy_spaced (sep last : List GapPiece) (ws : List Wording) :
    (spaced sep last ws).flatMap bindingsBy = ws.flatMap bindingsBy := by
  induction ws using spaced.induct with
  | case1 => rfl
  | case2 w => simp [spaced, bindingsBy_withGap]
  | case3 w v ws ih =>
      rw [spaced, List.flatMap_cons, ih, bindingsBy_withGap]
      rfl

theorem meaning_rowItems (place : text.RestAt offset (fullText (rowLexemes ws) ++ rest)) :
    othersIn text ((rowItems offset ws).map TopStatement.statement) = [] ∧
      boundIn text ((rowItems offset ws).map TopStatement.statement) = ws.flatMap bindingsBy := by
  induction ws generalizing offset with
  | nil => exact ⟨rfl, rfl⟩
  | cons w ws ih =>
      rw [rowLexemes, List.flatMap_cons, fullText_append, ← rowLexemes, List.append_assoc] at place
      obtain ⟨others, bound⟩ := ih place.append
      refine ⟨others, ?_⟩
      rw [List.flatMap_cons, ← bound, ← usedIn_wording place]
      rfl

theorem modulesIn_row (offset : Nat) (ws : List Wording) :
    modulesIn ((rowItems offset ws).map TopStatement.statement) = ws.map Wording.value := by
  induction ws generalizing offset with
  | nil => rfl
  | cons w ws ih =>
      rw [List.map_cons, ← ih (offset + (fullText w.lexemes).width)]
      rfl

theorem map_value_spaced (sep last : List GapPiece) (ws : List Wording) :
    (spaced sep last ws).map Wording.value = ws.map Wording.value := by
  have own (gap : List GapPiece) (w : Wording) : (w.withGap gap).value = w.value := (w.withGap_fields gap).2.1
  induction ws using spaced.induct with
  | case1 => rfl
  | case2 w => simp [spaced, own]
  | case3 w v ws ih =>
      rw [spaced, List.map_cons, ih, own]
      rfl

theorem Restates.mem_bindings (h : Restates text d o) (clause : Clause d.specifiers) (b : Binding) :
    b ∈ usedIn text (fun _ => true) d ↔ b ∈ o.bindings := by
  have header : headerOf text d = o.header := by
    rw [headerOf, h.module, h.isType, h.attributes]
    rfl
  have alone : (usedIn text (fun _ => true) d).filter Binding.isAlone = o.alone := by
    rw [usedIn, header, ← aloneOf_clause o.header clause, h.default, h.whole]
    rfl
  have named : ((usedIn text (fun _ => true) d).filter fun b => !b.isAlone) =
      o.occurrences.map Occurrence.bound := by
    have length : (List.replicate (d.specifiers.filterMap namedSpan?).length
        (⟨[], []⟩ : SpecifierComments)).length = (d.specifiers.filterMap namedSpan?).length :=
      List.length_replicate
    have bound (named : List NamedBinding) : (named.map (Occurrence.mk o.header)).map Occurrence.bound =
        (named.map NamedBinding.bare).map fun b => (Occurrence.mk o.header b).bound := by
      rw [List.map_map, List.map_map]
      rfl
    rw [usedIn, header, ← map_bound_occurrences o.header length, ← map_usedBindings o.header length,
      bound, h.named, ← bound]
    rfl
  rw [Item.bindings, List.mem_append, ← alone, ← named, List.mem_filter, List.mem_filter]
  cases b.isAlone <;> simp

theorem Says.mem_bindings (h : Says types o printed w) (b : Binding) :
    b ∈ bindingsBy w ↔ b ∈ o.bindings := by
  have saying := h.withGap []
  have valid : (w.withGap []).Valid (Dialect.types ⟨types, false⟩) := saying.valid
  obtain ⟨program, d, parsed, statements, -, worded⟩ :=
    exists_worded_of_wording valid saying.phrase (w.lastGap_withGap [])
  have clause := ((inOrder_of_parse parsed).placed _ (statements ▸ List.mem_singleton_self _)).importing d rfl
  have place := worded.place
  rw [← bindingsBy_withGap [] w, ← usedIn_wording place, ← worded.declares]
  exact (saying.restates worded).mem_bindings clause.2.1 b

theorem mem_usedIn_all {isUsed : Text → Bool} {b : Binding} (h : b ∈ usedIn text isUsed d) :
    b ∈ usedIn text (fun _ => true) d := by
  obtain ⟨s, hs, rfl⟩ := List.mem_map.1 h
  exact List.mem_map.2 ⟨s, by simpa using List.mem_of_mem_filter hs, rfl⟩

/-- Wordings spell given texts. They bind what is used of declarations, and nothing that these do not bind,
and they name modules as these do. -/
structure RowPrints (types : Bool) (isUsed : Text → Bool) (text : Text) (ds : List ImportDeclaration)
    (texts : List Text) (ws : List Wording) : Prop where
  valid : ∀ w ∈ ws, w.Valid types ∧ Phrase w.lexemes
  printed : (ws.map fun w => spelled w.lexemes) = texts
  kept : ∀ b ∈ ds.flatMap (usedIn text isUsed), b ∈ ws.flatMap bindingsBy
  bound : ∀ b ∈ ws.flatMap bindingsBy, b ∈ ds.flatMap (usedIn text fun _ => true)
  modules : ∀ w ∈ ws, ∃ d ∈ ds, d.source.value = w.value

section RowPrints

variable {isUsed : Text → Bool} {ds es : List ImportDeclaration} {texts others : List Text}
  {outs : List Item}

theorem RowPrints.append (h : RowPrints types isUsed text ds texts ws)
    (k : RowPrints types isUsed text es others vs) :
    RowPrints types isUsed text (ds ++ es) (texts ++ others) (ws ++ vs) := by
  refine ⟨List.forall_mem_append.2 ⟨h.valid, k.valid⟩, ?_, fun b hb => ?_, fun b hb => ?_, fun w hw => ?_⟩
  · rw [List.map_append, h.printed, k.printed]
  · rw [List.flatMap_append] at hb ⊢
    exact List.mem_append.2 ((List.mem_append.1 hb).imp (h.kept b) (k.kept b))
  · rw [List.flatMap_append] at hb ⊢
    exact List.mem_append.2 ((List.mem_append.1 hb).imp (h.bound b) (k.bound b))
  · rcases List.mem_append.1 hw with hw | hw
    · obtain ⟨d, hd, same⟩ := h.modules w hw
      exact ⟨d, List.mem_append_left _ hd, same⟩
    · obtain ⟨d, hd, same⟩ := k.modules w hw
      exact ⟨d, List.mem_append_right _ hd, same⟩

theorem exists_saying (h : ∀ o ∈ outs, ∃ w, Says types o (o.render newline) w) :
    ∃ ws, List.Forall₂ (fun o w => Says types o (o.render newline) w) outs ws := by
  induction outs with
  | nil => exact ⟨[], .nil⟩
  | cons o outs ih =>
      obtain ⟨⟨w, own⟩, others⟩ := List.forall_mem_cons.1 h
      obtain ⟨ws, more⟩ := ih others
      exact ⟨w :: ws, .cons own more⟩

theorem StretchKept.rowPrints {comments : List Edit.Span} (kept : StretchKept text comments isUsed ds outs)
    (saying : List.Forall₂ (fun o w => Says types o (o.render newline) w) outs ws) :
    RowPrints types isUsed text ds (outs.map (Item.render newline)) ws := by
  have bindings (b : Binding) : b ∈ ws.flatMap bindingsBy ↔ b ∈ ds.flatMap (usedIn text isUsed) := by
    rw [← kept.same b]
    clear kept
    induction saying with
    | nil => rfl
    | cons own _ ih => rw [List.flatMap_cons, List.flatMap_cons, List.mem_append, List.mem_append,
        own.mem_bindings, ih]
  refine ⟨fun w hw => ?_, ?_, fun b => (bindings b).2, fun b hb => ?_, fun w hw => ?_⟩
  · obtain ⟨o, -, own⟩ := Edit.exists_of_forall₂ saying w hw
    exact ⟨own.valid, own.phrase⟩
  · clear kept bindings
    induction saying with
    | nil => rfl
    | cons own _ ih => rw [List.map_cons, List.map_cons, own.spelled, ih]
  · obtain ⟨d, hd, own⟩ := List.mem_flatMap.1 ((bindings b).1 hb)
    exact List.mem_flatMap.2 ⟨d, hd, mem_usedIn_all own⟩
  · obtain ⟨o, ho, own⟩ := Edit.exists_of_forall₂ saying w hw
    obtain ⟨d, hd, module, -⟩ := kept.origin o ho
    exact ⟨d, hd, module.trans own.module.symm⟩

theorem StretchKept.exists_rowPrints {comments : List Edit.Span}
    (kept : StretchKept text comments isUsed ds outs)
    (thawed : ∀ o ∈ outs, o.frozen = false → ∃ w, Says types o (o.render newline) w) :
    ∃ ws, RowPrints types isUsed text ds (outs.map (Item.render newline)) ws := by
  obtain ⟨ws, saying⟩ := exists_saying fun o ho => thawed o ho (kept.thawed.2 o ho)
  exact ⟨ws, kept.rowPrints saying⟩

/-- The imports that are made of a group are printed as wordings that bind what is used of the group. The
frozen ones keep their words. -/
theorem Kept.exists_rowPrints {dialect : Dialect} {program : Program} {group : List ImportDeclaration}
    (h : parse dialect text = .ok program) (kept : Kept text program.comments isUsed group outs)
    (inside : ∀ d ∈ group, d ∈ declarations program.statements)
    (thawed : ∀ o ∈ outs, o.frozen = false → ∃ w, Says dialect.types o (o.render newline) w) :
    ∃ ws, RowPrints dialect.types isUsed text group (outs.map (Item.render newline)) ws := by
  induction kept with
  | stretch kept => exact kept.exists_rowPrints thawed
  | @barrier ds rest outs more d i kept frozen verbatim _ ih =>
      obtain ⟨-, inside⟩ := List.forall_mem_append.1 inside
      obtain ⟨own, inside⟩ := List.forall_mem_cons.1 inside
      obtain ⟨thawed, thawed'⟩ := List.forall_mem_append.1 thawed
      obtain ⟨ws, prints⟩ := kept.exists_rowPrints thawed
      obtain ⟨vs, prints'⟩ := ih inside (List.forall_mem_cons.1 thawed').2
      obtain ⟨w, _, worded⟩ := exists_worded h own
      have written : spelled w.lexemes = i.render newline := by
        rw [verbatim, worded.declares, spanText_declaration worded.place]
      have bound : bindingsBy w = usedIn text (fun _ => true) d := by
        rw [← usedIn_wording worded.place, ← worded.declares]
      have first : RowPrints dialect.types isUsed text [d] [i.render newline] [w] := by
        refine ⟨by simp [worded.valid, worded.phrase], by simp [written], fun b hb => ?_, by simp [bound],
          List.forall_mem_singleton.2 ⟨d, List.mem_singleton_self d, ?_⟩⟩
        · rw [List.flatMap_singleton] at hb ⊢
          exact bound ▸ mem_usedIn_all hb
        · rw [worded.declares]
          rfl
      rw [List.map_append, List.map_cons]
      exact ⟨_, prints.append (first.append prints')⟩

end RowPrints

end TidyImports.Import
