import TidyImports.Proofs.Import.Rewoven
import TidyImports.Proofs.Import.Standalone

/-! Organizing again. An import that is printed for a group is read again as the organizer left it,
wherever its print stands; so if the groups of a script are printed in wordings, and the statements between
them are read as before, the new text is parsed, uses the names that the old one uses, and its groups are
organized to what they are. -/
namespace TidyImports.Import

open Script

variable {text text' newline printed : Text} {dialect : Dialect} {program again : Program} {order : TypeOrder}
  {isUsed : Text → Bool} {comments : List Edit.Span} {d d' : ImportDeclaration} {i o : Item}
  {ins : List Item} {group group' : List ImportDeclaration}

theorem isNewline_newlineOf (text : Text) : IsNewline (newlineOf text) := by
  unfold newlineOf
  split
  · exact .inr rfl
  · exact .inl rfl

/-! What a group is organized to. -/

theorem mem_of_mem_organizeGroup (h : parse dialect text = .ok program)
    (read : ∀ i ∈ ins, IsRead text program i) (ho : o ∈ organizeGroup order ins)
    (alone : o.frozen = true ∨ o.modified = false) : o ∈ ins := by
  obtain ⟨-, mem⟩ | ⟨stretch, within, each, mem⟩ := origin_of_mem_organizeGroup read ho
  · exact mem
  · refine within (mem_of_mem_organizeSegment h each mem (alone.resolve_left fun frozen => ?_))
    obtain ⟨i, hi, -, -, -, same⟩ := (keeps_organizeSegment order stretch).origin o mem
    rw [← same, (each i hi).2] at frozen
    cases frozen

theorem Keeps.mem_bindings {outs : List Item} (h : Keeps ins outs) (b : Binding) :
    b ∈ outs.flatMap Item.bindings ↔ b ∈ ins.flatMap Item.bindings := by
  rw [Import.mem_bindings, Import.mem_bindings, h.alone.mem_iff, (gathers_of_joins h.joined).mem_bound]

theorem bindings_of_mem_organizeGroup (read : ∀ i ∈ ins, IsRead text program i)
    (ho : o ∈ organizeGroup order ins) {b : Binding} (hb : b ∈ o.bindings) :
    ∃ i ∈ ins, b ∈ i.bindings := by
  obtain ⟨-, mem⟩ | ⟨stretch, within, -, mem⟩ := origin_of_mem_organizeGroup read ho
  · exact ⟨o, mem, hb⟩
  · have bound : b ∈ stretch.flatMap Item.bindings :=
      ((keeps_organizeSegment order stretch).mem_bindings b).1 (List.mem_flatMap.2 ⟨o, mem, hb⟩)
    obtain ⟨i, hi, own⟩ := List.mem_flatMap.1 bound
    exact ⟨i, within hi, own⟩

theorem usedIn_of_read (clause : Clause d.specifiers)
    (read : Item.ofDeclaration? text comments isUsed d = some i) {b : Binding} (hb : b ∈ i.bindings) :
    b ∈ usedIn text isUsed d := by
  cases hfrozen : isFrozen text comments d with
  | true =>
      rw [ofDeclaration?_frozen hfrozen, Option.some.injEq] at read
      subst read
      cases hb
  | false =>
      have reads := readsAs_ofDeclaration? isUsed clause hfrozen
      rw [read] at reads
      have whole : b ∈ [i].flatMap Item.bindings := by simpa using hb
      rw [Import.mem_bindings, ← Option.toList_some, reads.alone, reads.named, reads.bound] at whole
      simpa using whole.elim List.mem_of_mem_filter List.mem_of_mem_filter

theorem usedBindings_of_used {specifiers : List ImportSpecifier}
    (used : ∀ s ∈ specifiers, isUsed s.name = true) (attached : List SpecifierComments) :
    usedBindings text isUsed specifiers attached = usedBindings text (fun _ => true) specifiers attached := by
  induction specifiers generalizing attached with
  | nil => rfl
  | cons s rest ih =>
      obtain ⟨own, others⟩ := List.forall_mem_cons.1 used
      cases s with
      | defaultName | namespaceName => exact ih others attached
      | named imported name isType span =>
          have used : isUsed name = true := own
          rw [usedBindings, usedBindings, if_pos used, if_pos rfl, ih others]

theorem ofDeclaration?_of_used (used : ∀ s ∈ d.specifiers, isUsed s.name = true) :
    Item.ofDeclaration? text comments isUsed d =
      Item.ofDeclaration? text comments (fun _ => true) d := by
  cases hfrozen : isFrozen text comments d with
  | true => rw [ofDeclaration?_frozen hfrozen, ofDeclaration?_frozen hfrozen]
  | false =>
      obtain ⟨attached, own, -, read⟩ := ofDeclaration?_thawed isUsed hfrozen
      obtain ⟨attached', own', -, all⟩ := ofDeclaration?_thawed (fun _ => true) hfrozen
      obtain rfl := Option.some.inj (own.symm.trans own')
      have every : ∀ s ∈ d.specifiers, (fun _ : Text => true) s.name = true := fun _ _ => rfl
      have modified : (d.specifiers.any fun s => !isUsed s.name) = d.specifiers.any fun _ => !true := by
        rw [List.any_eq_false.2 fun s hs => by simp [used s hs], List.any_eq_false.2 fun _ _ => by simp]
      have same : wholeImport text isUsed d attached = wholeImport text (fun _ => true) d attached := by
        rw [wholeImport, wholeImport, usedDefault_of_all used, usedDefault_of_all every,
          usedNamespace_of_all used, usedNamespace_of_all every, usedBindings_of_used used, modified]
      rw [read, all, same]

theorem written_of_read (read : Item.ofDeclaration? text comments isUsed d = some i) :
    i.written = spanText text d.span := by
  cases hfrozen : isFrozen text comments d with
  | true =>
      rw [ofDeclaration?_frozen hfrozen, Option.some.injEq] at read
      exact read ▸ rfl
  | false =>
      obtain ⟨attached, -, -, whole⟩ := ofDeclaration?_thawed isUsed hfrozen
      rw [whole] at read
      split at read
      · cases read
      · exact Option.some.inj read ▸ rfl

/-! The imports of a group. -/

def organizedImports (text : Text) (program : Program) (isUsed : Text → Bool) (order : TypeOrder)
    (group : List ImportDeclaration) : List Item :=
  organizeGroup order (group.filterMap (Item.ofDeclaration? text program.comments isUsed))

def organizedTexts (text : Text) (program : Program) (isUsed : Text → Bool) (order : TypeOrder)
    (group : List ImportDeclaration) : List Text :=
  (organizedImports text program isUsed order group).map (Item.render (newlineOf text))

theorem organizedText_eq_glue (text : Text) (program : Program) (isUsed : Text → Bool) (order : TypeOrder)
    (group : List ImportDeclaration) : organizedText text program isUsed order group =
      Text.glue (newlineOf text) (organizedTexts text program isUsed order group) := rfl

theorem mem_declarations_of_group (hgroup : group ∈ importGroups text program.statements)
    (hd : d ∈ group) : d ∈ declarations program.statements := by
  rw [← flatten_importGroups text]
  exact List.mem_flatten.2 ⟨group, hgroup, hd⟩

section Group

variable (h : parse dialect text = .ok program) (hgroup : group ∈ importGroups text program.statements)
include hgroup

theorem isRead_of_group (isUsed : Text → Bool) :
    ∀ i ∈ group.filterMap (Item.ofDeclaration? text program.comments isUsed), IsRead text program i := by
  intro i hi
  obtain ⟨d, hd, read⟩ := List.mem_filterMap.1 hi
  exact ⟨d, mem_declarations_of_group hgroup hd, isUsed, read⟩

include h

theorem exists_rowPrints_organized {behind : Text}
    (plain : ∀ o ∈ organizedImports text program isUsed order group, o.modified = true →
      o.attributes = none ∧ ∀ b ∈ o.named, b.Printable)
    (apart : (organizedText text program isUsed order group).getLast? = some ';' ∨
      standsApart behind = true) :
    ∃ ws, RowPrints dialect.types isUsed text group (organizedTexts text program isUsed order group) ws ∧
      ∀ w ∈ ws.getLast?, w.ending = [] → standsApart behind = true := by
  have kept : Kept text program.comments isUsed group (organizedImports text program isUsed order group) :=
    kept_organizeFrom order .nil (clause_of_mem_group h hgroup)
  have thawed : ∀ o ∈ organizedImports text program isUsed order group, o.frozen = false →
      ∃ w, Says dialect.types o (o.render (newlineOf text)) w := fun o ho thawed => by
    obtain ⟨w, saying, -⟩ := says_organized h (isRead_of_group hgroup isUsed) ho thawed
      (isNewline_newlineOf text) (plain o ho)
    exact ⟨w, saying⟩
  obtain ⟨ws, prints⟩ := kept.exists_rowPrints h (fun d => mem_declarations_of_group hgroup) thawed
  have whole : organizedText text program isUsed order group =
      Text.glue (newlineOf text) (ws.map fun w => spelled w.lexemes) := by
    rw [organizedText_eq_glue, prints.printed]
    rfl
  refine ⟨ws, prints, fun w hw none => apart.resolve_left fun semicolon => ?_⟩
  obtain ⟨valid, phrase⟩ := prints.valid w (List.mem_of_getLast? hw)
  refine valid.ending_ne_nil phrase ?_ none
  obtain ⟨init, rfl⟩ := List.getLast?_eq_some_iff.1 hw
  rw [whole, List.map_append] at semicolon
  rwa [List.map_singleton, Text.getLast?_glue _ _ (valid.spelled_ne_nil phrase)] at semicolon

theorem ofDeclaration?_left (parsed : parse dialect text' = .ok again)
    (mem : o ∈ group.filterMap (Item.ofDeclaration? text program.comments isUsed))
    (unmodified : o.modified = false) (hd' : d' ∈ declarations again.statements)
    (written : spanText text' d'.span = o.render (newlineOf text)) :
    Item.ofDeclaration? text' again.comments isUsed d' = some (o.printed (newlineOf text)) := by
  obtain ⟨d, hd, found⟩ := List.mem_filterMap.1 mem
  obtain ⟨_, _, worded⟩ := exists_worded h (mem_declarations_of_group hgroup hd)
  obtain ⟨_, _, worded'⟩ := exists_worded parsed hd'
  have render : o.render (newlineOf text) = o.written := by
    rw [Item.render, unmodified, if_neg (by simp)]
  have same : spanText text' d'.span = spanText text d.span := by
    rw [written, render, written_of_read found]
  have printed : o.printed (newlineOf text) = o := by
    rw [Item.printed, render, ← unmodified]
  rw [ofDeclaration?_eq_of_spanText worded worded' same, found, printed]

theorem used_of_restates {w : Wording} {rest : Text}
    (ho : o ∈ organizedImports text program isUsed order group) (clause : Clause d'.specifiers)
    (worded : Worded dialect text' comments d' w rest) (restates : Restates text' d' o) :
    ∀ s ∈ d'.specifiers, isUsed s.name = true := by
  intro s hs
  have bound : (⟨headerOf text' d', formOf text' s⟩ : Binding) ∈ usedIn text' (fun _ => true) d' :=
    List.mem_map.2 ⟨s, by simpa using hs, rfl⟩
  obtain ⟨i, hi, own⟩ := bindings_of_mem_organizeGroup (isRead_of_group hgroup isUsed) ho
    ((restates.mem_bindings clause _).1 bound)
  obtain ⟨d, hd, found⟩ := List.mem_filterMap.1 hi
  obtain ⟨s', hs', same⟩ :=
    List.mem_map.1 (usedIn_of_read (clause_of_mem_group h hgroup d hd) found own)
  obtain ⟨hs', used⟩ := List.mem_filter.1 hs'
  obtain ⟨_, _, source⟩ := exists_worded h (mem_declarations_of_group hgroup hd)
  rwa [name_eq_of_form worded source hs hs' (Import.Binding.mk.inj same).2.symm]

theorem ofDeclaration?_made (parsed : parse dialect text' = .ok again)
    (ho : o ∈ organizedImports text program isUsed order group) (thawed : o.frozen = false)
    (modified : o.modified = true) (attributes : o.attributes = none) (attachable : Attachable o.named)
    (hd' : d' ∈ declarations again.statements)
    (written : spanText text' d'.span = o.render (newlineOf text)) :
    Item.ofDeclaration? text' again.comments isUsed d' = some (o.printed (newlineOf text)) := by
  have hnewline := isNewline_newlineOf text
  have wellWritten :=
    (organized_of_mem_organizeGroup h (isRead_of_group hgroup isUsed) ho thawed).written
  obtain ⟨alone, d, binders, parses, statements, whole, printed, braces, worded, restates⟩ :=
    exists_worded_render wellWritten modified attributes hnewline attachable.printable
  obtain ⟨_, _, worded'⟩ := exists_worded parsed hd'
  have attached := attachedComments?_printed wellWritten attachable hnewline printed braces worded
  have found := ofDeclaration?_printed wellWritten thawed whole restates attached
  have clause := ((inOrder_of_parse parses).placed _
    (statements ▸ List.mem_singleton_self _)).importing d rfl
  rw [ofDeclaration?_eq_of_spanText worded worded' (written.trans whole.symm),
    ofDeclaration?_of_used (used_of_restates h hgroup ho clause.2.1 worded restates), found]

theorem ofDeclaration?_organized (parsed : parse dialect text' = .ok again)
    (ho : o ∈ organizedImports text program isUsed order group)
    (plain : o.modified = true → o.attributes = none ∧ Attachable o.named)
    (hd' : d' ∈ declarations again.statements)
    (written : spanText text' d'.span = o.render (newlineOf text)) :
    Item.ofDeclaration? text' again.comments isUsed d' = some (o.printed (newlineOf text)) := by
  have read := isRead_of_group hgroup isUsed
  by_cases alone : o.frozen = true ∨ o.modified = false
  · have mem := mem_of_mem_organizeGroup h read ho alone
    have unmodified := alone.elim (fun frozen => ((read o mem).of_frozen frozen).2) id
    exact ofDeclaration?_left h hgroup parsed mem unmodified hd' written
  · obtain ⟨thawed, modified⟩ := not_or.1 alone
    rw [Bool.not_eq_true] at thawed
    rw [Bool.not_eq_false] at modified
    obtain ⟨attributes, attachable⟩ := plain modified
    exact ofDeclaration?_made h hgroup parsed ho thawed modified attributes attachable hd' written

end Group

/-! Running again. -/

/-- The text from an offset on, with the organized imports of its groups in their places. -/
def organizedFrom (text : Text) (program : Program) (isUsed : Text → Bool) (order : TypeOrder) (n : Nat) :
    Text :=
  reprinted text (newlineOf text) program.statements (organizedTexts text program isUsed order) n

def organizedScript (text : Text) (program : Program) (isUsed : Text → Bool) (order : TypeOrder) : Text :=
  organizedFrom text program isUsed order 0

theorem splice_organizeProgram (h : parse dialect text = .ok program) (keepUnused hasElements : Bool)
    (order : TypeOrder) :
    Edit.splice 0 text (organizeProgram text program keepUnused hasElements order) =
      organizedScript text program (isUsedIn program keepUnused hasElements) order := by
  have inOrder := inOrder_of_parse h
  have groups := groupsInOrder_of_inOrder inOrder
  rw [organizedScript, organizedFrom, reprinted_zero]
  exact Edit.splice_filterMap (spansInOrder_replaced inOrder _) (Text.restAt_zero text)
    (fun _ _ => Nat.zero_le _) fun group hgroup => (groups.placed group hgroup).puts_groupChange? _

/-- The organizer changes a group at an offset or behind it. -/
def ChangedFrom (text : Text) (program : Program) (isUsed : Text → Bool) (order : TypeOrder) (n : Nat) :
    Prop :=
  Changes text (newlineOf text) program.statements (organizedTexts text program isUsed order) n

instance (text : Text) (program : Program) (isUsed : Text → Bool) (order : TypeOrder) (n : Nat) :
    Decidable (ChangedFrom text program isUsed order n) :=
  inferInstanceAs (Decidable (Changes ..))

/-- Up to the last group that changes, what is printed for the groups anew has no attributes, and comments
that can be printed; the print ends with a semicolon, or what comes to stand behind it is set apart from it;
and every statement between the groups is read alike in front of what is printed behind it. -/
structure Separable (dialect : Dialect) (text : Text) (program : Program) (isUsed : Text → Bool)
    (order : TypeOrder) : Prop where
  plain : ∀ group ∈ importGroups text program.statements,
    ChangedFrom text program isUsed order (groupSpan group).start →
      ∀ o ∈ organizedImports text program isUsed order group, o.modified = true →
        o.attributes = none ∧ ∀ b ∈ o.named, b.Printable
  apart : ∀ group ∈ importGroups text program.statements,
    ChangedFrom text program isUsed order (groupSpan group).start →
      (organizedText text program isUsed order group).getLast? = some ';' ∨
        standsApart (organizedFrom text program isUsed order (groupSpan group).stop) = true
  alike : ∀ s ∈ program.statements, declaration? s = none →
    ChangedFrom text program isUsed order s.span.stop →
      ReadsAlike dialect (text.after s.span.start) (organizedFrom text program isUsed order s.span.start)

/-- What is printed can be read again: its comments come back to their bindings, and the line breaks stay
what they are. -/
structure Repeatable (dialect : Dialect) (text : Text) (program : Program) (isUsed : Text → Bool)
    (order : TypeOrder) : Prop extends Separable dialect text program isUsed order where
  attachable : ∀ group ∈ importGroups text program.statements,
    ChangedFrom text program isUsed order (groupSpan group).start →
      ∀ o ∈ organizedImports text program isUsed order group, o.modified = true → Attachable o.named
  newline : newlineOf (organizedScript text program isUsed order) = newlineOf text

instance (dialect : Dialect) (text : Text) (program : Program) (isUsed : Text → Bool) (order : TypeOrder) :
    Decidable (Separable dialect text program isUsed order) :=
  decidable_of_iff (_ ∧ _ ∧ _) ⟨fun h => ⟨h.1, h.2.1, h.2.2⟩, fun h => ⟨h.plain, h.apart, h.alike⟩⟩

instance (dialect : Dialect) (text : Text) (program : Program) (isUsed : Text → Bool) (order : TypeOrder) :
    Decidable (Repeatable dialect text program isUsed order) :=
  decidable_of_iff (_ ∧ _ ∧ _) ⟨fun h => ⟨h.1, h.2.1, h.2.2⟩,
    fun h => ⟨h.toSeparable, h.attachable, h.newline⟩⟩

theorem Separable.replaceable (separable : Separable dialect text program isUsed order)
    (h : parse dialect text = .ok program) :
    Replaceable dialect isUsed text (newlineOf text) program.statements
      (organizedTexts text program isUsed order) where
  rows := fun group hgroup changes => exists_rowPrints_organized h hgroup
    (separable.plain group hgroup changes) (separable.apart group hgroup changes)
  alike := separable.alike

theorem filterMap_eq_of_map_eq {α β γ δ : Type} {f : α → γ} {g : β → γ} {r : α → Option δ}
    {q : β → Option δ} {l : List α} {m : List β} (same : l.map f = m.map g)
    (each : ∀ a ∈ l, ∀ b ∈ m, f a = g b → r a = q b) : l.filterMap r = m.filterMap q := by
  induction l generalizing m with
  | nil =>
      obtain rfl := List.map_eq_nil_iff.1 same.symm
      rfl
  | cons a l ih =>
      obtain ⟨b, m, rfl, first, others⟩ := List.map_eq_cons_iff.1 same.symm
      have own := each a (by simp) b (by simp) first.symm
      have more := ih others.symm fun a ha b hb =>
        each a (List.mem_cons_of_mem _ ha) b (List.mem_cons_of_mem _ hb)
      rw [List.filterMap_cons, List.filterMap_cons, own, more]

namespace Repeatable

theorem organizedText_eq (repeatable : Repeatable dialect text program isUsed order)
    (h : parse dialect text = .ok program) (parsed : parse dialect text' = .ok again)
    (newline : newlineOf text' = newlineOf text) (hgroup : group ∈ importGroups text program.statements)
    (hgroup' : group' ∈ importGroups text' again.statements)
    (replaces : Replaces (ChangedFrom text program isUsed order (groupSpan group).start) text (newlineOf text)
      (organizedTexts text program isUsed order group) text' group group') :
    organizedText text' again isUsed order group' =
      text'.slice (groupSpan group').start (groupSpan group').stop := by
  rw [replaces.slice]
  by_cases changes : ChangedFrom text program isUsed order (groupSpan group).start
  · have read : group'.filterMap (Item.ofDeclaration? text' again.comments isUsed) =
        (organizedImports text program isUsed order group).map (Item.printed (newlineOf text)) := by
      rw [← List.filterMap_eq_map]
      exact filterMap_eq_of_map_eq (replaces.changed changes) fun d' hd' o ho written =>
        ofDeclaration?_organized h hgroup parsed ho
          (fun modified => ⟨(repeatable.plain group hgroup changes o ho modified).1,
            repeatable.attachable group hgroup changes o ho modified⟩)
          (mem_declarations_of_group hgroup' hd') written
    have settled : GroupSettled order
        ((organizedImports text program isUsed order group).map (Item.printed (newlineOf text))) :=
      groupSettled_printed (groupSettled_organizeGroup order _)
    rw [organizedText, read, organizeGroup_eq_self settled, newline, List.map_map]
    rfl
  · have read : group'.filterMap (Item.ofDeclaration? text' again.comments isUsed) =
        group.filterMap (Item.ofDeclaration? text program.comments isUsed) := by
      refine filterMap_eq_of_map_eq (replaces.other changes) fun d' hd' d hd written => ?_
      obtain ⟨_, _, worded⟩ := exists_worded h (mem_declarations_of_group hgroup hd)
      obtain ⟨_, _, worded'⟩ := exists_worded parsed (mem_declarations_of_group hgroup' hd')
      exact ofDeclaration?_eq_of_spanText worded worded' written isUsed
    rw [organizedText, read, newline]
    rfl

theorem stands (repeatable : Repeatable dialect text program isUsed order)
    (h : parse dialect text = .ok program)
    (used : ∀ name, program.names.isUsed name = true → isUsed name = true)
    (whole : organizedScript text program isUsed order = text') :
    ∃ again, parse dialect text' = .ok again ∧
      (∀ name, again.names.isUsed name = program.names.isUsed name) ∧
      (∀ m ∈ modulesIn again.statements, m ∈ modulesIn program.statements) ∧
      ∀ group' ∈ importGroups text' again.statements, organizedText text' again isUsed order group' =
        text'.slice (groupSpan group').start (groupSpan group').stop := by
  obtain ⟨again, rest, parsed, renewed, names, names'⟩ :=
    parse_reprinted (isNewline_newlineOf text) h (repeatable.replaceable h) whole
  refine ⟨again, parsed, renewed.isUsed_eq h parsed names names' used, renewed.modules, ?_⟩
  intro group' hgroup'
  obtain ⟨group, hgroup, replaces⟩ := Edit.exists_of_forall₂ renewed.groups group' hgroup'
  exact repeatable.organizedText_eq h parsed (whole ▸ repeatable.newline) (List.mem_of_mem_filter hgroup)
    hgroup' replaces

end Repeatable

end TidyImports.Import
