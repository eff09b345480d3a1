import TidyImports.Proofs.Import.Said
import TidyImports.Proofs.Import.Stretches

/-! Groups of imports that are read from a script. Frozen imports bind nothing, so a group is organized
stretch by stretch between them; whatever organizing does to a stretch holds between any two of
them. -/
namespace TidyImports.Import

open Script

variable {text : Text} {dialect : Dialect} {program : Program} {order : TypeOrder} {i : Item}
  {ins outs rest segment : List Item}

def IsRead (text : Text) (program : Program) (i : Item) : Prop :=
  ∃ d ∈ declarations program.statements, ∃ isUsed,
    Item.ofDeclaration? text program.comments isUsed d = some i

def importsOf (text : Text) (program : Program) (isUsed : Text → Bool) : List Item :=
  (declarations program.statements).filterMap
    (Item.ofDeclaration? text program.comments isUsed)

theorem isRead_of_mem_importsOf {isUsed : Text → Bool} (h : i ∈ importsOf text program isUsed) :
    IsRead text program i := by
  obtain ⟨d, hd, read⟩ := List.mem_filterMap.1 h
  exact ⟨d, hd, isUsed, read⟩

/-- Frozen imports stay in place, and what is between two of them is related stretch by stretch. -/
inductive Divided (P : List Item → List Item → Prop) : List Item → List Item → Prop
  | stretch {ins outs : List Item} (h : P ins outs) : Divided P ins outs
  | barrier {ins outs rest more : List Item} {i : Item} (h : P ins outs)
    (frozen : i.frozen = true) (hmore : Divided P rest more) :
    Divided P (ins ++ i :: rest) (outs ++ i :: more)

theorem IsRead.cases (h : IsRead text program i) :
    (i.frozen = true ∧ i.isEmpty = true ∧ i.modified = false) ∨
      ∃ d ∈ declarations program.statements, ∃ isUsed attached,
        ownComments? text program.comments d = some attached ∧ d.hasPhase = false ∧
          i = wholeImport text isUsed d attached ∧ i.isEmpty = false := by
  obtain ⟨d, hd, isUsed, read⟩ := h
  cases hfrozen : isFrozen text program.comments d with
  | true =>
      rw [ofDeclaration?_frozen hfrozen, Option.some.injEq] at read
      subst read
      exact .inl ⟨rfl, rfl, rfl⟩
  | false =>
      obtain ⟨attached, own, phase, whole⟩ := ofDeclaration?_thawed isUsed hfrozen
      rw [whole] at read
      split at read
      · cases read
      · next inhabited =>
        rw [Option.some.injEq] at read
        subst read
        exact .inr ⟨d, hd, isUsed, attached, own, phase, rfl, eq_false_of_ne_true inhabited⟩

theorem IsRead.of_frozen (h : IsRead text program i) (frozen : i.frozen = true) :
    i.isEmpty = true ∧ i.modified = false := by
  obtain ⟨-, own⟩ | ⟨d, -, isUsed, attached, -, phase, rfl, -⟩ := h.cases
  · exact own
  · have thawed : (wholeImport text isUsed d attached).frozen = d.hasPhase := rfl
    rw [thawed, phase] at frozen
    cases frozen

theorem exists_worded {d : ImportDeclaration} (h : parse dialect text = .ok program)
    (hd : d ∈ declarations program.statements) :
    ∃ w rest, Worded dialect text program.comments d w rest := by
  obtain ⟨s, hs, kind⟩ := List.mem_filterMap.1 hd
  exact exists_worded_of_parse h hs (declaration?_eq_some.1 kind)

theorem valid_of_worded {comments : List Edit.Span} {d : ImportDeclaration} {w : Wording} {rest : Text}
    (h : Worded dialect text comments d w rest) :
    ∀ s ∈ d.specifiers.map (said text), s.Valid dialect.types d.isType := by
  have same : d.specifiers.map (said text) = saidBy w := by
    rw [h.declares]
    exact map_said_specifiers h.place
  have isType : d.isType = w.isType := by rw [h.declares, Wording.declaration]
  rw [same, isType]
  exact valid_saidBy h.valid h.phrase

theorem naming_eq_of_text (h : parse dialect text = .ok program) (read : IsRead text program i)
    {a b : NamedBinding} (ha : a ∈ i.named) (hb : b ∈ i.named) (same : a.text = b.text) :
    a.naming = b.naming := by
  obtain ⟨-, empty, -⟩ | ⟨d, hd, isUsed, attached, -, -, rfl, -⟩ := read.cases
  · simp only [Item.isEmpty, Bool.and_eq_true, List.isEmpty_iff] at empty
    rw [empty.2] at ha
    cases ha
  · obtain ⟨w, rest, worded⟩ := exists_worded h hd
    have valid := valid_of_worded worded
    have first := valid _ (said_of_mem_usedBindings ha).1
    have second := valid _ (said_of_mem_usedBindings hb).1
    rw [same] at first
    exact first.unique second

theorem divided_organizeFrom {P : List Item → List Item → Prop} {Q : Item → Prop}
    (segment : List Item)
    (hP : ∀ l, (∀ i ∈ l, Q i ∧ i.frozen = false) → P l (organizeSegment order l))
    (stays : ∀ i, Q i → i.frozen = true → i.isEmpty = true)
    (hsegment : ∀ i ∈ segment, Q i ∧ i.frozen = false) (hrest : ∀ i ∈ rest, Q i) :
    Divided P (segment ++ rest) (organizeFrom order segment rest) := by
  -- By induction on the imports that are left, with the current stretch at hand.
  induction rest generalizing segment with
  | nil =>
      rw [List.append_nil]
      exact .stretch (hP segment hsegment)
  | cons next rest ih =>
      obtain ⟨own, hrest⟩ := List.forall_mem_cons.1 hrest
      rw [organizeFrom]
      split
      · next divides =>
        have frozen := (Bool.and_eq_true_iff.1 divides).1
        exact .barrier (hP segment hsegment) frozen
          (ih [] (by simp) hrest)
      · next whole =>
        have thawed : next.frozen = false := by
          by_contra frozen
          rw [Bool.not_eq_false] at frozen
          exact whole (by rw [frozen, stays next own frozen, Bool.and_self])
        have step := ih (segment ++ [next])
          (List.forall_mem_append.2 ⟨hsegment, by simp [own, thawed]⟩) hrest
        rw [List.append_assoc, List.singleton_append] at step
        exact step

theorem divided_organizeGroup {P : List Item → List Item → Prop}
    (hP : ∀ l, (∀ i ∈ l, IsRead text program i ∧ i.frozen = false) → P l (organizeSegment order l))
    (read : ∀ i ∈ ins, IsRead text program i) : Divided P ins (organizeGroup order ins) :=
  divided_organizeFrom [] hP (fun _ own frozen => (own.of_frozen frozen).1) (by simp) read

theorem origin_of_mem_organizeGroup {o : Item} (read : ∀ i ∈ ins, IsRead text program i)
    (ho : o ∈ organizeGroup order ins) : (o.frozen = true ∧ o ∈ ins) ∨
      ∃ stretch, stretch ⊆ ins ∧ (∀ i ∈ stretch, IsRead text program i ∧ i.frozen = false) ∧
        o ∈ organizeSegment order stretch := by
  have divided : Divided (fun stretch outs => (∀ i ∈ stretch, IsRead text program i ∧ i.frozen = false) ∧
      outs = organizeSegment order stretch) ins (organizeGroup order ins) :=
    divided_organizeGroup (fun _ each => ⟨each, rfl⟩) read
  generalize organizeGroup order ins = outs at ho divided
  clear read
  induction divided with
  | stretch made => exact .inr ⟨_, List.Subset.refl _, made.1, made.2 ▸ ho⟩
  | barrier made frozen _ ih =>
      rcases List.mem_append.1 ho with ho | ho
      · exact .inr ⟨_, List.subset_append_left _ _, made.1, made.2 ▸ ho⟩
      · rcases List.mem_cons.1 ho with rfl | ho
        · exact .inl ⟨frozen, by simp⟩
        · obtain ⟨frozen, mem⟩ | ⟨stretch, within, each, mem⟩ := ih ho
          · exact .inl ⟨frozen, by simp [mem]⟩
          · exact .inr ⟨stretch, fun i hi =>
              List.mem_append_right _ (List.mem_cons_of_mem _ (within hi)), each, mem⟩

end TidyImports.Import
