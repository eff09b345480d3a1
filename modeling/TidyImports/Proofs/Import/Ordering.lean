import Mathlib.Data.Char
import Mathlib.Data.List.Lex
import Mathlib.Data.Prod.Lex
import TidyImports.Proofs.Import.Divided
import TidyImports.Proofs.Import.Parted

/-! The order of organized imports. Imports and bindings are compared by keys from linear orders: each stretch
of a group ascends by the keys of its imports, the named bindings of each import ascend by theirs, and
whatever has one key keeps its order. An import that does not count as modified is as it was read,
since the text of a binding says what it binds. -/
namespace TidyImports.Import

open Script

variable {text : Text} {order : TypeOrder} {i o : Item}
  {ins outs block : List Item} {a b : NamedBinding}

def foldedKey (t : Text) : Text ×ₗ Text := toLex (t.lower, t)

def importKey (i : Item) : (Text ×ₗ Text) ×ₗ Bool := toLex (foldedKey i.module, i.isType)

def TypeOrder.isBehind (order : TypeOrder) (isType : Bool) : Bool :=
  match order with
  | .last => isType
  | .first => !isType
  | .inline => false

def bindingKey (order : TypeOrder) (b : NamedBinding) :
    (Bool ×ₗ (Text ×ₗ Text)) ×ₗ (Text ×ₗ Text) :=
  toLex (toLex (order.isBehind b.isType, foldedKey b.imported), foldedKey b.name)

structure ComparesBy {α κ : Type} [LinearOrder κ] (cmp : α → α → Ordering) (key : α → κ) : Prop where
  lt_iff : ∀ a b, cmp a b = .lt ↔ key a < key b
  eq_iff : ∀ a b, cmp a b = .eq ↔ key a = key b

/-- A list in ascending order of a key, in which items of one key stand as they stood before. -/
structure Arranged {α κ : Type} [LinearOrder κ] (key : α → κ) (before after : List α) : Prop where
  moved : after.Perm before
  ascending : after.Pairwise fun a b => key a ≤ key b
  stable : ∀ k, after.filter (key · = k) = before.filter (key · = k)

namespace ComparesBy

variable {α β κ ι : Type} [LinearOrder κ] [LinearOrder ι] {cmp cmp' : α → α → Ordering}
  {key : α → κ} {key' : α → ι}

theorem on (h : ComparesBy cmp key) (f : β → α) :
    ComparesBy (fun a b => cmp (f a) (f b)) fun a => key (f a) :=
  ⟨fun a b => h.lt_iff (f a) (f b), fun a b => h.eq_iff (f a) (f b)⟩

theorem andThen (h : ComparesBy cmp key) (k : ComparesBy cmp' key') :
    ComparesBy (fun a b => (cmp a b).then (cmp' a b)) fun a => toLex (key a, key' a) where
  lt_iff a b := by
    rw [Ordering.then_eq_lt, Prod.Lex.toLex_lt_toLex, h.lt_iff, h.eq_iff, k.lt_iff]
  eq_iff a b := by
    rw [Ordering.then_eq_eq, h.eq_iff, k.eq_iff, toLex_inj, Prod.mk.injEq]

theorem isLE_iff (h : ComparesBy cmp key) (a b : α) : (cmp a b).isLE = true ↔ key a ≤ key b := by
  rw [Ordering.isLE_iff_eq_lt_or_eq_eq, h.lt_iff, h.eq_iff, le_iff_lt_or_eq]

theorem arranged (h : ComparesBy cmp key) (l : List α) :
    Arranged key l (l.mergeSort fun a b => (cmp a b).isLE) := by
  have trans : ∀ a b c, (cmp a b).isLE = true → (cmp b c).isLE = true → (cmp a c).isLE = true := by
    simp only [h.isLE_iff]
    exact fun a b c => le_trans
  have total : ∀ a b, ((cmp a b).isLE || (cmp b a).isLE) = true := by
    simp only [Bool.or_eq_true, h.isLE_iff]
    exact fun a b => le_total _ _
  refine ⟨List.mergeSort_perm _ _, ?_, fun k => filter_mergeSort trans total fun a b ha hb => ?_⟩
  · exact (List.pairwise_mergeSort trans total l).imp (h.isLE_iff _ _).1
  · rw [h.isLE_iff, of_decide_eq_true ha, of_decide_eq_true hb]

end ComparesBy

theorem comparesBy_compareText : ComparesBy compareText fun t => t where
  lt_iff s t := by
    induction s generalizing t with
    | nil => cases t <;> simp [compareText]
    | cons a s ih =>
        cases t with
        | nil => simp [compareText]
        | cons b t =>
            rw [compareText, Ordering.then_eq_lt, ih, List.cons_lt_cons_iff, Nat.compare_eq_lt,
              Nat.compare_eq_eq, Char.toNat_inj]
            rfl
  eq_iff s t := Std.LawfulEqCmp.compare_eq_iff_eq

theorem comparesBy_compareFlag : ComparesBy compareFlag fun b => b where
  lt_iff a b := by cases a <;> cases b <;> decide
  eq_iff a b := Std.LawfulEqCmp.compare_eq_iff_eq

theorem comparesBy_compareFolded : ComparesBy compareFolded foldedKey :=
  (comparesBy_compareText.on Text.lower).andThen comparesBy_compareText

theorem comparesBy_compareImports : ComparesBy compareImports importKey :=
  (comparesBy_compareFolded.on Item.module).andThen (comparesBy_compareFlag.on Item.isType)

theorem comparesBy_compareTypes (order : TypeOrder) :
    ComparesBy (compareTypes order) order.isBehind where
  lt_iff a b := by cases order <;> cases a <;> cases b <;> decide
  eq_iff a b := by cases order <;> cases a <;> cases b <;> decide

theorem comparesBy_compareBindings (order : TypeOrder) :
    ComparesBy (compareBindings order) (bindingKey order) :=
  (((comparesBy_compareTypes order).on NamedBinding.isType).andThen
    (comparesBy_compareFolded.on NamedBinding.imported)).andThen
      (comparesBy_compareFolded.on NamedBinding.name)
def joinedBindings : List Item → List NamedBinding
  | [] => []
  | i :: rest => (rest.flatMap Item.named).foldl (fun named b => addBinding b named) i.named

/-- An import that is made of the imports of a block: it has their key, and its bindings are theirs in
order. One that does not count as modified is the only import of its block. -/
structure MadeOf (order : TypeOrder) (block : List Item) (o : Item) : Prop where
  inhabited : block ≠ []
  key : ∀ i ∈ block, importKey i = importKey o
  named : Arranged (bindingKey order) (joinedBindings block) o.named
  unchanged : o.modified = false → block = [o]

/-- The imports of a stretch and what becomes of them: the stretch is arranged by keys and cut into blocks,
and each block becomes one import. -/
structure StretchArranged (order : TypeOrder) (ins outs : List Item) : Prop where
  thawed : ∀ i ∈ ins, i.frozen = false
  ascending : outs.Pairwise fun a b => importKey a ≤ importKey b
  blocks : ∃ blocks, Arranged importKey ins blocks.flatten ∧ List.Forall₂ (MadeOf order) blocks outs

theorem Absorbed.eq_of_unmodified (h : Absorbed i block) (unmodified : i.modified = false) :
    block = [i] := by
  cases h with
  | alone i => rfl
  | next h can => cases unmodified

theorem Absorbed.named_eq (h : Absorbed i block) : i.named = joinedBindings block := by
  induction h with
  | alone i => rfl
  | @next i next block h can ih =>
      obtain ⟨first, rest, rfl⟩ := List.exists_cons_of_ne_nil (List.ne_nil_of_mem h.exists_mem.choose_spec)
      rw [List.cons_append, joinedBindings, List.flatMap_append, List.foldl_append,
        List.flatMap_singleton, ← joinedBindings, ← ih]
      rfl

theorem map_eq_of_map_eq {α β γ : Type} {f : α → β} {g : α → γ} {l m : List α}
    (determined : ∀ a ∈ l, ∀ b ∈ m, f a = f b → g a = g b) (h : l.map f = m.map f) :
    l.map g = m.map g := by
  induction l generalizing m with
  | nil =>
      rw [List.map_nil, eq_comm, List.map_eq_nil_iff] at h
      rw [h]
  | cons a l ih =>
      obtain ⟨b, rest, rfl, first, others⟩ := List.map_eq_cons_iff.1 h.symm
      rw [List.map_cons, List.map_cons, determined a (by simp) b (by simp) first.symm,
        ih (fun a ha b hb => determined a (by simp [ha]) b (by simp [hb])) others.symm]

theorem sortNamed_eq_of_unmodified
    (determined : ∀ a ∈ i.named, ∀ b ∈ i.named, a.text = b.text → a.naming = b.naming)
    (h : (i.sortNamed order).modified = false) : i.sortNamed order = i := by
  have arranged := (comparesBy_compareBindings order).arranged i.named
  have texts : (sortBindings order i.named).map NamedBinding.text =
      i.named.map NamedBinding.text := by
    simp only [Item.sortNamed, Bool.or_eq_false_iff] at h
    simpa using h.2
  have keys : (sortBindings order i.named).map (bindingKey order) =
      i.named.map (bindingKey order) := by
    refine map_eq_of_map_eq (fun a ha b hb same => ?_) texts
    have naming := determined a (arranged.moved.mem_iff.1 ha) b hb same
    simp only [NamedBinding.naming, Naming.mk.injEq] at naming
    rw [bindingKey, bindingKey, naming.1, naming.2.1, naming.2.2]
  have ascending : ((sortBindings order i.named).map (bindingKey order)).Pairwise (· ≤ ·) :=
    List.pairwise_map.2 arranged.ascending
  rw [keys] at ascending
  exact sortNamed_eq_self ((List.pairwise_map.1 ascending).imp
    ((comparesBy_compareBindings order).isLE_iff _ _).2)

theorem Absorbed.madeOf (h : Absorbed i block)
    (determined : ∀ j ∈ block, ∀ a ∈ j.named, ∀ b ∈ j.named, a.text = b.text → a.naming = b.naming) :
    MadeOf order block (i.sortNamed order) := by
  refine ⟨?_, fun j hj => ?_, ?_, fun unmodified => ?_⟩
  · obtain ⟨j, hj⟩ := h.exists_mem
    exact List.ne_nil_of_mem hj
  · have key := (h.sameKey j hj).symm
    rw [importKey, key.1, key.2]
    rfl
  · rw [← h.named_eq]
    exact (comparesBy_compareBindings order).arranged i.named
  · have alone := h.eq_of_unmodified (Bool.or_eq_false_iff.1 unmodified).1
    have own := determined i (by simp [alone])
    rw [sortNamed_eq_of_unmodified own unmodified, alone]

theorem forall₂_madeOf {merged : List Item} {blocks : List (List Item)}
    (each : List.Forall₂ Absorbed merged blocks)
    (determined : ∀ j ∈ blocks.flatten,
      ∀ a ∈ j.named, ∀ b ∈ j.named, a.text = b.text → a.naming = b.naming) :
    List.Forall₂ (MadeOf order) blocks (merged.map (Item.sortNamed order)) := by
  induction each with
  | nil => exact .nil
  | cons first _ ih =>
      rw [List.flatten_cons] at determined
      obtain ⟨own, others⟩ := List.forall_mem_append.1 determined
      exact .cons (first.madeOf own) (ih others)

theorem stretchArranged_organizeSegment {dialect : Dialect} {program : Program}
    (h : parse dialect text = .ok program)
    (read : ∀ i ∈ ins, IsRead text program i ∧ i.frozen = false) :
    StretchArranged order ins (organizeSegment order ins) := by
  have arranged := comparesBy_compareImports.arranged ins
  obtain ⟨blocks, each, whole⟩ := absorbed_mergeNeighbours (sortImports ins)
  refine ⟨fun i hi => (read i hi).2, ?_, blocks, ?_, forall₂_madeOf each fun j hj a ha b hb same => ?_⟩
  · exact (sorted_organizeSegment order ins).imp (comparesBy_compareImports.isLE_iff _ _).1
  · rw [whole]
    exact arranged
  · rw [whole] at hj
    exact naming_eq_of_text h (read j (arranged.moved.mem_iff.1 hj)).1 ha hb same

/-- Organizing imports that are read from a script arranges each stretch between frozen ones, whatever
counts as used. -/
theorem organizeGroup_arranged {dialect : Dialect} {program : Program}
    (h : parse dialect text = .ok program) (read : ∀ i ∈ ins, IsRead text program i)
    (order : TypeOrder) : Divided (StretchArranged order) ins (organizeGroup order ins) :=
  divided_organizeGroup (fun _ => stretchArranged_organizeSegment h) read

/-- Modules that differ in case, a declaration of types, and bindings that differ in case; a frozen
declaration stands between them. -/
def mixedScript : Text :=
  ("import {b, B, type a} from 'b'\nimport type {T} from 'a'\nimport a, {c} from 'A'\n" ++
    "import './side'\nimport {d} from 'a'\nimport {e as c} from 'a'\n").toList

def mixedImports : List Item :=
  importsOf mixedScript (parsed ⟨true, false⟩ mixedScript) fun _ => true

theorem mixedImports_arranged :
    mixedImports.map (fun i => (i.module, i.named.map NamedBinding.name, i.frozen)) =
        [(['b'], [['b'], ['B'], ['a']], false), (['a'], [['T']], false), (['A'], [['c']], false),
          ("./side".toList, [], true), (['a'], [['d']], false), (['a'], [['c']], false)] ∧
      (∀ i ∈ mixedImports, IsRead mixedScript (parsed ⟨true, false⟩ mixedScript) i) ∧
      Divided (StretchArranged .first) mixedImports (organizeGroup .first mixedImports) := by
  have read : ∀ i ∈ mixedImports, IsRead mixedScript (parsed ⟨true, false⟩ mixedScript) i :=
    fun _ => isRead_of_mem_importsOf
  exact ⟨by decide +kernel, read,
    organizeGroup_arranged (parse_eq_parsed (by decide +kernel)) read .first⟩

end TidyImports.Import
