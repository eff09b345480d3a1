import TidyImports.Proofs.Edit.Accepted
import TidyImports.Proofs.Import.Attached
import TidyImports.Proofs.Import.Ordering

/-! Imports whose parts are written by tokens that say them. The imports that are read from a script are
well written, merging and sorting keep them so, and an import that did not change is one that was read. -/
namespace TidyImports.Import

open Script

variable {text : Text} {dialect : Dialect} {program : Program} {types : Bool} {a b i : Item}
  {ins : List Item} {order : TypeOrder} {w : Wording} {isUsed : Text → Bool}
  {specifiers : List ImportSpecifier} {attached : List SpecifierComments} {name written : Text}

/-- A binding whose text says it, with comments that are well formed. -/
structure NamedBinding.WellWritten (types isType : Bool) (b : NamedBinding) : Prop where
  naming : (Said.named b.naming b.text).Valid types isType
  comments : ∀ comment ∈ b.leading ++ b.trailing, IsComment comment

/-- A name for the whole module, without comments between its tokens. -/
structure WholeName (types isType : Bool) (written : Text) (star as name : Lexeme) : Prop where
  valid : (Tail.whole star as name).Valid types isType
  phrase : Phrase [star, as, name]
  spells : spelled [star, as, name] = written
  blank : ∀ l ∈ [star, as], ∀ piece ∈ l.gap, piece.isComment = false

/-- An import whose parts are written by tokens that say them. A default name `from` of types stands
alone, and a name for the whole module stands without named bindings. -/
structure WellWritten (types : Bool) (i : Item) : Prop where
  kind : i.isType = true → types = true
  inhabited : i.isEmpty = false
  source : Spells (.string i.module) i.source
  default : ∀ written ∈ i.defaultName, ∃ token : Token, token.isBinding = true ∧
    Spells token written ∧
      (i.isType = true → token = .word "from" false → i.namespaceName = none ∧ i.named = [])
  whole : ∀ written ∈ i.namespaceName, i.named = [] ∧
    ∃ star as name, WholeName types i.isType written star as name
  named : ∀ b ∈ i.named, b.WellWritten types i.isType

theorem isComment_of_headComments? {before : Text} {leading : List Text}
    (h : headComments? before = some leading) : ∀ comment ∈ leading, IsComment comment := by
  rw [headComments?] at h
  split at h
  · cases h
  · next inside _ _ =>
    have scan := scans_scanTrivia inside.reverse
    generalize scanTrivia inside.reverse = found at h scan
    obtain ⟨trivia, rest⟩ := found
    simp only [Option.ite_none_right_eq_some, Option.some.injEq] at h
    rw [← h.2]
    exact scan.isComment

theorem isComment_of_divideGap {seenComma nextLine : Bool} {behind : Text} {gap : GapComments}
    (h : divideGap seenComma nextLine (scanTrivia behind).1 = some gap) :
    ∀ comment ∈ gap.trailing ++ gap.leading, IsComment comment := by
  rw [(divideGap_comments h).1]
  exact (scans_scanTrivia behind).isComment

theorem isComment_of_commentsFrom {stop : Nat} {leading : List Text} {named : List Edit.Span}
    (h : commentsFrom text stop leading named = some attached)
    (before : ∀ comment ∈ leading, IsComment comment) :
    ∀ own ∈ attached, ∀ comment ∈ own.leading ++ own.trailing, IsComment comment := by
  -- By induction on the specifiers, with the comments before the first one at hand.
  induction named generalizing leading attached with
  | nil =>
      cases h
      simp
  | cons span named ih =>
      cases named with
      | nil =>
          obtain ⟨gap, divided, -, -, rfl⟩ := commentsFrom_last_iff.1 h
          have behind := List.forall_mem_append.1 (isComment_of_divideGap divided)
          exact List.forall_mem_singleton.2 (List.forall_mem_append.2 ⟨before, behind.1⟩)
      | cons next more =>
          obtain ⟨gap, divided, -, -, others, found, rfl⟩ := commentsFrom_cons_iff.1 h
          have behind := List.forall_mem_append.1 (isComment_of_divideGap divided)
          exact List.forall_mem_cons.2 ⟨List.forall_mem_append.2 ⟨before, behind.1⟩,
            ih found behind.2⟩

theorem isComment_of_attachedComments? {declaration : Edit.Span} {named comments : List Edit.Span}
    (h : attachedComments? text declaration named comments = some attached) :
    ∀ own ∈ attached, ∀ comment ∈ own.leading ++ own.trailing, IsComment comment := by
  by_cases loose : looseSpans declaration named comments = []
  · rw [attachedComments?_of_looseSpans loose] at h
    cases h
    exact List.forall_mem_map.2 fun _ _ => by simp
  · cases named with
    | nil =>
        rw [attachedComments?_nil loose] at h
        cases h
    | cons first more =>
        obtain ⟨leading, head, found, -⟩ := (attachedComments?_cons_iff loose).1 h
        exact isComment_of_commentsFrom found (isComment_of_headComments? head)

theorem said_of_usedDefault (h : usedDefault text isUsed specifiers = some written) :
    ∃ name, Said.default name written ∈ specifiers.map (said text) := by
  obtain ⟨before, specifier, behind, rfl, own, -⟩ := List.findSome?_eq_some_iff.1 h
  cases specifier with
  | defaultName name span =>
      simp only [Option.ite_none_right_eq_some, Option.some.injEq] at own
      exact ⟨name, by simp [said, own.2]⟩
  | _ => cases own

theorem said_of_usedNamespace (h : usedNamespace text isUsed specifiers = some written) :
    ∃ name, Said.whole name written ∈ specifiers.map (said text) := by
  obtain ⟨before, specifier, behind, rfl, own, -⟩ := List.findSome?_eq_some_iff.1 h
  cases specifier with
  | namespaceName name span =>
      simp only [Option.ite_none_right_eq_some, Option.some.injEq] at own
      exact ⟨name, by simp [said, own.2]⟩
  | _ => cases own

theorem exists_token_of_default {name : Text} (valid : w.Valid types) (phrase : Phrase w.lexemes)
    (h : Said.default name written ∈ saidBy w) :
    ∃ token : Token, token.isBinding = true ∧ Spells token written ∧
      (w.isType = true → token = .word "from" false → saidBy w = [.default name written]) := by
  have spells {l : Lexeme} (hl : l ∈ w.bound) : Spells l.token l.text :=
    phrase.spells l (by simp [Wording.lexemes, hl])
  cases hbinders : w.binders with
  | none => simp [saidBy, hbinders] at h
  | some found =>
      obtain ⟨binders, from'⟩ := found
      have bound : w.bound = binders.lexemes ++ [from'] := by rw [Wording.bound, hbinders, boundBy]
      have said : saidBy w = saidByBinders binders := by rw [saidBy, hbinders]
      rw [said] at h ⊢
      have none {tail : Tail} : Said.default name written ∉ saidByTail tail := by
        cases tail <;> simp [saidByTail]
      cases (valid.binders binders from' hbinders).1 with
      | @default own binding =>
          obtain ⟨rfl, rfl⟩ := Said.default.inj (List.mem_singleton.1 h)
          exact ⟨own.token, binding, spells (by simp [bound, Binders.lexemes]), fun _ _ => rfl⟩
      | tail more => exact absurd h none
      | @both own comma rest binding mark more other =>
          have first := (List.mem_cons.1 h).resolve_right none
          obtain ⟨rfl, rfl⟩ := Said.default.inj first
          exact ⟨own.token, binding, spells (by simp [bound, Binders.lexemes]),
            fun types same => absurd same (other types)⟩

theorem named_not_mem_of_whole {name : Text} (h : Said.whole name written ∈ saidBy w) (n : Naming)
    (other : Text) : Said.named n other ∉ saidBy w := by
  rw [saidBy] at h ⊢
  have apart {tail : Tail} (h : Said.whole name written ∈ saidByTail tail) :
      Said.named n other ∉ saidByTail tail := by
    cases tail <;> simp_all [saidByTail]
  cases hbinders : w.binders with
  | none => simp
  | some found =>
      rw [hbinders] at h
      obtain ⟨binders, from'⟩ := found
      cases binders with
      | default own => simp [saidByBinders, saidByName]
      | tail rest => exact apart h
      | both own comma rest =>
          have behind := (List.mem_cons.1 h).resolve_left (by simp [saidByName])
          simp [saidByBinders, saidByName, apart behind]

theorem gapComments_eq_nil_iff {offset : Nat} {pieces : List GapPiece} :
    gapComments offset pieces = [] ↔ ∀ piece ∈ pieces, piece.isComment = false := by
  induction pieces generalizing offset with
  | nil => simp [gapComments]
  | cons piece pieces ih =>
      rw [gapComments, List.forall_mem_cons, ← @ih (offset + piece.text.width)]
      cases piece.isComment <;> simp

theorem lexemeComments_eq_nil_iff {offset : Nat} {ls : List Lexeme} :
    lexemeComments offset ls = [] ↔ ∀ l ∈ ls, ∀ piece ∈ l.gap, piece.isComment = false := by
  induction ls generalizing offset with
  | nil => simp [lexemeComments]
  | cons l ls ih =>
      rw [lexemeComments, List.append_eq_nil_iff, gapComments_eq_nil_iff, ih, List.forall_mem_cons]

theorem exists_wholeName {comments : List Edit.Span} {d : ImportDeclaration} {rest name : Text}
    (h : Worded dialect text comments d w rest) (own : ownComments? text comments d = some attached)
    (mem : Said.whole name written ∈ saidBy w) :
    ∃ star as name, WholeName dialect.types w.isType written star as name := by
  have behind {before : List Lexeme} {tail : Tail} {from' : Lexeme}
      (tailed : Tailed dialect.types w before tail from') (mem : Said.whole name written ∈ saidByTail tail) :
      ∃ star as name, WholeName dialect.types w.isType written star as name := by
    cases tail with
    | braces opening items closing => simp [saidByTail] at mem
    | whole star as name' =>
        have split := tailed.lexemes
        have phrase := h.phrase
        rw [split] at phrase
        refine ⟨star, as, name', tailed.valid,
          (Phrase.append_iff.1 (Phrase.append_iff.1 phrase).2.1).1, ?_, ?_⟩
        · simp only [saidByTail, List.mem_singleton, Said.whole.injEq] at mem
          exact mem.2.symm
        -- No specifier stands in braces, so all comments of the declaration are loose, and there are none.
        · have named : d.specifiers.filterMap namedSpan? = [] := by
            rw [h.declares]
            exact tailed.named _
          rw [ownComments?, named] at own
          have loose : looseSpans d.span [] comments = [] := by
            by_contra some
            rw [attachedComments?_nil some] at own
            cases own
          have within := filter_within h (by simp [split])
          simp only [looseSpans, List.any_nil, Bool.not_false, Bool.and_true] at loose
          rw [loose, eq_comm, lexemeComments_eq_nil_iff, split, List.dropLast_append_of_ne_nil (by simp),
            List.dropLast_append_of_ne_nil (by simp)] at within
          intro l hl
          refine within l (List.mem_append_right _ (List.mem_append_left _ ?_))
          exact List.mem_append_left [name'] hl
  rw [saidBy] at mem
  cases hbinders : w.binders with
  | none => simp [hbinders] at mem
  | some found =>
      obtain ⟨binders, from'⟩ := found
      rw [hbinders] at mem
      cases (h.valid.binders binders from' hbinders).1 with
      | default binding => simp [saidByBinders, saidByName] at mem
      | tail more => exact behind (tailed_tail hbinders more) mem
      | both _ _ more _ =>
          exact behind (tailed_both hbinders more)
            ((List.mem_cons.1 mem).resolve_left (by simp [saidByName]))

theorem wellWritten_wholeImport {comments : List Edit.Span} {d : ImportDeclaration} {rest : Text}
    (h : Worded dialect text comments d w rest)
    (own : ownComments? text comments d = some attached)
    (inhabited : (wholeImport text isUsed d attached).isEmpty = false) :
    WellWritten dialect.types (wholeImport text isUsed d attached) := by
  have said : d.specifiers.map (said text) = saidBy w := by
    rw [h.declares]
    exact map_said_specifiers h.place
  have types : (wholeImport text isUsed d attached).isType = w.isType := by
    change d.isType = w.isType
    rw [h.declares, Wording.declaration]
  have valid := valid_saidBy h.valid h.phrase
  have named {b : NamedBinding} (hb : b ∈ (wholeImport text isUsed d attached).named) :=
    said ▸ said_of_mem_usedBindings hb
  refine ⟨fun isType => ?_, inhabited, ?_, fun written hwritten => ?_, fun written hwritten => ?_,
    fun b hb => ⟨?_, ?_⟩⟩
  · have opening := h.valid.opening
    rw [← types, isType] at opening
    generalize w.opening.map Lexeme.token = tokens, w.hasPhase = phase at opening
    cases opening with
    | typed dialect => exact dialect
  · have spells := h.phrase.spells w.source (by simp [Wording.lexemes])
    rw [h.valid.source] at spells
    have module : (wholeImport text isUsed d attached).module = w.value := by
      change d.source.value = w.value
      rw [h.declares, Wording.declaration]
    have source : (wholeImport text isUsed d attached).source = w.source.text := by
      change spanText text d.source.span = w.source.text
      rw [h.declares]
      exact spanText_source h.place
    rw [module, source]
    exact spells
  · obtain ⟨name, mem⟩ := said_of_usedDefault hwritten
    rw [said] at mem
    obtain ⟨token, binding, spells, alone⟩ := exists_token_of_default h.valid h.phrase mem
    refine ⟨token, binding, spells, fun isType same => ?_⟩
    have only := alone (types ▸ isType) same
    constructor
    · refine Option.eq_none_iff_forall_ne_some.2 fun other hother => ?_
      obtain ⟨_, mem⟩ := said_of_usedNamespace hother
      simp [said, only] at mem
    · refine List.eq_nil_iff_forall_not_mem.2 fun b hb => ?_
      have mem := (named hb).1
      simp [only] at mem
  · obtain ⟨name, mem⟩ := said_of_usedNamespace hwritten
    rw [said] at mem
    refine ⟨List.eq_nil_iff_forall_not_mem.2 fun b hb => ?_, types ▸ exists_wholeName h own mem⟩
    exact named_not_mem_of_whole mem _ _ (named hb).1
  · rw [types]
    exact valid _ (named hb).1
  · rcases List.mem_cons.1 (named hb).2 with none | given
    · obtain ⟨leading, trailing⟩ := SpecifierComments.mk.inj none
      simp [leading, trailing]
    · exact isComment_of_attachedComments? own _ given

theorem wellWritten_addBinding {isType : Bool} {named : List NamedBinding} {binding : NamedBinding}
    (h : binding.WellWritten types isType) (own : ∀ b ∈ named, b.WellWritten types isType) :
    ∀ b ∈ addBinding binding named, b.WellWritten types isType := by
  induction named with
  | nil => exact List.forall_mem_singleton.2 h
  | cons other rest ih =>
      obtain ⟨first, others⟩ := List.forall_mem_cons.1 own
      rw [addBinding]
      split
      · refine List.forall_mem_cons.2 ⟨⟨first.naming, fun comment hcomment => ?_⟩, others⟩
        have mine := first.comments comment
        have its := h.comments comment
        simp only [List.mem_append] at hcomment mine its
        tauto
      · exact List.forall_mem_cons.2 ⟨first, ih others⟩

theorem wellWritten_addBindings {isType : Bool} {named more : List NamedBinding}
    (own : ∀ b ∈ named, b.WellWritten types isType) (h : ∀ b ∈ more, b.WellWritten types isType) :
    ∀ b ∈ more.foldl (fun named b => addBinding b named) named, b.WellWritten types isType := by
  induction more generalizing named with
  | nil => exact own
  | cons b more ih =>
      obtain ⟨first, others⟩ := List.forall_mem_cons.1 h
      exact ih (wellWritten_addBinding first own) others

theorem WellWritten.merge (ha : WellWritten types a) (hb : WellWritten types b)
    (can : a.canMerge b = true) : WellWritten types (a.merge b) := by
  obtain ⟨key, plain, plain', once, forms⟩ := canMerge_iff.1 can
  refine ⟨ha.kind, ?_, ha.source, fun written hwritten => ?_, fun written hwritten => ?_,
    wellWritten_addBindings ha.named (key.2 ▸ hb.named)⟩
  · have first := ha.inhabited
    have default : (a.merge b).defaultName = a.defaultName.or b.defaultName := rfl
    rw [Item.isEmpty, plain.noNamespace] at first
    rw [Item.isEmpty, merge_named_isEmpty, default]
    cases hdefault : a.defaultName <;> simp_all
  · have whole : (a.merge b).namespaceName = none := plain.noNamespace
    have named (first : a.named = []) (second : b.named = []) : (a.merge b).named = [] := by
      rw [← List.isEmpty_iff, merge_named_isEmpty, first, second]
      rfl
    have apart (isType : a.isType = true) :
        (a.defaultName.isSome = true → b.named = []) ∧ (b.defaultName.isSome = true → a.named = []) := by
      simpa [mixesForms] using forms isType
    rcases Option.or_eq_some_iff.1 (hwritten : a.defaultName.or b.defaultName = some written) with
      own | ⟨-, own⟩
    · obtain ⟨token, binding, spells, alone⟩ := ha.default written own
      exact ⟨token, binding, spells, fun isType same => ⟨whole, named (alone isType same).2
        ((apart isType).1 (by simp [own]))⟩⟩
    · obtain ⟨token, binding, spells, alone⟩ := hb.default written own
      exact ⟨token, binding, spells, fun isType same => ⟨whole,
        named ((apart isType).2 (by simp [own])) (alone (key.2 ▸ isType) same).2⟩⟩
  · exact absurd (plain.noNamespace ▸ hwritten) (by simp)

theorem WellWritten.sortNamed (h : WellWritten types i) (order : TypeOrder) :
    WellWritten types (i.sortNamed order) := by
  have sorted : (i.sortNamed order).named.Perm i.named := List.mergeSort_perm _ _
  have empty : (i.sortNamed order).named = [] ↔ i.named = [] := by
    rw [← List.isEmpty_iff, sortNamed_isEmpty, List.isEmpty_iff]
  refine ⟨h.kind, ?_, h.source, ?_, ?_, fun b hb => h.named b (sorted.mem_iff.1 hb)⟩
  · rw [Item.isEmpty, sortNamed_isEmpty]
    exact h.inhabited
  · rw [empty]
    exact h.default
  · rw [empty]
    exact h.whole

theorem wellWritten_mergeFrom {current : Item} {rest : List Item}
    (h : WellWritten types current) (hrest : ∀ i ∈ rest, WellWritten types i) :
    ∀ i ∈ mergeFrom current rest, WellWritten types i := by
  induction rest generalizing current with
  | nil => exact List.forall_mem_singleton.2 h
  | cons next rest ih =>
      obtain ⟨first, others⟩ := List.forall_mem_cons.1 hrest
      rw [mergeFrom]
      split
      · next can => exact ih (h.merge first can) others
      · exact List.forall_mem_cons.2 ⟨h, ih first others⟩

theorem wellWritten_organizeSegment (h : ∀ i ∈ ins, WellWritten types i) (order : TypeOrder) :
    ∀ o ∈ organizeSegment order ins, WellWritten types o := by
  have sorted : ∀ i ∈ sortImports ins, WellWritten types i := fun i hi =>
    h i ((List.mergeSort_perm _ _).mem_iff.1 hi)
  have merged : ∀ i ∈ mergeNeighbours (sortImports ins), WellWritten types i := by
    generalize sortImports ins = l at sorted
    cases l with
    | nil => simp [mergeNeighbours]
    | cons first rest =>
        obtain ⟨own, others⟩ := List.forall_mem_cons.1 sorted
        exact wellWritten_mergeFrom own others
  exact List.forall_mem_map.2 fun i hi => (merged i hi).sortNamed order

theorem mem_of_mem_organizeSegment {o : Item} (h : parse dialect text = .ok program)
    (read : ∀ i ∈ ins, IsRead text program i ∧ i.frozen = false) (ho : o ∈ organizeSegment order ins)
    (unmodified : o.modified = false) : o ∈ ins := by
  obtain ⟨-, -, blocks, arranged, made⟩ := (stretchArranged_organizeSegment h read : StretchArranged order ins _)
  obtain ⟨block, hblock, own⟩ := Edit.exists_of_forall₂ made o ho
  have alone := own.unchanged unmodified
  have mem : o ∈ blocks.flatten := List.mem_flatten.2 ⟨block, hblock, by simp [alone]⟩
  exact arranged.moved.mem_iff.1 mem

/-- An import that a group is organized to: it is well written, and it was read as it is if it is not
modified. -/
structure Organized (dialect : Dialect) (text : Text) (program : Program) (o : Item) : Prop where
  written : WellWritten dialect.types o
  unchanged : o.modified = false → IsRead text program o

theorem organized_of_stretch (h : parse dialect text = .ok program)
    (read : ∀ i ∈ ins, IsRead text program i ∧ i.frozen = false) :
    ∀ o ∈ organizeSegment order ins, Organized dialect text program o := by
  have written : ∀ i ∈ ins, WellWritten dialect.types i := fun i hi => by
    obtain ⟨own, thawed⟩ := read i hi
    obtain ⟨frozen, -, -⟩ | ⟨d, hd, isUsed, attached, comments, -, rfl, inhabited⟩ := own.cases
    · rw [thawed] at frozen
      cases frozen
    · obtain ⟨w, rest, worded⟩ := exists_worded h hd
      exact wellWritten_wholeImport worded comments inhabited
  exact fun o ho => ⟨wellWritten_organizeSegment written order o ho, fun unmodified =>
    (read o (mem_of_mem_organizeSegment h read ho unmodified)).1⟩

theorem organized_of_mem_organizeGroup {o : Item} (h : parse dialect text = .ok program)
    (read : ∀ i ∈ ins, IsRead text program i) (ho : o ∈ organizeGroup order ins)
    (thawed : o.frozen = false) : Organized dialect text program o := by
  obtain ⟨frozen, -⟩ | ⟨stretch, -, each, mem⟩ := origin_of_mem_organizeGroup read ho
  · rw [thawed] at frozen
    cases frozen
  · exact organized_of_stretch h each o mem

end TidyImports.Import
