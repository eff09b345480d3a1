import Mathlib.Data.List.Nodup
import TidyImports.Proofs.Import.Groups

/-! Which import declarations share a group. The groups of a script cut the row of its declarations, and
two neighbours of the row share a group exactly if they are neighbouring statements as well, with
nothing but blanks and at most one line feed between them. No other groups are cut in this way. -/
namespace TidyImports.Import

open Script

section Rows

variable {α : Type} {groups others : List (List α)} {group front back : List α} {a b : α}

/-- Two members of a row share one of its groups. -/
def Share (groups : List (List α)) (a b : α) : Prop := ∃ group ∈ groups, a ∈ group ∧ b ∈ group

theorem pair_of_infix_append (h : [a, b] <:+: front ++ back) :
    [a, b] <:+: front ∨ [a, b] <:+: back ∨ a ∈ front ∧ b ∈ back := by
  rcases List.infix_append_iff_ne_nil.1 h with h | h | ⟨s, t, hs, ht, parts, hfront, hback⟩
  · exact .inl h
  · exact .inr (.inl h)
  · obtain ⟨c, s, rfl⟩ := List.exists_cons_of_ne_nil hs
    obtain ⟨d, t, rfl⟩ := List.exists_cons_of_ne_nil ht
    obtain ⟨rfl, rfl, rfl⟩ : a = c ∧ s = [] ∧ b = d := by
      cases s <;> simp_all
    exact .inr (.inr ⟨hfront.subset List.mem_cons_self, hback.subset List.mem_cons_self⟩)

theorem neighbours_of_mem (distinct : groups.flatten.Nodup) (hgroup : group ∈ groups)
    (pair : [a, b] <:+: groups.flatten) (ha : a ∈ group) (hb : b ∈ group) : [a, b] <:+: group := by
  obtain ⟨earlier, later, rfl⟩ := List.append_of_mem hgroup
  rw [List.flatten_append, List.flatten_cons] at distinct pair
  have outside := distinct.disjoint
  have behind := distinct.of_append_right.disjoint
  rcases pair_of_infix_append pair with pair | pair | ⟨first, -⟩
  · exact absurd (List.mem_append_left _ ha) (outside (pair.subset List.mem_cons_self))
  · rcases pair_of_infix_append pair with pair | pair | ⟨-, second⟩
    · exact pair
    · exact absurd (pair.subset List.mem_cons_self) (behind ha)
    · exact absurd second (behind hb)
  · exact absurd (List.mem_append_left _ ha) (outside first)

theorem share_cons_iff (ha : a ∉ group) : Share (group :: groups) a b ↔ Share groups a b := by
  simp [Share, ha]

theorem not_share_cons (distinct : (group ++ groups.flatten).Nodup) (ha : a ∈ group)
    (hb : b ∈ groups.flatten) : ¬ Share (group :: groups) a b := by
  rintro ⟨other, hother, hao, hbo⟩
  rcases List.mem_cons.1 hother with rfl | hother
  · exact distinct.disjoint hbo hb
  · exact distinct.disjoint ha (List.mem_flatten.2 ⟨other, hother, hao⟩)

theorem eq_nil_of_share (distinct : (group ++ groups.flatten).Nodup) (inhabited : group ≠ [])
    (whole : groups.flatten = front ++ others.flatten)
    (shared : ∀ a b, [a, b] <:+: group ++ groups.flatten → Share ((group ++ front) :: others) a b →
      Share (group :: groups) a b) : front = [] := by
  cases front with
  | nil => rfl
  | cons b front =>
      obtain ⟨start, a, rfl⟩ : ∃ start a, group = start ++ [a] :=
        ⟨_, _, (List.dropLast_concat_getLast inhabited).symm⟩
      have pair : [a, b] <:+: (start ++ [a]) ++ groups.flatten :=
        ⟨start, front ++ others.flatten, by rw [whole]; simp⟩
      have both : Share ((start ++ [a] ++ b :: front) :: others) a b :=
        ⟨_, List.mem_cons_self, by simp, by simp⟩
      exact absurd (shared a b pair both) (not_share_cons distinct (by simp) (by simp [whole]))

theorem eq_of_share (distinct : groups.flatten.Nodup) (whole : groups.flatten = others.flatten)
    (hgroups : [] ∉ groups) (hothers : [] ∉ others)
    (same : ∀ a b, [a, b] <:+: groups.flatten → (Share groups a b ↔ Share others a b)) :
    groups = others := by
  -- By induction on the groups: neither of the two first groups goes on behind the other one.
  induction groups generalizing others with
  | nil =>
      cases others with
      | nil => rfl
      | cons second others => simp_all
  | cons first groups ih =>
      cases others with
      | nil => simp_all
      | cons second others =>
          rw [List.mem_cons, not_or] at hgroups hothers
          have distinct' : (second :: others).flatten.Nodup := whole ▸ distinct
          have same' := fun a b pair => same a b (whole ▸ pair)
          simp only [List.flatten_cons] at distinct distinct' same same' whole
          have heads : first = second := by
            rcases List.append_eq_append_iff.1 whole with ⟨more, rfl, rest⟩ | ⟨more, rfl, rest⟩
            · rw [eq_nil_of_share distinct (Ne.symm hgroups.1) rest fun a b pair => (same a b pair).2,
                List.append_nil]
            · rw [eq_nil_of_share distinct' (Ne.symm hothers.1) rest fun a b pair => (same' a b pair).1,
                List.append_nil]
          subst heads
          have tails := List.append_cancel_left whole
          rw [ih distinct.of_append_right tails hgroups.2 hothers.2 fun a b pair => ?_]
          have outside : a ∉ first := fun ha =>
            distinct.disjoint ha (pair.subset List.mem_cons_self)
          have shared := same a b (List.infix_append_of_infix_right pair)
          rwa [share_cons_iff outside, share_cons_iff outside] at shared

end Rows

variable {text : Text} {statements : List Statement} {a b : ImportDeclaration}
  {group : List ImportDeclaration}

/-- Nothing but blanks and at most one line feed stands between two offsets of a text. -/
def StandClose (text : Text) (start stop : Nat) : Prop :=
  ∃ between rest, text.RestAt start (between ++ rest) ∧ text.RestAt stop rest ∧
    (∀ c ∈ between, Text.isBlank c = true) ∧ between.count '\n' ≤ 1

/-- Two import declarations are neighbouring statements and stand close together. -/
def Continued (text : Text) (statements : List Statement) (a b : ImportDeclaration) : Prop :=
  [.importing a, .importing b] <:+: statements.map Statement.kind ∧
    StandClose text a.span.stop b.span.start

theorem continuesGroup_iff (ha : Declared text a) (hb : Declared text b)
    (ordered : a.span.stop ≤ b.span.start) :
    continuesGroup text a b = true ↔ StandClose text a.span.stop b.span.start := by
  obtain ⟨behind, hstop⟩ := ha.stop
  obtain ⟨c, rest, hstart, -⟩ := hb.start
  obtain ⟨between, rfl, hwidth⟩ := hstop.split hstart ordered
  have slice : text.slice a.span.stop b.span.start = between := by
    rw [hwidth]
    exact hstop.slice_eq
  rw [continuesGroup, slice, Bool.and_eq_true, Text.allBlank, List.all_eq_true, decide_eq_true_iff]
  constructor
  · rintro ⟨blank, feeds⟩
    exact ⟨between, c :: rest, hstop, hstart, blank, feeds⟩
  · rintro ⟨other, rest', hstop', hstart', blank, feeds⟩
    obtain rfl := hstart.unique hstart'
    obtain rfl := List.append_cancel_right (hstop.unique hstop')
    exact ⟨blank, feeds⟩

/-- What a statement does to the groups of the statements behind it: nothing, or it starts a group of its
own, or it joins the group of the import behind it, which continues that group. -/
inductive GroupStep (text : Text) (s : Statement) (rest : List Statement) : Prop
  | other (none : declaration? s = none)
    (groups : importGroups text (s :: rest) = importGroups text rest)
  | alone {d : ImportDeclaration} (importing : s.kind = .importing d)
    (ends : ∀ next, rest.head?.map Statement.kind = some (.importing next) →
      continuesGroup text d next = false)
    (groups : importGroups text (s :: rest) = [d] :: importGroups text rest)
  | joined {d next : ImportDeclaration} {t : Statement} {more : List Statement}
    {group : List ImportDeclaration} {others : List (List ImportDeclaration)}
    (importing : s.kind = .importing d) (behind : rest = t :: more) (follows : t.kind = .importing next)
    (continues : continuesGroup text d next = true)
    (before : importGroups text rest = (next :: group) :: others)
    (groups : importGroups text (s :: rest) = (d :: next :: group) :: others)

theorem exists_importGroups_cons (text : Text) {s : Statement} {d : ImportDeclaration}
    (hs : s.kind = .importing d) (rest : List Statement) :
    ∃ group groups, importGroups text (s :: rest) = (d :: group) :: groups := by
  have hd := declaration?_eq_some.2 hs
  rcases importGroups_cons text s rest with ⟨none, -⟩ |
    ⟨e, he, hgroups | ⟨group, groups, -, -, -, hgroups⟩⟩
  · rw [none] at hd
    cases hd
  · obtain rfl := Option.some.inj (hd.symm.trans he)
    exact ⟨_, _, hgroups⟩
  · obtain rfl := Option.some.inj (hd.symm.trans he)
    exact ⟨_, _, hgroups⟩

theorem groupStep (text : Text) (s : Statement) (rest : List Statement) : GroupStep text s rest := by
  cases hs : s.kind with
  | sourced source => exact .other (by simp [declaration?, hs]) (by simp [importGroups, hs])
  | other => exact .other (by simp [declaration?, hs]) (by simp [importGroups, hs])
  | importing d =>
      cases rest with
      | nil => exact .alone hs (by simp) (by simp [importGroups, hs])
      | cons t more =>
          cases ht : t.kind with
          | sourced source => exact .alone hs (by simp [ht]) (by rw [importGroups, hs]; simp [ht])
          | other => exact .alone hs (by simp [ht]) (by rw [importGroups, hs]; simp [ht])
          | importing next =>
              obtain ⟨group, others, before⟩ := exists_importGroups_cons text ht more
              cases continues : continuesGroup text d next with
              | true =>
                  refine .joined hs rfl ht continues before ?_
                  rw [importGroups, hs, before]
                  simp [ht, continues]
              | false =>
                  refine .alone hs (by simp [ht, continues]) ?_
                  rw [importGroups, hs, before]
                  simp [ht, continues]

theorem share_importGroups_cons (s : Statement) (h : Share (importGroups text statements) a b) :
    Share (importGroups text (s :: statements)) a b := by
  obtain ⟨group, hgroup, both⟩ := h
  cases groupStep text s statements with
  | other _ groups => exact ⟨group, groups ▸ hgroup, both⟩
  | alone _ _ groups => exact ⟨group, groups ▸ List.mem_cons_of_mem _ hgroup, both⟩
  | joined _ _ _ _ before groups =>
      rw [before] at hgroup
      rw [groups]
      rcases List.mem_cons.1 hgroup with rfl | hgroup
      · exact ⟨_, List.mem_cons_self, both.imp (List.mem_cons_of_mem _) (List.mem_cons_of_mem _)⟩
      · exact ⟨group, List.mem_cons_of_mem _ hgroup, both⟩

theorem share_of_continuesGroup
    (neighbours : [.importing a, .importing b] <:+: statements.map Statement.kind)
    (continues : continuesGroup text a b = true) : Share (importGroups text statements) a b := by
  -- By induction on the statements before them: what two imports share is not taken apart again.
  induction statements with
  | nil => simp at neighbours
  | cons s rest ih =>
      rw [List.map_cons] at neighbours
      rcases List.infix_cons_iff.1 neighbours with here | later
      · obtain ⟨hs, next⟩ := List.cons_prefix_cons.1 here
        obtain ⟨t, more, rfl, ht⟩ : ∃ t more, rest = t :: more ∧ t.kind = .importing b := by
          cases rest <;> simp_all
        cases groupStep text s (t :: more) with
        | other none _ =>
            rw [declaration?_eq_some.2 hs.symm] at none
            cases none
        | alone importing ends _ =>
            cases hs.trans importing
            rw [ends b (by simp [ht])] at continues
            cases continues
        | joined importing behind follows _ _ groups =>
            cases hs.trans importing
            cases behind
            cases ht.symm.trans follows
            exact ⟨_, groups ▸ List.mem_cons_self, by simp⟩
      · exact share_importGroups_cons s (ih later)

theorem continuesGroup_of_neighbours (hgroup : group ∈ importGroups text statements)
    (pair : [a, b] <:+: group) : continuesGroup text a b = true ∧
      [.importing a, .importing b] <:+: statements.map Statement.kind := by
  induction statements generalizing group with
  | nil => cases hgroup
  | cons s rest ih =>
      have later {other : List ImportDeclaration} (hother : other ∈ importGroups text rest)
          (pair : [a, b] <:+: other) : continuesGroup text a b = true ∧
            [.importing a, .importing b] <:+: (s :: rest).map Statement.kind :=
        (ih hother pair).imp_right List.infix_cons
      cases groupStep text s rest with
      | other _ groups => exact later (groups ▸ hgroup) pair
      | alone _ _ groups =>
          rw [groups] at hgroup
          rcases List.mem_cons.1 hgroup with rfl | hgroup
          · exact absurd pair.length_le (by simp)
          · exact later hgroup pair
      | joined importing behind follows continues before groups =>
          rw [groups] at hgroup
          rcases List.mem_cons.1 hgroup with rfl | hgroup
          · rcases List.infix_cons_iff.1 pair with here | pair
            · simp only [List.cons_prefix_cons] at here
              obtain ⟨rfl, rfl, -⟩ := here
              subst behind
              exact ⟨continues, [], _, by simp [importing, follows]; rfl⟩
            · exact later (by simp [before]) pair
          · exact later (by simp [before, hgroup]) pair

theorem nodup_declarations (h : DeclaredInOrder text (declarations statements)) :
    (declarations statements).Nodup := by
  refine h.ordered.imp_of_mem fun {a b} ha _ hle same => ?_
  have := (h.declared a ha).start_lt
  rw [← same] at hle
  omega

theorem share_importGroups_iff (h : Statement.InOrder text statements)
    (pair : [a, b] <:+: declarations statements) :
    Share (importGroups text statements) a b ↔ Continued text statements a b := by
  have inOrder := declaredInOrder_of_inOrder h
  have ordered := inOrder.ordered.sublist pair.sublist
  rw [List.pairwise_pair] at ordered
  have close := continuesGroup_iff (inOrder.declared a (pair.subset (by simp)))
    (inOrder.declared b (pair.subset (by simp))) ordered
  constructor
  · rintro ⟨group, hgroup, ha, hb⟩
    have distinct := nodup_declarations inOrder
    rw [← flatten_importGroups text] at distinct pair
    obtain ⟨continues, neighbours⟩ :=
      continuesGroup_of_neighbours hgroup (neighbours_of_mem distinct hgroup pair ha hb)
    exact ⟨neighbours, close.1 continues⟩
  · rintro ⟨neighbours, between⟩
    exact share_of_continuesGroup neighbours (close.2 between)

/-- The import groups of a script are the one way to cut the row of its import declarations, which stand
in the text one behind the other, into groups that are not empty and are shared by two neighbours of the
row exactly if these are neighbouring statements with nothing but blanks and at most one line feed
between them. -/
theorem importGroups_partition {dialect : Dialect} {program : Program}
    (h : parse dialect text = .ok program) :
    (declarations program.statements).Pairwise (fun a b => a.span.stop ≤ b.span.start) ∧
    ∀ groups : List (List ImportDeclaration), groups = importGroups text program.statements ↔
      groups.flatten = declarations program.statements ∧ [] ∉ groups ∧
        ∀ a b, [a, b] <:+: declarations program.statements →
          (Share groups a b ↔ Continued text program.statements a b) := by
  have inOrder := inOrder_of_parse h
  have declared := declaredInOrder_of_inOrder inOrder
  have distinct := nodup_declarations declared
  have whole := flatten_importGroups text program.statements
  refine ⟨declared.ordered, fun groups => ⟨?_, ?_⟩⟩
  · rintro rfl
    exact ⟨whole, fun empty => importGroups_ne_nil [] empty rfl, fun a b =>
      share_importGroups_iff inOrder⟩
  · rintro ⟨row, inhabited, shared⟩
    refine eq_of_share (row ▸ distinct) (row.trans whole.symm) inhabited
      (fun empty => importGroups_ne_nil [] empty rfl) fun a b pair => ?_
    rw [row] at pair
    exact (shared a b pair).trans (share_importGroups_iff inOrder pair).symm

/-- Imports one below the other, behind an empty line, behind a comment and behind other code. -/
def sampleRow : Text :=
  ("import a from 'a'\nimport b from 'b'\n\nimport c from 'c' /* c */\nimport d from 'd'\n" ++
    "use(a)\nimport e from 'e'").toList

def sampleImport (start : Nat) (name : Char) : ImportDeclaration :=
  ⟨⟨start, 17⟩, ⟨[name], ⟨start + 14, 3⟩⟩, none, false, false,
    [.defaultName [name] ⟨start + 7, 1⟩]⟩

theorem importGroups_partition_sample :
    parse ⟨true, false⟩ sampleRow = .ok (parsed ⟨true, false⟩ sampleRow) ∧
    importGroups sampleRow (parsed ⟨true, false⟩ sampleRow).statements =
      [[sampleImport 0 'a', sampleImport 18 'b'], [sampleImport 37 'c'], [sampleImport 63 'd'],
        [sampleImport 88 'e']] ∧
    Continued sampleRow (parsed ⟨true, false⟩ sampleRow).statements
      (sampleImport 0 'a') (sampleImport 18 'b') ∧
    ¬ Continued sampleRow (parsed ⟨true, false⟩ sampleRow).statements
      (sampleImport 37 'c') (sampleImport 63 'd') := by
  have parses : parse ⟨true, false⟩ sampleRow = .ok (parsed ⟨true, false⟩ sampleRow) :=
    parse_eq_parsed (by decide +kernel)
  have groups : importGroups sampleRow (parsed ⟨true, false⟩ sampleRow).statements =
      [[sampleImport 0 'a', sampleImport 18 'b'], [sampleImport 37 'c'], [sampleImport 63 'd'],
        [sampleImport 88 'e']] := by decide +kernel
  obtain ⟨row, -, shared⟩ := ((importGroups_partition parses).2 _).1 groups.symm
  have first := shared (sampleImport 0 'a') (sampleImport 18 'b') ⟨[], _, row⟩
  have second := shared (sampleImport 37 'c') (sampleImport 63 'd')
    ⟨[sampleImport 0 'a', sampleImport 18 'b'], _, row⟩
  refine ⟨parses, groups, first.1 ?_, mt second.2 ?_⟩
  · exact ⟨_, List.mem_cons_self, by simp⟩
  · unfold Share
    decide

end TidyImports.Import
