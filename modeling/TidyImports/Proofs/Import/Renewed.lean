import TidyImports.Proofs.Import.Woven
import TidyImports.Proofs.Script.Names
import TidyImports.Proofs.Text.Pieces

/-! Statements of a text with new pieces in the place of its groups. Each group is a row of wordings, one
in a line, or nothing, if nothing of it is used; all other statements are what they were. The statements of
both texts are related piece by piece: by what they carry to the modules around them, and group by group. -/
namespace TidyImports.Import

open Script Script.Parser

variable {text text' t newline : Text} {n n' : Nat} {types : Bool} {dialect : Dialect}
  {limit limit' : Nat} {c d e c' e' d' : Cursor} {statements statements' more more' : List Statement}
  {items items' behind behind' : List TopStatement} {group : List ImportDeclaration}
  {isUsed : Text → Bool} {texts : List ImportDeclaration → List Text} {ws vs : List Wording}
  {gap sep : List GapPiece} {touched : Nat → Prop}

def wordsIn (text : Text) (group : List ImportDeclaration) : List Text :=
  group.map fun d => spanText text d.span

/-- Statements of a new text carry on what those of an old one mean: the others read the same, what was used
of the imports is still bound and nothing else is, and no other modules are named. -/
structure Carries (isUsed : Text → Bool) (text : Text) (statements : List Statement) (text' : Text)
    (statements' : List Statement) : Prop where
  others : othersIn text' statements' = othersIn text statements
  kept : ∀ b ∈ (declarations statements).flatMap (usedIn text isUsed), b ∈ boundIn text' statements'
  bound : ∀ b ∈ boundIn text' statements', b ∈ boundIn text statements
  modules : ∀ m ∈ modulesIn statements', m ∈ modulesIn statements

/-- A group stands in the place of another one: it is written in new texts if something changes from there
on, and else as that one is written. -/
structure Replaces (changes : Prop) (text newline : Text) (texts : List Text) (text' : Text)
    (group group' : List ImportDeclaration) : Prop where
  slice : text'.slice (groupSpan group').start (groupSpan group').stop = Text.glue newline texts
  changed : changes → wordsIn text' group' = texts
  other : ¬ changes → wordsIn text' group' = wordsIn text group

/-- Statements are those of another text with new texts for its groups; groups with no new text are gone. -/
structure Renewed (isUsed : Text → Bool) (text newline : Text) (texts : List ImportDeclaration → List Text)
    (touched : Nat → Prop) (statements : List Statement) (text' : Text) (statements' : List Statement) : Prop
    extends Carries isUsed text statements text' statements' where
  first : ∀ next', statements'.head?.map Statement.kind = some (.importing next') →
    ∃ next, statements.head?.map Statement.kind = some (.importing next)
  groups : List.Forall₂
    (fun group => Replaces (touched (groupSpan group).start) text newline (texts group) text' group)
    ((importGroups text statements).filter fun group => !(texts group).isEmpty)
    (importGroups text' statements')

theorem separates_newline (h : IsNewline newline) : Separates (blanks newline) := by
  have broken {c : Char} (lineBreak : isLineBreak c = true) : IsPassed c := by
    simp [IsPassed, lineBreak]
  refine ⟨?_, ?_, fun t => ?_⟩
  · rw [← List.append_nil (blanks newline)]
    refine steady_blanks_append ?_ .nil
    rcases h with rfl | rfl <;> simp [broken (by decide : isLineBreak '\n' = true),
      broken (by decide : isLineBreak '\r' = true)]
  · rcases h with rfl | rfl <;> decide
  · rw [gapText_blanks]
    rcases h with rfl | rfl <;> exact .of_head (by decide) (by decide) _

/-! Groups that are rows. -/

theorem wordsIn_row (place : text.RestAt n (fullText (rowLexemes ws) ++ t)) :
    wordsIn text (declarations ((rowItems n ws).map TopStatement.statement)) =
      ws.map fun w => spelled w.lexemes := by
  induction ws generalizing n with
  | nil => rfl
  | cons w ws ih =>
      rw [rowLexemes, List.flatMap_cons, fullText_append, ← rowLexemes, List.append_assoc] at place
      rw [declarations_rowItems_cons, List.map_cons, ← ih place.append, ← spanText_declaration place]
      rfl

theorem map_spelled_spaced (sep last : List GapPiece) (ws : List Wording) :
    ((spaced sep last ws).map fun w => spelled w.lexemes) = ws.map fun w => spelled w.lexemes := by
  induction ws using spaced.induct with
  | case1 => rfl
  | case2 w => simp [spaced, w.spelled_withGap]
  | case3 w v ws ih =>
      rw [spaced, List.map_cons, ih, w.spelled_withGap]
      rfl

theorem areGroup_row (inhabited : ws ≠ []) (n : Nat) : AreGroup ((rowItems n ws).map TopStatement.statement)
    (declarations ((rowItems n ws).map TopStatement.statement)) := by
  obtain ⟨w, ws, rfl⟩ := List.exists_cons_of_ne_nil inhabited
  refine ⟨by simp [declarations_rowItems_cons], ?_⟩
  clear inhabited
  induction ws generalizing n w with
  | nil => rfl
  | cons v ws ih =>
      rw [declarations_rowItems_cons, List.map_cons, ← ih (n + (fullText w.lexemes).width) v]
      rfl

def bridges (between : Text) : Bool := between.allBlank && decide (between.lineFeeds ≤ 1)

theorem bridges_append {between : Text} (h : bridges between = false) (more : Text) :
    bridges (between ++ more) = false := by
  rw [bridges, Bool.and_eq_false_iff] at h ⊢
  refine h.imp (fun blank => ?_) fun feeds => ?_
  · rw [Text.allBlank, List.all_append, ← Text.allBlank, blank, Bool.false_and]
  · rw [decide_eq_false_iff_not] at feeds ⊢
    rw [Text.lineFeeds, List.count_append, ← Text.lineFeeds]
    omega

theorem continuesGroup_wording {w : Wording} {next : ImportDeclaration}
    (place : text.RestAt n (fullText w.lexemes ++ t))
    (start : next.span.start = n + (fullText w.lexemes).width) :
    continuesGroup text (w.declaration n) next = bridges (gapText (lastGap w.lexemes)) := by
  have stop : (w.declaration n).span.stop = n + (spelled w.lexemes).width := stop_ofBounds_add _ _
  have between : text.slice (w.declaration n).span.stop next.span.start = gapText (lastGap w.lexemes) := by
    rw [fullText_eq, List.append_assoc] at place
    rw [start, stop, fullText_eq, Text.width_append, ← Nat.add_assoc]
    exact place.append.slice_eq
  rw [continuesGroup, between]
  rfl

theorem continuesGroup_row {last next : ImportDeclaration}
    (isRun : AreGroup ((rowItems n ws).map TopStatement.statement) group)
    (place : text.RestAt n (fullText (rowLexemes ws) ++ t)) (hlast : last ∈ group.getLast?)
    (start : next.span.start = n + (fullText (rowLexemes ws)).width) :
    continuesGroup text last next = bridges (gapText (lastGap (rowLexemes ws))) := by
  obtain ⟨init, w, rfl, found⟩ := getLast?_row isRun
  obtain rfl := Option.some.inj (found.symm.trans hlast)
  have split : rowLexemes (init ++ [w]) = rowLexemes init ++ w.lexemes := by simp [rowLexemes]
  have gap : lastGap (rowLexemes init ++ w.lexemes) = lastGap w.lexemes := by
    rw [lastGap, lastGap, List.getLast?_append_of_ne_nil _ w.lexemes_ne_nil]
  rw [split, fullText_append] at place start
  rw [List.append_assoc] at place
  rw [Text.width_append, ← Nat.add_assoc] at start
  rw [split, gap]
  exact continuesGroup_wording place.append start

theorem isChain_spaced (place : text.RestAt n (fullText (rowLexemes (spaced sep gap ws)) ++ t))
    (close : bridges (gapText sep) = true) :
    (declarations ((rowItems n (spaced sep gap ws)).map TopStatement.statement)).IsChain
      fun a b => continuesGroup text a b = true := by
  induction ws using spaced.induct generalizing n with
  | case1 => exact .nil
  | case2 w => exact .singleton _
  | case3 w v ws ih =>
      obtain ⟨u, us, behind⟩ := List.exists_cons_of_ne_nil
        (spaced_ne_nil (by simp) : spaced sep gap (v :: ws) ≠ [])
      rw [spaced, rowLexemes, List.flatMap_cons, fullText_append, ← rowLexemes, List.append_assoc] at place
      have more := ih place.append
      rw [spaced, declarations_rowItems_cons]
      rw [behind, declarations_rowItems_cons] at more ⊢
      refine List.isChain_cons_cons.2 ⟨?_, more⟩
      rw [continuesGroup_wording place rfl, w.lastGap_withGap, close]

theorem bridges_newline (h : IsNewline newline) : bridges (gapText (blanks newline)) = true := by
  rw [gapText_blanks]
  rcases h with rfl | rfl <;> decide

theorem lastGap_spaced (sep last : List GapPiece) (inhabited : ws ≠ []) :
    lastGap (rowLexemes (spaced sep last ws)) = last := by
  induction ws using spaced.induct with
  | case1 => exact absurd rfl inhabited
  | case2 w =>
      have only : rowLexemes (spaced sep last [w]) = (w.withGap last).lexemes := by
        simp [spaced, rowLexemes]
      rw [only, w.lastGap_withGap]
  | case3 w v ws ih =>
      have behind : rowLexemes (spaced sep last (v :: ws)) ≠ [] :=
        rowLexemes_ne_nil (spaced_ne_nil (by simp))
      rw [spaced, rowLexemes, List.flatMap_cons, ← rowLexemes, lastGap,
        List.getLast?_append_of_ne_nil _ behind]
      exact ih (by simp)

theorem spelled_spaced (sep last : List GapPiece) (inhabited : ws ≠ []) :
    spelled (rowLexemes (spaced sep last ws)) =
      Text.glue (gapText sep) (ws.map fun w => spelled w.lexemes) := by
  have whole := fullText_spaced sep last inhabited
  rw [fullText_eq, lastGap_spaced sep last inhabited] at whole
  exact List.append_cancel_right whole

theorem start_of_reads {next : ImportDeclaration}
    (reads : Reads topStep (.module_ dialect limit) c items d) (fits : c.Fits text)
    (first : (items.map TopStatement.statement).head?.map Statement.kind = some (.importing next)) :
    next.span.start = c.start := by
  cases items with
  | nil => cases first
  | cons item items =>
      have kind : item.statement.kind = .importing next := Option.some.inj first
      have split : [item] ++ items = item :: items := rfl
      obtain ⟨ws, e, -, same, -⟩ := exists_wordings_of_reads (split ▸ reads) fits
        (List.forall_mem_singleton.2 ⟨next, kind⟩)
      cases ws with
      | nil => cases same
      | cons w ws =>
          obtain ⟨rfl, -⟩ := List.cons.inj same
          cases kind
          rfl

/-! Groups further to the right. -/

theorem continuesGroup_shift (h : text.RestAt n t) (a b : ImportDeclaration) :
    continuesGroup text (a.shift n) (b.shift n) = continuesGroup t a b := by
  have between : text.slice (a.shift n).span.stop (b.shift n).span.start =
      t.slice a.span.stop b.span.start := by
    rw [← slice_shift h, ← Edit.Span.stop_shift]
    rfl
  rw [continuesGroup, between]
  rfl

theorem importGroups_shift (h : text.RestAt n t) (statements : List Statement) :
    importGroups text (statements.map (Statement.shift n)) =
      (importGroups t statements).map (List.map (ImportDeclaration.shift n)) := by
  induction statements with
  | nil => rfl
  | cons s rest ih =>
      have head : (rest.map (Statement.shift n)).head?.map Statement.kind =
          (rest.head?.map Statement.kind).map (StatementKind.shift n) := by
        cases rest <;> rfl
      obtain ⟨span, kind⟩ := s
      cases kind with
      | other | sourced => exact ih
      | importing d =>
          rw [List.map_cons, importGroups, importGroups]
          simp only [Statement.shift, StatementKind.shift, ih, head]
          cases importGroups t rest with
          | nil => rfl
          | cons group groups =>
              cases rest.head?.map Statement.kind with
              | none => rfl
              | some kind =>
                  cases kind with
                  | other | sourced => rfl
                  | importing next =>
                      simp only [Option.map_some, StatementKind.shift, List.map_cons,
                        continuesGroup_shift h]
                      split <;> rfl

theorem groupSpan_shift (inhabited : group ≠ []) (n : Nat) :
    groupSpan (group.map (ImportDeclaration.shift n)) = (groupSpan group).shift n := by
  simp only [groupSpan, List.head?_map, List.getLast?_map, List.head?_eq_some_head inhabited,
    List.getLast?_eq_some_getLast inhabited, Option.map_some, shift_ofBounds]
  rw [← Edit.Span.stop_shift]
  rfl

theorem wordsIn_shift (h : text.RestAt n t) (group : List ImportDeclaration) :
    wordsIn text (group.map (ImportDeclaration.shift n)) = wordsIn t group := by
  rw [wordsIn, List.map_map]
  exact List.map_congr_left fun d _ => spanText_shift h d.span

/-! What statements carry. -/

theorem mem_boundIn_of_used {b : Binding} (h : b ∈ (declarations statements).flatMap (usedIn text isUsed)) :
    b ∈ boundIn text statements := by
  obtain ⟨d, hd, own⟩ := List.mem_flatMap.1 h
  exact List.mem_flatMap.2 ⟨d, hd, mem_usedIn_all own⟩

namespace Carries

theorem append (h : Carries isUsed text statements text' statements')
    (k : Carries isUsed text more text' more') :
    Carries isUsed text (statements ++ more) text' (statements' ++ more') := by
  refine ⟨?_, fun b hb => ?_, fun b hb => ?_, fun m hm => ?_⟩
  · rw [othersIn_append, othersIn_append, h.others, k.others]
  · rw [declarations, List.filterMap_append, List.flatMap_append] at hb
    rw [boundIn_append, List.mem_append]
    exact (List.mem_append.1 hb).imp (h.kept b) (k.kept b)
  · rw [boundIn_append] at hb ⊢
    exact List.mem_append.2 ((List.mem_append.1 hb).imp (h.bound b) (k.bound b))
  · rw [modulesIn_append] at hm ⊢
    exact List.mem_append.2 ((List.mem_append.1 hm).imp (h.modules m) (k.modules m))

theorem shift (place : text.RestAt n t) (place' : text'.RestAt n' t) (isUsed : Text → Bool)
    (own : List Statement) :
    Carries isUsed text (own.map (Statement.shift n)) text' (own.map (Statement.shift n')) := by
  have agree := agree_shift place place' own
  refine ⟨agree.others, fun b hb => (agree.bound b).2 (mem_boundIn_of_used hb),
    fun b => (agree.bound b).1, fun m hm => ?_⟩
  rwa [modulesIn_shift] at hm ⊢

theorem other {own : Statement} {t' : Text} (place : text.RestAt n t) (place' : text'.RestAt n' t')
    (isUsed : Text → Bool) (other : declaration? own = none)
    (same : spanText t' own.span = spanText t own.span) :
    Carries isUsed text [own.shift n] text' [own.shift n'] := by
  have none (n : Nat) : declaration? (own.shift n) = none := by
    rw [declaration?_shift, other]
    rfl
  have unbound (n : Nat) : declarations [own.shift n] = [] := List.filterMap_cons_none (none n)
  have texts {text t : Text} {n : Nat} (place : text.RestAt n t) :
      othersIn text [own.shift n] = [spanText t own.span] := by
    rw [othersIn, List.filter_cons_of_pos (by rw [none]; rfl)]
    exact congrArg (fun word => [word]) (spanText_shift place own.span)
  refine ⟨by rw [texts place, texts place', same], fun b hb => ?_, fun b hb => ?_, fun m hm => ?_⟩
  · rw [unbound] at hb
    cases hb
  · rw [boundIn, unbound] at hb
    cases hb
  · have moved (n : Nat) : modulesIn [own.shift n] = modulesIn [own] := modulesIn_shift n [own]
    rwa [moved] at hm ⊢

end Carries

theorem RowPrints.carries {new : List Text} {t' : Text} (h : RowPrints types isUsed text group new vs)
    (isGroup : AreGroup ((rowItems n ws).map TopStatement.statement) group)
    (place : text.RestAt n (fullText (rowLexemes ws) ++ t))
    (place' : text'.RestAt n' (fullText (rowLexemes (spaced sep gap vs)) ++ t')) :
    Carries isUsed text ((rowItems n ws).map TopStatement.statement) text'
      ((rowItems n' (spaced sep gap vs)).map TopStatement.statement) := by
  obtain ⟨others, -⟩ := meaning_rowItems place
  obtain ⟨others', bound'⟩ := meaning_rowItems place'
  rw [bindingsBy_spaced] at bound'
  refine ⟨others'.trans others.symm, fun b hb => ?_, fun b hb => ?_, fun m hm => ?_⟩
  · rw [isGroup.declarations_eq] at hb
    rw [bound']
    exact h.kept b hb
  · rw [bound'] at hb
    rw [boundIn, isGroup.declarations_eq]
    exact h.bound b hb
  · rw [modulesIn_row, map_value_spaced] at hm
    obtain ⟨v, hv, rfl⟩ := List.mem_map.1 hm
    obtain ⟨d, hd, same⟩ := h.modules v hv
    rw [← isGroup.declarations_eq] at hd
    exact same ▸ mem_modulesIn_of_declaration hd

/-! Statements of a renewed text. -/

theorem RowPrints.replaces {new : List Text} {changes : Prop} (h : RowPrints types isUsed text group new vs)
    (inhabited : vs ≠ []) (touched : changes)
    (place : text'.RestAt n (fullText (rowLexemes (spaced (blanks newline) gap vs)) ++ t)) :
    Replaces changes text newline new text' group
      (declarations ((rowItems n (spaced (blanks newline) gap vs)).map TopStatement.statement)) := by
  refine ⟨?_, fun _ => ?_, fun none => absurd touched none⟩
  · have whole := place
    rw [fullText_eq, List.append_assoc] at whole
    obtain ⟨start, stop⟩ := groupSpan_row (areGroup_row (spaced_ne_nil inhabited) n)
    rw [start, stop, whole.slice_eq, spelled_spaced (blanks newline) gap inhabited, gapText_blanks, h.printed]
  · rw [wordsIn_row place, map_spelled_spaced, h.printed]

/-- The groups among statements have the texts that they have, and nothing changes from them on. -/
def LeftAlone (text newline : Text) (texts : List ImportDeclaration → List Text) (touched : Nat → Prop)
    (statements : List Statement) : Prop :=
  ∀ group ∈ importGroups text statements, ¬ touched (groupSpan group).start ∧ texts group ≠ [] ∧
    Text.glue newline (texts group) = text.slice (groupSpan group).start (groupSpan group).stop

theorem LeftAlone.filter_eq (h : LeftAlone text newline texts touched statements) :
    ((importGroups text statements).filter fun group => !(texts group).isEmpty) =
      importGroups text statements :=
  List.filter_eq_self.2 fun group hgroup => by simpa using (h group hgroup).2.1

theorem renewed_shift (place : text.RestAt n t) (place' : text'.RestAt n' t) {own : List Statement}
    (h : LeftAlone text newline texts touched (own.map (Statement.shift n))) :
    Renewed isUsed text newline texts touched (own.map (Statement.shift n)) text'
      (own.map (Statement.shift n')) where
  toCarries := .shift place place' isUsed own
  first := by
    intro next' found
    cases own with
    | nil => cases found
    | cons s own =>
        obtain ⟨span, kind⟩ := s
        cases kind with
        | importing d => exact ⟨d.shift n, rfl⟩
        | other | sourced => cases Option.some.inj found
  groups := by
    rw [h.filter_eq]
    have each := h
    rw [LeftAlone] at each
    rw [importGroups_shift place] at each ⊢
    rw [importGroups_shift place', List.forall₂_map_left_iff, List.forall₂_map_right_iff, List.forall₂_same]
    intro group hgroup
    have inhabited := importGroups_ne_nil group hgroup
    obtain ⟨behind, -, kept⟩ := each _ (List.mem_map_of_mem hgroup)
    refine ⟨?_, fun changes => absurd changes behind, fun _ => ?_⟩
    · rw [kept, groupSpan_shift inhabited, groupSpan_shift inhabited, Edit.Span.stop_shift,
        Edit.Span.stop_shift]
      exact (slice_shift place' _ _).trans (slice_shift place _ _).symm
    · rw [wordsIn_shift place', wordsIn_shift place]

theorem Renewed.cons {s s' : Statement} (h : Renewed isUsed text newline texts touched more text' more')
    (own : Carries isUsed text [s] text' [s']) (other : declaration? s = none)
    (other' : declaration? s' = none) :
    Renewed isUsed text newline texts touched (s :: more) text' (s' :: more') where
  toCarries := own.append h.toCarries
  first := by
    intro next' found
    rw [declaration?_eq_some.2 (Option.some.inj found)] at other'
    cases other'
  groups := by
    rw [importGroups_of_other other, importGroups_of_other other']
    exact h.groups

namespace Opened

theorem exists_first (h : Opened text c items group ws behind e) :
    ∃ next, (items.map TopStatement.statement).head?.map Statement.kind = some (.importing next) := by
  obtain ⟨w, more, hws⟩ := List.exists_cons_of_ne_nil h.inhabited
  rw [h.split, hws]
  exact ⟨_, rfl⟩

theorem renewed_removed (h : Opened text c items group ws behind e) (fits : c.Fits text)
    (prints : RowPrints types isUsed text group (texts group) [])
    (more : Renewed isUsed text newline texts touched (behind.map TopStatement.statement) text'
      (items'.map TopStatement.statement)) :
    Renewed isUsed text newline texts touched (items.map TopStatement.statement) text'
      (items'.map TopStatement.statement) where
  toCarries := by
    have place := fits.source
    rw [h.chain.source] at place
    have place' : text'.RestAt 0 (fullText (rowLexemes (spaced [] [] [])) ++ text') := Text.restAt_zero text'
    have own := prints.carries h.isGroup place place'
    rw [h.split, List.map_append]
    exact own.append more.toCarries
  first := fun _ _ => h.exists_first
  groups := by
    have none : texts group = [] := prints.printed.symm
    rw [h.groups, List.filter_cons_of_neg (by simp [none])]
    exact more.groups

theorem groupEnds_row {row : List Wording} {extra : List GapPiece}
    (h : Opened text c items group ws behind e)
    (inhabited : row ≠ []) (gap : lastGap (rowLexemes row) = lastGap (rowLexemes ws) ++ extra)
    (fits : c.Fits text) (fits' : c'.Fits text') (chain : c'.Chain (rowLexemes row) e')
    (reads : Reads topStep (.module_ dialect limit) e behind d)
    (reads' : Reads topStep (.module_ dialect limit') e' behind' d')
    (more : Renewed isUsed text newline texts touched (behind.map TopStatement.statement) text'
      (behind'.map TopStatement.statement)) :
    GroupEnds text' (declarations ((rowItems c'.start row).map TopStatement.statement))
      (behind'.map TopStatement.statement) := by
  have place := fits.source
  have place' := fits'.source
  rw [h.chain.source] at place
  rw [chain.source] at place'
  intro last' hlast' next' hnext'
  obtain ⟨next, hnext⟩ := more.first next' hnext'
  have start := start_of_reads reads (h.chain.reaches text fits).1 hnext
  have start' := start_of_reads reads' (chain.reaches text' fits').1 hnext'
  rw [h.chain.start] at start
  rw [chain.start] at start'
  obtain ⟨_, _, -, hlast⟩ := getLast?_row h.isGroup
  have apart := h.ends _ hlast next hnext
  rw [continuesGroup_row h.isGroup place hlast start] at apart
  rw [continuesGroup_row (areGroup_row inhabited _) place' hlast' start', gap, gapText_append]
  exact bridges_append apart _

theorem renewed_printed (h : Opened text c items group ws behind e) (hnewline : IsNewline newline)
    (fits : c.Fits text) (fits' : c'.Fits text')
    (prints : RowPrints types isUsed text group (texts group) vs) (inhabited : vs ≠ [])
    (changes : touched (groupSpan group).start)
    (chain : c'.Chain (rowLexemes (spaced (blanks newline) gap vs)) e')
    (ends : GroupEnds text' (declarations ((rowItems c'.start (spaced (blanks newline) gap vs)).map
      TopStatement.statement)) (behind'.map TopStatement.statement))
    (more : Renewed isUsed text newline texts touched (behind.map TopStatement.statement) text'
      (behind'.map TopStatement.statement)) :
    Renewed isUsed text newline texts touched (items.map TopStatement.statement) text'
      ((rowItems c'.start (spaced (blanks newline) gap vs) ++ behind').map TopStatement.statement) where
  toCarries := by
    have place := fits.source
    have place' := fits'.source
    rw [h.chain.source] at place
    rw [chain.source] at place'
    rw [h.split, List.map_append, List.map_append]
    exact (prints.carries h.isGroup place place').append more.toCarries
  first := fun _ _ => h.exists_first
  groups := by
    have place' := fits'.source
    rw [chain.source] at place'
    have continues := isChain_spaced place' (bridges_newline hnewline)
    have printed : texts group ≠ [] := by
      rw [← prints.printed]
      simpa using inhabited
    rw [h.groups, List.map_append,
      importGroups_of_run (areGroup_row (spaced_ne_nil inhabited) _) continues ends,
      List.filter_cons_of_pos (by simpa using printed)]
    exact .cons (prints.replaces inhabited changes place') more.groups

end Opened

theorem Renewed.agree (h : Renewed (fun _ => true) text newline texts touched statements text' statements') :
    Agree text statements text' statements' :=
  ⟨h.others, fun b => ⟨h.bound b, h.kept b⟩⟩

theorem Renewed.isUsed_eq {program again : Program} {rest : Leftover}
    (h : Renewed isUsed text newline texts touched program.statements text' again.statements)
    (parsed : parse dialect text = .ok program) (parsed' : parse dialect text' = .ok again)
    (names : NamesFrom rest program.statements program.names)
    (names' : NamesFrom rest again.statements again.names)
    (used : ∀ name, program.names.isUsed name = true → isUsed name = true) (name : Text) :
    again.names.isUsed name = program.names.isUsed name := by
  have alike {d d' : ImportDeclaration} {s s' : ImportSpecifier}
      (hd : d ∈ declarations program.statements) (hd' : d' ∈ declarations again.statements)
      (hs : s ∈ d.specifiers) (hs' : s' ∈ d'.specifiers)
      (same : (⟨headerOf text d, formOf text s⟩ : Import.Binding) = ⟨headerOf text' d', formOf text' s'⟩) :
      s.name = s'.name ∧ s.meaning d.isType = s'.meaning d'.isType := by
    obtain ⟨_, _, worded⟩ := exists_worded parsed hd
    obtain ⟨_, _, worded'⟩ := exists_worded parsed' hd'
    obtain ⟨header, form⟩ := Import.Binding.mk.inj same
    have isType : d.isType = d'.isType := congrArg Header.isType header
    refine ⟨name_eq_of_form worded worded' hs hs' form, ?_⟩
    rw [isType]
    cases s <;> cases s' <;> simp_all [formOf, ImportSpecifier.meaning]
  refine names.isUsed_eq names' (fun d' hd' s' hs' => ?_) (fun d hd s hs usedHere => ?_) name
  · have own : (⟨headerOf text' d', formOf text' s'⟩ : Import.Binding) ∈ boundIn text' again.statements :=
      List.mem_flatMap.2 ⟨d', hd', List.mem_map.2 ⟨s', by simpa using hs', rfl⟩⟩
    obtain ⟨d, hd, found⟩ := List.mem_flatMap.1 (h.bound _ own)
    obtain ⟨s, hs, same⟩ := List.mem_map.1 found
    have hs := List.mem_of_mem_filter hs
    exact ⟨d, hd, s, hs, alike hd hd' hs hs' same⟩
  · have own : (⟨headerOf text d, formOf text s⟩ : Import.Binding) ∈
        (declarations program.statements).flatMap (usedIn text isUsed) :=
      List.mem_flatMap.2 ⟨d, hd, List.mem_map.2
        ⟨s, List.mem_filter.2 ⟨hs, used _ usedHere⟩, rfl⟩⟩
    obtain ⟨d', hd', found⟩ := List.mem_flatMap.1 (h.kept _ own)
    obtain ⟨s', hs', same⟩ := List.mem_map.1 found
    have hs' := List.mem_of_mem_filter hs'
    obtain ⟨name, meaning⟩ := alike hd hd' hs hs' same.symm
    exact ⟨d', hd', s', hs', name.symm, meaning.symm⟩

end TidyImports.Import
