import TidyImports.Proofs.Organizer.Schedules

/-! How often a batch loads. A path that is asked for and has no table is loaded once, and once more for
each call that looked for its table while another call was still loading it. -/
namespace TidyImports.Organizer

open Config (AliasTable)

variable {factory : ServiceFactory} {w w' w₀ : World} {path : Text} {batch : List (Text × Settings.Options)}

def misses (path : Text) (loads : List Text) (calls : List Call) : Nat :=
  loads.count path + calls.countP (Call.hasMissed path)

/-- The misses of a path in a batch: none before it is asked for, and then one, and one more for each call
that missed it while another one was loading it. -/
inductive Counted (w₀ w : World) (loads raced : List Text) (calls : List Call) (path : Text) : Prop
  | untouched (same : w.cache.get? path = w₀.cache.get? path)
    (idle : ∀ call ∈ calls, call.isLoading path = false) (none : misses path loads calls = 0)
    (alone : raced.count path = 0)
  | opened (absent : w₀.cache.get? path = none)
    (busy : w.cache.get? path = .none → ∃ call ∈ calls, call.isLoading path = true)
    (some : misses path loads calls = raced.count path + 1)

section Counting

variable {loads raced : List Text} {before after : List Call} {call call' : Call} {event : Event}

theorem misses_of_missed {code : Text} {options : Settings.Options} {other : Text} :
    misses path loads (before ++ ⟨code, options, .missed other⟩ :: after) =
      misses path loads (before ++ ⟨code, options, .begun⟩ :: after) + if other = path then 1 else 0 := by
  simp only [misses, List.countP_append, List.countP_cons, Call.hasMissed, beq_iff_eq,
    Bool.false_eq_true, if_false]
  omega

theorem Advance.misses_eq (advance : Advance factory w call event w' call')
    (h : event ≠ .missed path) : misses path (loads ++ event.loads) (before ++ call' :: after) =
      misses path loads (before ++ call :: after) := by
  cases advance with
  | skipped | found | stored | worked =>
      simp only [Event.loads, List.append_nil, misses, List.countP_append, List.countP_cons,
        Call.hasMissed, Bool.false_eq_true, if_false]
  | @missed _ _ other asks absent =>
      have ne : other ≠ path := fun same => h (by rw [same])
      simp only [Event.loads, List.append_nil, misses_of_missed, if_neg ne, Nat.add_zero]
  | @loaded _ _ other =>
      simp only [Event.loads, misses, List.countP_append, List.countP_cons, Call.hasMissed,
        List.count_append, List.count_singleton, beq_iff_eq, Bool.false_eq_true, if_false]
      omega

theorem Advance.raced_count (advance : Advance factory w call event w' call')
    (h : event ≠ .missed path) (others : List Call) : (event.raced others).count path = 0 := by
  cases event with
  | quiet | loaded => rfl
  | missed other =>
      have ne : other ≠ path := fun same => h (by rw [same])
      rw [Event.raced]
      split
      · simp [ne]
      · rfl

theorem Counted.of_same (h : Counted w₀ w loads raced (before ++ call :: after) path)
    (advance : Advance factory w call event w' call') (quiet : event ≠ .missed path)
    (table : w'.cache.get? path = w.cache.get? path)
    (loading : call'.isLoading path = call.isLoading path) :
    Counted w₀ w' (loads ++ event.loads) (raced ++ event.raced (before ++ after))
      (before ++ call' :: after) path := by
  have count : (raced ++ event.raced (before ++ after)).count path = raced.count path := by
    rw [List.count_append, advance.raced_count quiet, Nat.add_zero]
  cases h with
  | untouched same idle none alone =>
      refine .untouched (table.trans same) ?_ ?_ (count.trans alone)
      · simp only [List.forall_mem_append, List.forall_mem_cons] at idle ⊢
        exact ⟨idle.1, loading.trans idle.2.1, idle.2.2⟩
      · rw [advance.misses_eq quiet, none]
  | opened absent busy some =>
      refine .opened absent (fun missing => ?_) (by rw [advance.misses_eq quiet, some, count])
      obtain ⟨other, hother, held⟩ := busy (table ▸ missing)
      rcases List.mem_append.1 hother with mem | mem
      · exact ⟨other, by simp [mem], held⟩
      · rcases List.mem_cons.1 mem with rfl | mem
        · exact ⟨call', by simp, loading.trans held⟩
        · exact ⟨other, by simp [mem], held⟩

theorem Counted.of_missed {code : Text} {options : Settings.Options}
    (h : Counted w₀ w loads raced (before ++ ⟨code, options, .begun⟩ :: after) path)
    (absent : w.cache.get? path = none) :
    Counted w₀ w loads (raced ++ (Event.missed path).raced (before ++ after))
      (before ++ ⟨code, options, .missed path⟩ :: after) path := by
  have loading : ∃ call ∈ before ++ ⟨code, options, .missed path⟩ :: after,
      call.isLoading path = true :=
    ⟨⟨code, options, .missed path⟩, by simp, by simp [Call.isLoading]⟩
  cases h with
  | untouched old idle none alone =>
      have others : (before ++ after).any (Call.isLoading path) = false := by
        rw [List.any_eq_false]
        intro call hcall
        rw [Bool.not_eq_true]
        rcases List.mem_append.1 hcall with mem | mem
        · exact idle call (by simp [mem])
        · exact idle call (by simp [mem])
      refine .opened (old ▸ absent) (fun _ => loading) ?_
      rw [misses_of_missed, if_pos rfl, none, List.count_append, alone, Event.raced, others]
      rfl
  | opened old busy some =>
      obtain ⟨racer, hracer, held⟩ := busy absent
      have others : (before ++ after).any (Call.isLoading path) = true := by
        refine List.any_eq_true.2 ⟨racer, ?_, held⟩
        rcases List.mem_append.1 hracer with mem | mem
        · exact List.mem_append_left _ mem
        · rcases List.mem_cons.1 mem with rfl | mem
          · cases held
          · exact List.mem_append_right _ mem
      refine .opened old (fun _ => loading) ?_
      rw [misses_of_missed, if_pos rfl, some, List.count_append, Event.raced, others, if_pos rfl,
        List.count_singleton_self]

theorem Counted.of_stored {code : Text} {options : Settings.Options} {table : AliasTable}
    (h : Counted w₀ w loads raced (before ++ ⟨code, options, .loaded path table⟩ :: after) path)
    (work : Work) : Counted w₀ (w.stored path table) loads raced
      (before ++ ⟨code, options, .working work⟩ :: after) path := by
  cases h with
  | untouched _ idle =>
      have own := idle ⟨code, options, .loaded path table⟩ (by simp)
      simp [Call.isLoading] at own
  | opened absent _ some =>
      refine .opened absent (fun missing => ?_) ?_
      · rw [get?_stored] at missing
        cases missing
      · rw [← some]
        simp only [misses, List.countP_append, List.countP_cons, Call.hasMissed, Bool.false_eq_true,
          if_false]

theorem Counted.step (h : Counted w₀ w loads raced (before ++ call :: after) path)
    (advance : Advance factory w call event w' call') :
    Counted w₀ w' (loads ++ event.loads) (raced ++ event.raced (before ++ after))
      (before ++ call' :: after) path := by
  have again := h.of_same advance
  cases advance with
  | skipped | found => exact again (by simp) rfl rfl
  | worked => exact again (by simp) (by rw [(performed_quiet w _).cache]) rfl
  | loaded => exact again (by simp) rfl rfl
  | @stored code options other table =>
      by_cases same : path = other
      · subst same
        simpa [Event.loads, Event.raced] using h.of_stored _
      · refine again (by simp) (get?_stored_of_ne table same) ?_
        simp [Call.isLoading, Ne.symm same]
  | @missed code options other asks absent =>
      by_cases same : other = path
      · subst same
        simpa [Event.loads] using h.of_missed absent
      · exact again (by simpa using same) rfl (by simp [Call.isLoading, same])

end Counting

theorem misses_begin (path : Text) (batch : List (Text × Settings.Options)) :
    misses path [] (batch.map Call.begin) = 0 := by
  rw [misses, List.countP_eq_zero.2]
  · rfl
  · intro call hcall
    obtain ⟨file, -, rfl⟩ := List.mem_map.1 hcall
    simp [Call.hasMissed, Call.begin]

theorem Schedule.counted {loads raced : List Text} {calls : List Call}
    (h : Schedule factory w₀ batch loads raced w calls) (path : Text) :
    Counted w₀ w loads raced calls path := by
  induction h with
  | start =>
      refine .untouched rfl (fun call hcall => ?_) (misses_begin path batch) rfl
      obtain ⟨file, -, rfl⟩ := List.mem_map.1 hcall
      rfl
  | step _ advance ih => exact ih.step advance

def Call.hasLooked (tree : FileTree) (path : Text) (call : Call) : Bool :=
  configOf? tree call.options == some path && !(call.phase matches .begun)

theorem Schedule.misses_le {loads raced : List Text} {calls : List Call}
    (h : Schedule factory w₀ batch loads raced w calls) (path : Text) :
    misses path loads calls ≤ calls.countP (Call.hasLooked w₀.tree path) := by
  induction h with
  | start => simp [misses_begin]
  | @step loads raced w w' before after call call' event h advance ih =>
      have looked : call.hasLooked w₀.tree path = true → call'.hasLooked w₀.tree path = true := by
        cases advance <;> simp [Call.hasLooked]
      by_cases missed : event = .missed path
      · subst missed
        cases advance with
        | missed asks absent =>
            rw [h.tabled.tree] at asks
            rw [Event.loads, List.append_nil, misses_of_missed, if_pos rfl]
            simp only [List.countP_append, List.countP_cons] at ih ⊢
            simp only [Call.hasLooked, asks, beq_self_eq_true, Bool.not_true, Bool.and_false,
              Bool.false_eq_true, if_false, Bool.not_false, Bool.and_self, if_true] at ih ⊢
            omega
      · rw [advance.misses_eq missed]
        refine Nat.le_trans ih ?_
        simp only [List.countP_append, List.countP_cons]
        cases held : call.hasLooked w₀.tree path with
        | true => simp [looked held]
        | false => simp

theorem Schedule.spent {threshold : LogLevel} {loads raced : List Text} {calls : List Call}
    (h : Schedule factory w₀ batch loads raced w calls) (sink : w₀.log.sink = .kept threshold) :
    Spent threshold w₀ (loads.map fun path => ⟨path, w₀.tree⟩) 0 w := by
  induction h with
  | start => exact spent_nothing sink
  | @step loads raced w w' before after call call' event h advance ih =>
      cases advance with
      | skipped | found | missed =>
          rw [Event.loads, List.append_nil]
          exact ih
      | worked =>
          rw [Event.loads, List.append_nil]
          exact ih.quiet (performed_quiet w _)
      | stored =>
          rw [Event.loads, List.append_nil, World.stored]
          split
          · exact ih
          · exact { ih with }
      | @loaded _ _ path =>
          have consulted := ih.trans (spent_consulted ih.sink path)
          rw [h.tabled.tree] at consulted
          rw [Event.loads, List.map_append]
          exact consulted

/-! What a whole batch has loaded. -/

def batchPaths (tree : FileTree) (batch : List (Text × Settings.Options)) : List Text :=
  batch.filterMap fun file => configOf? tree file.2

/-- What asking for paths makes of a world: all of them have tables, and those that had none were loaded,
each once and once more for each race. -/
structure Asked (threshold : LogLevel) (w₀ : World) (paths loads raced : List Text) (plain : Nat)
    (w : World) : Prop where
  tables : ∀ path, w.cache.get? path =
    if path ∈ paths then some (tableFor w₀ (some path)) else w₀.cache.get? path
  keys : (w₀.cache.map Prod.fst).Nodup → (w.cache.map Prod.fst).Nodup
  count : ∀ path, loads.count path =
    if path ∈ paths ∧ w₀.cache.get? path = none then raced.count path + 1 else 0
  alone : ∀ path ∈ raced, path ∈ paths ∧ w₀.cache.get? path = none
  spent : Spent threshold w₀ (loads.map fun path => ⟨path, w₀.tree⟩) plain w

section Whole

variable {threshold : LogLevel} {loads raced : List Text} {calls : List Call}

theorem Schedule.countP_looked_le (h : Schedule factory w₀ batch loads raced w calls) (path : Text) :
    calls.countP (Call.hasLooked w₀.tree path) ≤ (batchPaths w₀.tree batch).count path := by
  have asking : (batchPaths w₀.tree batch).count path =
      calls.countP fun call => configOf? w₀.tree call.options == some path := by
    rw [batchPaths, ← h.tabled.files, List.filterMap_map, List.count_filterMap]
    exact List.countP_congr fun call _ => by simp [Call.file]
  rw [asking]
  refine List.countP_mono_left fun call _ looked => ?_
  rw [Call.hasLooked, Bool.and_eq_true] at looked
  exact looked.1

theorem Schedule.raced_lt (h : Schedule factory w₀ batch loads raced w calls) (hpath : path ∈ raced) :
    w₀.cache.get? path = none ∧ raced.count path < (batchPaths w₀.tree batch).count path := by
  have some_raced := List.count_pos_iff.2 hpath
  cases h.counted path with
  | untouched _ _ _ alone => omega
  | opened absent _ some =>
      have missed := h.misses_le path
      have looked := h.countP_looked_le path
      exact ⟨absent, by omega⟩

theorem misses_of_finished (finished : Finished calls) (path : Text) (loads : List Text) :
    misses path loads calls = loads.count path := by
  rw [misses, List.countP_eq_zero.2, Nat.add_zero]
  intro call hcall
  obtain ⟨result, hresult⟩ := Option.isSome_iff_exists.1 (finished call hcall)
  rw [result?_eq_some hresult]
  simp [Call.hasMissed, Call.finished]

theorem Schedule.get?_eq (h : Schedule factory w₀ batch loads raced w calls) (finished : Finished calls)
    (path : Text) : w.cache.get? path =
      if path ∈ batchPaths w₀.tree batch then some (tableFor w₀ (some path))
      else w₀.cache.get? path := by
  have tabled := h.tabled
  cases found : w.cache.get? path with
  | some table =>
      obtain ⟨rfl, asked⟩ := tabled.stored path table found
      split
      · rfl
      · next other =>
        cases old : w₀.cache.get? path with
        | some table =>
            rw [tabled.kept path table old] at found
            exact found.symm
        | none =>
            obtain ⟨file, hfile, asks⟩ := asked old
            exact absurd (List.mem_filterMap.2 ⟨file, hfile, asks⟩) other
  | none =>
      have other : path ∉ batchPaths w₀.tree batch := by
        rw [batchPaths, ← tabled.files, List.filterMap_map, List.mem_filterMap]
        rintro ⟨call, hcall, asks⟩
        obtain ⟨result, hresult⟩ := Option.isSome_iff_exists.1 (finished call hcall)
        have sound := tabled.sound call hcall
        rw [result?_eq_some hresult] at sound
        cases sound with
        | working _ there => exact there path asks found
      rw [if_neg other, eq_comm, Option.eq_none_iff_forall_ne_some]
      intro table old
      rw [tabled.kept path table old] at found
      cases found

/-- What a whole batch has loaded, whatever the order in which its calls advanced. -/
theorem Schedule.asked (h : Schedule factory w₀ batch loads raced w calls) (finished : Finished calls)
    (sink : w₀.log.sink = .kept threshold) :
    Asked threshold w₀ (batchPaths w₀.tree batch) loads raced 0 w where
  tables := h.get?_eq finished
  keys := h.tabled.keys
  count path := by
    rw [← misses_of_finished finished]
    cases h.counted path with
    | untouched same _ none _ =>
        have found := h.get?_eq finished path
        rw [none, if_neg]
        rintro ⟨asked, absent⟩
        rw [if_pos asked, same, absent] at found
        cases found
    | opened absent _ some =>
        have missed := h.misses_le path
        have looked := h.countP_looked_le path
        rw [if_pos ⟨List.count_pos_iff.1 (by omega), absent⟩, some]
  alone path hpath := by
    obtain ⟨absent, lt⟩ := h.raced_lt hpath
    exact ⟨List.count_pos_iff.1 (by omega), absent⟩
  spent := h.spent sink

end Whole

/-- Two calls of a batch that ask for a path without a table can both load it: each of them looks for the
table before the other one has stored it. -/
theorem exists_race {one other : Text × Settings.Options} (asks : configOf? w.tree one.2 = some path)
    (asksToo : configOf? w.tree other.2 = some path) (absent : w.cache.get? path = none) :
    ∃ w' calls, Schedule factory w [one, other] [path, path] [path] w' calls ∧ Finished calls := by
  -- Both look for the table, then both load it, then both store it and work.
  have begun : Schedule factory w [one, other] [] [] w ([] ++ .begin one :: [.begin other]) := .start
  have missed : Schedule factory w [one, other] _ _ _ ([⟨one.1, one.2, .missed path⟩] ++ _ :: []) :=
    begun.step (.missed asks absent)
  have missedToo : Schedule factory w [one, other] _ _ _ ([] ++ _ :: [_]) :=
    missed.step (.missed asksToo absent)
  have loaded : Schedule factory w [one, other] _ _ _ ([_] ++ _ :: []) := missedToo.step .loaded
  have loadedToo : Schedule factory w [one, other] _ _ _ ([] ++ _ :: [_]) := loaded.step .loaded
  have worked : Schedule factory w [one, other] _ _ _ ([_] ++ _ :: []) := (loadedToo.quiet .stored).works
  have workedToo := (worked.quiet .stored).works
  simp only [Event.loads, Event.raced, Call.isLoading, Call.begin, List.any_cons, List.any_nil,
    beq_self_eq_true, Bool.or_false, if_true, Bool.false_eq_true, if_false, List.append_nil,
    List.nil_append, List.cons_append] at workedToo
  exact ⟨_, _, workedToo, by simp [Finished, Call.finished, Call.result?]⟩

end TidyImports.Organizer
