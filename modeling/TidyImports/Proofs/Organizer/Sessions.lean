import Mathlib.Data.List.Induction
import TidyImports.Organizer.Session
import TidyImports.Proofs.Organizer.Races

/-! Loaded aliases over whole sessions. From one clearing of the cache to the next, the first request for
a configuration decides: its table is the one of the files at that moment, and it alone costs reads and
perhaps a warning, unless calls of one batch race for it. What is written or removed later changes nothing
until the cache is cleared. -/
namespace TidyImports.Organizer

open Config (AliasTable AliasCache)

def firstFor? (path : Text) (requests : List Request) : Option Request :=
  requests.find? fun r => r.path == path

namespace Step

def batch? : Step → Option (List (Text × Settings.Options))
  | .organizeAll batch => validBatch? batch
  | _ => none

def paths (tree : FileTree) : Step → List Text
  | .cacheLoad path => [tree.resolve path]
  | .organize _ (some options) => (configOf? tree options).toList
  | .organizeAll batch => batchPaths tree ((validBatch? batch).getD [])
  | _ => []

def requests (tree : FileTree) (step : Step) : List Request :=
  (step.paths tree).map fun path => ⟨path, tree⟩

def files (tree : FileTree) : Step → FileTree
  | .write path content => tree.write path content
  | .remove path => tree.remove path
  | _ => tree

def isRead : Step → Bool
  | .read _ => true
  | _ => false

/-- One step of a session, with the paths that it loads and those that it races for. The calls of a batch
advance in any order. -/
inductive Ran (factory : ServiceFactory) (w : World) : Step → List Text → List Text → World → Prop
  | alone {step : Step} (single : step.batch? = none) :
    Ran factory w step ((step.paths w.tree).filter fun path => (w.cache.get? path).isNone) []
      (step.run factory w).2
  | together {step : Step} {batch : List (Text × Settings.Options)} {loads raced : List Text}
    {w' : World} {calls : List Call} (valid : step.batch? = some batch)
    (schedule : Schedule factory w batch loads raced w' calls) (finished : Finished calls) :
    Ran factory w step loads raced w'

end Step

def requestsOf (tree : FileTree) : List Step → List Request
  | [] => []
  | step :: rest => step.requests tree ++ requestsOf (step.files tree) rest

/-- A session: its steps, what they have loaded, and the paths that calls of one batch raced for. -/
inductive Session (factory : ServiceFactory) (w₀ : World) :
    List Step → List Request → List Text → World → Prop
  | start : Session factory w₀ [] [] [] w₀
  | step {steps : List Step} {loads : List Request} {more raced moreRaced : List Text}
    {w w' : World} {step : Step} (h : Session factory w₀ steps loads raced w)
    (ran : step.Ran factory w more moreRaced w') :
    Session factory w₀ (steps ++ [step]) (loads ++ more.map fun path => ⟨path, w.tree⟩)
      (raced ++ moreRaced) w'

def afterSteps (factory : ServiceFactory) (w : World) (steps : List Step) : World :=
  steps.foldl (fun w step => (step.run factory w).2) w

variable {factory : ServiceFactory} {threshold : LogLevel} {w w' w₀ : World}
  {requests loads : List Request} {paths more raced moreRaced : List Text} {path : Text}
  {plain morePlain : Nat} {step : Step} {steps : List Step}

/-! First requests. -/

theorem firstFor?_append (requests more : List Request) (path : Text) :
    firstFor? path (requests ++ more) = (firstFor? path requests).or (firstFor? path more) :=
  List.find?_append

theorem firstFor?_path {first : Request} (h : firstFor? path requests = some first) :
    first.path = path := by
  rw [firstFor?] at h
  simpa using List.find?_some h

theorem firstFor?_map (tree : FileTree) (paths : List Text) (path : Text) :
    firstFor? path (paths.map fun path => ⟨path, tree⟩) =
      if path ∈ paths then some ⟨path, tree⟩ else none := by
  induction paths with
  | nil => rfl
  | cons other paths ih =>
      rw [firstFor?, List.map_cons, List.find?_cons]
      by_cases same : other = path
      · subst same
        simp
      · have miss : (other == path) = false := by simpa using same
        simp only [miss, List.mem_cons, Ne.symm same, false_or]
        exact ih

theorem filter_map_request (tree : FileTree) (paths : List Text) (path : Text) :
    ((paths.map fun path => Request.mk path tree).filter fun r => r.path == path) =
      List.replicate (paths.count path) ⟨path, tree⟩ := by
  rw [List.filter_map]
  have same : ((fun r : Request => r.path == path) ∘ fun path => Request.mk path tree) =
      (· == path) := rfl
  rw [same, List.filter_beq, List.map_replicate]

theorem mem_paths_iff : path ∈ requests.map Request.path ↔ (firstFor? path requests).isSome := by
  simp [firstFor?, List.find?_isSome]

/-! What one step asks for. -/

theorem asked_nothing (h : w.log.sink = .kept threshold) : Asked threshold w [] [] [] 0 w where
  tables path := by simp
  keys h := h
  count path := by simp
  alone path h := by simp at h
  spent := spent_nothing h

theorem Asked.quiet (h : Asked threshold w₀ paths more raced plain w) (hquiet : w.Quiet w') :
    Asked threshold w₀ paths more raced plain w' where
  tables path := by rw [hquiet.cache, h.tables]
  keys := by
    rw [hquiet.cache]
    exact h.keys
  count := h.count
  alone := h.alone
  spent := h.spent.quiet hquiet

theorem asked_aliasesAt (h : w.log.sink = .kept threshold) (path : Text) :
    Asked threshold w [path] ([path].filter fun path => (w.cache.get? path).isNone) [] 0
      (aliasesAt w path).2 := by
  cases found : w.cache.get? path with
  | some table =>
      rw [aliasesAt_of_loaded found]
      refine ⟨fun other => ?_, id, fun other => ?_, by simp, ?_⟩
      · by_cases same : other = path
        · subst same
          rw [if_pos (by simp), aliasesAt_fst_of_loaded found, found]
        · rw [if_neg (by simpa using same)]
      · by_cases same : other = path
        · subst same
          simp [found]
        · simp [found, same]
      · simpa [found] using spent_nothing h
  | none =>
      rw [aliasesAt_of_absent found]
      refine ⟨fun other => ?_, fun nodup => ?_, fun other => ?_, by simp, ?_⟩
      · by_cases same : other = path
        · subst same
          rw [World.loading, AliasCache.get?_insert, if_pos (by simp), aliasesAt_fst_of_absent found]
        · rw [World.loading, AliasCache.get?_insert_of_ne _ same, if_neg (by simpa using same)]
      · exact List.nodup_cons.2 ⟨not_mem_keys found, nodup⟩
      · by_cases same : other = path
        · subst same
          simp [found]
        · simp [found, same, Ne.symm same]
      · have spent := spent_consulted h path
        simp only [found, Option.isNone_none, List.filter_cons_of_pos, List.filter_nil, List.map_cons,
          List.map_nil]
        exact { spent with }

theorem asked_asked (h : w.log.sink = .kept threshold) (config : Option Text) :
    Asked threshold w config.toList (config.toList.filter fun path => (w.cache.get? path).isNone) [] 0
      (w.asked config) := by
  cases config with
  | none => exact asked_nothing h
  | some path => exact asked_aliasesAt h path

theorem organizeStep_snd (factory : ServiceFactory) (w : World) (code : Text)
    (options : Settings.Options) :
    (organizeStep factory w code (some options)).2 = (organize factory w code options).2 := by
  rw [organizeStep]
  rcases organize factory w code options with ⟨result, _⟩
  cases result <;> rfl

theorem Step.Ran.asked (h : step.Ran factory w more raced w') (sink : w.log.sink = .kept threshold)
    (hstep : step ≠ .clearCache) :
    Asked threshold w (step.paths w.tree) more raced (if step.isRead then 1 else 0) w' := by
  have nothing := asked_nothing sink
  cases h with
  | alone single =>
      cases step with
      | clearCache => exact absurd rfl hstep
      | cacheLoad path => exact asked_aliasesAt sink _
      | organize code options =>
          cases options with
          | none => exact nothing
          | some options =>
              rw [Step.run, organizeStep_snd]
              exact (asked_asked sink _).quiet (quiet_organize factory w code options)
      | organizeAll batch =>
          rw [Step.batch?] at single
          rw [Step.run, Step.paths, single]
          exact nothing
      | read path =>
          exact { nothing with
            spent := { nothing.spent with reads := rfl } }
      | write path content => exact { nothing with spent := { nothing.spent with } }
      | remove path => exact { nothing with spent := { nothing.spent with } }
      | «exists» path => exact nothing
      | pwd => exact nothing
      | cacheGet path => exact nothing
  | together valid schedule finished =>
      cases step with
      | organizeAll batch =>
          rw [Step.batch?] at valid
          rw [Step.paths, valid]
          exact schedule.asked finished sink
      | _ => cases valid

theorem run_tree (factory : ServiceFactory) (w : World) (step : Step) :
    (step.run factory w).2.tree = step.files w.tree := by
  cases step with
  | cacheLoad path => exact aliasesAt_tree w _
  | organize code options =>
      cases options with
      | none => rfl
      | some options =>
          rw [Step.run, organizeStep_snd]
          exact organize_tree factory w code options
  | organizeAll batch =>
      rw [Step.run]
      cases validBatch? batch with
      | none => rfl
      | some batch => exact organizeAll_tree factory w batch
  | _ => rfl

theorem Step.Ran.tree (h : step.Ran factory w more raced w') : w'.tree = step.files w.tree := by
  cases h with
  | alone => exact run_tree factory w step
  | together valid schedule =>
      rw [schedule.tabled.tree]
      cases step with
      | organizeAll batch => rfl
      | _ => cases valid

theorem Step.Ran.sink (h : step.Ran factory w more raced w') (sink : w.log.sink = .kept threshold) :
    w'.log.sink = .kept threshold := by
  by_cases clears : step = .clearCache
  · subst clears
    cases h with
    | alone => exact sink
    | together valid => cases valid
  · exact (h.asked sink clears).spent.sink

/-! What a session has loaded. -/

/-- What requests have made of a world in which nothing was loaded: their tables, what loading has cost,
and the warnings, if the log keeps them. -/
structure Accounts (threshold : LogLevel) (w₀ : World) (requests loads : List Request)
    (raced : List Text) (plain : Nat) (w : World) : Prop where
  tables : ∀ path, w.cache.get? path = (firstFor? path requests).map Request.table
  keys : (w.cache.map Prod.fst).Nodup
  loaded : ∀ path, (loads.filter fun r => r.path == path) =
    (firstFor? path requests).elim [] (List.replicate (raced.count path + 1))
  alone : ∀ path ∈ raced, firstFor? path requests ≠ none
  spent : Spent threshold w₀ loads plain w

theorem accounts_start (hempty : w.cache = []) (hsink : w.log.sink = .kept threshold) :
    Accounts threshold w [] [] [] 0 w where
  tables path := by
    rw [hempty]
    rfl
  keys := by simp [hempty]
  loaded path := rfl
  alone path h := by simp at h
  spent := spent_nothing hsink

theorem count_eq_zero_of_firstFor? (h : Accounts threshold w₀ requests loads raced plain w)
    (absent : firstFor? path requests = none) : raced.count path = 0 :=
  List.count_eq_zero.2 fun hpath => h.alone path hpath absent

theorem Accounts.extend (h : Accounts threshold w₀ requests loads raced plain w)
    (asked : Asked threshold w paths more moreRaced morePlain w') :
    Accounts threshold w₀ (requests ++ paths.map fun path => ⟨path, w.tree⟩)
      (loads ++ more.map fun path => ⟨path, w.tree⟩) (raced ++ moreRaced) (plain + morePlain) w' where
  tables path := by
    have before := h.tables path
    rw [asked.tables, firstFor?_append, firstFor?_map]
    cases first : firstFor? path requests with
    | some r =>
        rw [first, Option.map_some] at before
        rw [aliasesAt_fst_of_loaded before, before, ite_self]
        rfl
    | none =>
        rw [first, Option.map_none] at before
        rw [aliasesAt_fst_of_absent before, before]
        split <;> rfl
  keys := asked.keys h.keys
  loaded path := by
    have before := h.tables path
    have count := asked.count path
    rw [List.filter_append, h.loaded, filter_map_request, firstFor?_append, firstFor?_map,
      List.count_append]
    cases first : firstFor? path requests with
    | some r =>
        rw [first, Option.map_some] at before
        have still : path ∉ moreRaced := by
          intro hpath
          rw [(asked.alone path hpath).2] at before
          cases before
        rw [if_neg (by simp [before])] at count
        rw [count, List.count_eq_zero.2 still]
        simp
    | none =>
        rw [first, Option.map_none] at before
        rw [count_eq_zero_of_firstFor? h first, count]
        by_cases hpath : path ∈ paths
        · simp [hpath, before]
        · simp [hpath]
  alone path hpath := by
    rw [firstFor?_append, firstFor?_map]
    rcases List.mem_append.1 hpath with old | new
    · simp [Option.or_eq_none_iff, h.alone path old]
    · simp [(asked.alone path new).1]
  spent := h.spent.trans asked.spent

def filesAfter (tree : FileTree) (steps : List Step) : FileTree := steps.foldl Step.files tree

theorem requestsOf_append (tree : FileTree) (steps more : List Step) :
    requestsOf tree (steps ++ more) =
      requestsOf tree steps ++ requestsOf (filesAfter tree steps) more := by
  induction steps generalizing tree with
  | nil => rfl
  | cons step steps ih =>
      rw [List.cons_append, requestsOf, ih, requestsOf, List.append_assoc]
      rfl

theorem Session.tree (h : Session factory w₀ steps loads raced w) :
    w.tree = filesAfter w₀.tree steps := by
  induction h with
  | start => rfl
  | step _ ran ih =>
      rw [ran.tree, ih, filesAfter, filesAfter, List.foldl_append]
      rfl

theorem Session.sink (h : Session factory w₀ steps loads raced w)
    (sink : w₀.log.sink = .kept threshold) : w.log.sink = .kept threshold := by
  induction h with
  | start => exact sink
  | step _ ran ih => exact ran.sink ih

theorem Session.accounts (h : Session factory w₀ steps loads raced w) (hempty : w₀.cache = [])
    (sink : w₀.log.sink = .kept threshold) (hsteps : ∀ step ∈ steps, step ≠ .clearCache) :
    Accounts threshold w₀ (requestsOf w₀.tree steps) loads raced (steps.countP Step.isRead) w := by
  induction h with
  | start => exact accounts_start hempty sink
  | @step steps loads more raced moreRaced w w' step h ran ih =>
      simp only [List.forall_mem_append, List.forall_mem_singleton] at hsteps
      have accounts := (ih hsteps.1).extend (ran.asked (h.sink sink) hsteps.2)
      rw [requestsOf_append, ← h.tree, requestsOf, requestsOf, List.append_nil, List.countP_append,
        List.countP_singleton]
      exact accounts

theorem afterSteps_append (factory : ServiceFactory) (w : World) (steps more : List Step) :
    afterSteps factory w (steps ++ more) = afterSteps factory (afterSteps factory w steps) more :=
  List.foldl_append

/-- The steps one after the other, each batch from left to right, are a session without races. -/
theorem session_afterSteps (factory : ServiceFactory) (w : World) (steps : List Step) :
    ∃ loads, Session factory w steps loads [] (afterSteps factory w steps) := by
  induction steps using List.reverseRecOn with
  | nil => exact ⟨[], .start⟩
  | append_singleton steps step ih =>
      obtain ⟨loads, session⟩ := ih
      have ran : ∃ more, step.Ran factory (afterSteps factory w steps) more []
          (step.run factory (afterSteps factory w steps)).2 := by
        cases valid : step.batch? with
        | none => exact ⟨_, .alone valid⟩
        | some batch =>
            obtain ⟨more, calls, schedule, finished, -⟩ :=
              schedule_organizeAll factory (afterSteps factory w steps) batch
            cases step with
            | organizeAll files =>
                rw [Step.batch?] at valid
                refine ⟨more, .together valid ?_ finished⟩
                rw [Step.run, valid]
                exact schedule
            | _ => cases valid
      obtain ⟨more, ran⟩ := ran
      rw [afterSteps_append]
      exact ⟨_, session.step ran⟩

end TidyImports.Organizer
