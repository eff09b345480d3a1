import Mathlib.Algebra.Ring.Nat
import TidyImports.Proofs.Organizer.World

/-! Loading aliases. A path without a table costs a walk through its configuration and one record in
the log, and gets a table for good: that of the configuration, or an empty one if it cannot be loaded.
A path with a table costs nothing. -/
namespace TidyImports.Config

def AliasTable.loaded (tree : FileTree) (path : Text) : AliasTable :=
  match AliasTable.load tree path with
  | .ok table => table
  | .error _ => .empty

end TidyImports.Config

namespace TidyImports.Organizer

open Config (AliasTable)

variable {w w' w₀ : World} {path : Text}

def loadRecord (tree : FileTree) (path : Text) : LogRecord :=
  match AliasTable.load tree path with
  | .ok table => ⟨.debug, loadedMessage table path⟩
  | .error e => ⟨.warn, ignoredMessage e path⟩

def World.consulted (w : World) (path : Text) : World :=
  { w.logged (loadRecord w.tree path).level (loadRecord w.tree path).message with
    reads := w.reads + (Config.loadConfig w.tree path).reads }

def World.loading (w : World) (path : Text) : World :=
  { w.consulted path with cache := w.cache.insert path (.loaded w.tree path) }

theorem loadAliases_eq (w : World) (path : Text) :
    loadAliases w path = (.loaded w.tree path, w.loading path) := by
  simp only [loadAliases, World.loading, World.consulted, loadRecord, AliasTable.loaded, AliasTable.load]
  cases (Config.loadConfig w.tree path).outcome <;> rfl

theorem aliasesAt_of_loaded {table : AliasTable} (h : w.cache.get? path = some table) :
    aliasesAt w path = (table, w) := by
  rw [aliasesAt, h]

theorem aliasesAt_of_absent (h : w.cache.get? path = none) :
    aliasesAt w path = (.loaded w.tree path, w.loading path) := by
  rw [aliasesAt, h]
  exact loadAliases_eq w path

/-- A configuration that is asked for, and the files at that moment. -/
structure Request where
  path : Text
  tree : FileTree

namespace Request

def table (r : Request) : AliasTable := .loaded r.tree r.path

def reads (r : Request) : Nat := (Config.loadConfig r.tree r.path).reads

def warning? (r : Request) : Option String :=
  match AliasTable.load r.tree r.path with
  | .ok _ => none
  | .error e => some (ignoredMessage e r.path)

end Request

/-- What loading configurations has cost: reads, besides those of other steps, and warnings, if the log
takes them. -/
structure Spent (threshold : LogLevel) (w₀ : World) (loads : List Request) (plain : Nat)
    (w : World) : Prop where
  reads : w.reads = w₀.reads + plain + (loads.map Request.reads).sum
  sink : w.log.sink = .kept threshold
  warnings : w.log.messages .warn = w₀.log.messages .warn ++
    if threshold.rank ≤ LogLevel.warn.rank then loads.filterMap Request.warning? else []

section Spending

variable {threshold : LogLevel} {loads more : List Request} {plain more_plain : Nat}

theorem spent_nothing (h : w.log.sink = .kept threshold) : Spent threshold w [] 0 w where
  reads := rfl
  sink := h
  warnings := by simp

theorem Spent.trans (h : Spent threshold w₀ loads plain w) (k : Spent threshold w more more_plain w') :
    Spent threshold w₀ (loads ++ more) (plain + more_plain) w' where
  reads := by
    rw [k.reads, h.reads, List.map_append, List.sum_append]
    omega
  sink := k.sink
  warnings := by
    rw [k.warnings, h.warnings, List.filterMap_append, List.append_assoc]
    split <;> simp

theorem Spent.quiet (h : Spent threshold w₀ loads plain w) (hquiet : w.Quiet w') :
    Spent threshold w₀ loads plain w' where
  reads := by rw [hquiet.reads, h.reads]
  sink := hquiet.sink.trans h.sink
  warnings := hquiet.warnings.trans h.warnings

theorem messages_add_kept {log : Log} (h : log.sink = .kept threshold) (message : String)
    (level : LogLevel) : (log.add level message).messages level = log.messages level ++
      if threshold.rank ≤ level.rank then [message] else [] := by
  rw [Log.add, h]
  simp only
  split
  · simp [Log.messages]
  · simp

theorem warnings_consulted (h : w.log.sink = .kept threshold) (path : Text) :
    (w.consulted path).log.messages .warn = w.log.messages .warn ++
      if threshold.rank ≤ LogLevel.warn.rank then
        [Request.mk path w.tree].filterMap Request.warning?
      else [] := by
  have log : (w.consulted path).log =
      w.log.add (loadRecord w.tree path).level (loadRecord w.tree path).message := rfl
  rw [log, loadRecord.eq_def]
  cases hload : AliasTable.load w.tree path with
  | ok table =>
      simp [messages_add_of_ne, Request.warning?, hload]
  | error e =>
      simp [messages_add_kept h, Request.warning?, hload]

theorem spent_consulted (h : w.log.sink = .kept threshold) (path : Text) :
    Spent threshold w [⟨path, w.tree⟩] 0 (w.consulted path) where
  reads := rfl
  sink := (log_add_sink w.log _ _).trans h
  warnings := warnings_consulted h path

end Spending

end TidyImports.Organizer
