import Mathlib.Data.List.Basic
import TidyImports.Organizer.Host
import TidyImports.Proofs.Organizer.Patches

/-! Batches of a host. A traversal either yields a result for each element or fails as the first element
that fails; a mistake in any options comes before all other failures. -/
namespace TidyImports.Organizer

variable {w : World}

def FirstFailure {α β ε : Type} (run : α → Except ε β) (xs : List α) (e : ε) : Prop :=
  ∃ before x after, xs = before ++ x :: after ∧ (∀ y ∈ before, ∃ r, run y = .ok r) ∧
    run x = .error e

section Traversal

variable {α β ε : Type} {run : α → Except ε β}

theorem mapM_eq_ok_iff {xs : List α} {ys : List β} :
    xs.mapM run = .ok ys ↔ List.Forall₂ (fun x y => run x = .ok y) xs ys := by
  induction xs generalizing ys with
  | nil => cases ys <;> simp [pure, Except.pure]
  | cons x xs ih =>
      rw [List.mapM_cons]
      cases hx : run x with
      | error e => cases ys <;> simp [bind, Except.bind, hx]
      | ok y =>
          cases hxs : xs.mapM run with
          | error e => cases ys <;> simp [bind, Except.bind, ← ih, hxs, hx]
          | ok ys' => cases ys <;> simp [bind, Except.bind, pure, Except.pure, ← ih, hxs, hx]

theorem firstFailure_cons_of_error {x : α} {e : ε} (hx : run x = .error e) (xs : List α) {e' : ε} :
    FirstFailure run (x :: xs) e' ↔ e = e' := by
  constructor
  · rintro ⟨before, y, after, hsplit, hbefore, hy⟩
    cases before with
    | nil =>
        cases hsplit
        exact Except.error.inj (hx.symm.trans hy)
    | cons z before =>
        cases hsplit
        obtain ⟨r, hr⟩ := hbefore x List.mem_cons_self
        simp [hx] at hr
  · rintro rfl
    exact ⟨[], x, xs, rfl, by simp, hx⟩

theorem firstFailure_cons_of_ok {x : α} {y : β} (hx : run x = .ok y) (xs : List α) {e : ε} :
    FirstFailure run (x :: xs) e ↔ FirstFailure run xs e := by
  constructor
  · rintro ⟨before, z, after, hsplit, hbefore, hz⟩
    cases before with
    | nil =>
        cases hsplit
        simp [hx] at hz
    | cons u before =>
        cases hsplit
        exact ⟨before, z, after, rfl, fun u hu => hbefore u (List.mem_cons_of_mem x hu), hz⟩
  · rintro ⟨before, z, after, rfl, hbefore, hz⟩
    exact ⟨x :: before, z, after, rfl, List.forall_mem_cons.2 ⟨⟨y, hx⟩, hbefore⟩, hz⟩

theorem mapM_eq_error_iff {xs : List α} {e : ε} :
    xs.mapM run = .error e ↔ FirstFailure run xs e := by
  induction xs with
  | nil => simp [pure, Except.pure, FirstFailure]
  | cons x xs ih =>
      rw [List.mapM_cons]
      cases hx : run x with
      | error e' =>
          rw [firstFailure_cons_of_error hx]
          simp [bind, Except.bind]
      | ok y =>
          rw [firstFailure_cons_of_ok hx, ← ih]
          cases xs.mapM run <;> simp [bind, Except.bind, pure, Except.pure]

end Traversal

def organizeElement (w : World) (file : Text × Option Settings.HostOptions) :
    Except HostError Text :=
  match Settings.hostOptions file.2 with
  | .error choice => .error (.invalidChoice choice)
  | .ok options => (organizeOnce w file.1 options).mapError (.failureIn options.effectivePath)

theorem hostBatch_eq_mapM (batch : List (Text × Option Settings.HostOptions)) :
    hostBatch batch = (batch.mapM fun file => Settings.hostOptions file.2).map
      fun options => (batch.map Prod.fst).zip options := by
  induction batch with
  | nil => rfl
  | cons file batch ih =>
      rw [hostBatch, List.mapM_cons]
      cases Settings.hostOptions file.2 with
      | error choice => rfl
      | ok options =>
          rw [ih]
          cases batch.mapM fun file => Settings.hostOptions file.2 <;> rfl

theorem firstError_eq_mapM (run : Text × Settings.Options → Except OrganizeError Text)
    (files : List (Text × Settings.Options)) :
    firstError (files.map run) files =
      files.mapM fun file => (run file).mapError (.failureIn file.2.effectivePath) := by
  induction files with
  | nil => rfl
  | cons file files ih =>
      rw [List.map_cons, List.mapM_cons]
      cases hrun : run file with
      | error e => rw [firstError]; rfl
      | ok text =>
          rw [firstError, ih]
          cases (files.mapM fun file =>
            (run file).mapError (HostError.failureIn file.2.effectivePath)) <;> rfl

theorem hostOrganizeAll_of_mistake (w : World)
    {batch : List (Text × Option Settings.HostOptions)} {choice : Settings.InvalidChoice}
    (h : FirstFailure (fun file => Settings.hostOptions file.2) batch choice) :
    (hostOrganizeAll w batch).1 = .error (.invalidChoice choice) := by
  rw [hostOrganizeAll, hostBatch_eq_mapM, mapM_eq_error_iff.2 h]
  rfl

theorem valid_or_mistake (batch : List (Text × Option Settings.HostOptions)) :
    (∀ file ∈ batch, ∃ options, Settings.hostOptions file.2 = .ok options) ∨
      ∃ choice, FirstFailure (fun file => Settings.hostOptions file.2) batch choice := by
  cases hoptions : batch.mapM fun file => Settings.hostOptions file.2 with
  | error choice => exact .inr ⟨choice, mapM_eq_error_iff.1 hoptions⟩
  | ok options =>
      refine .inl fun file hfile => ?_
      obtain ⟨o, _, ho⟩ := Edit.exists_of_forall₂ (mapM_eq_ok_iff.1 hoptions).flip file hfile
      exact ⟨o, ho⟩

theorem organizeElement_eq_ok_iff {file : Text × Option Settings.HostOptions} {text : Text} :
    organizeElement w file = .ok text ↔ ∃ options, Settings.hostOptions file.2 = .ok options ∧
      organizeOnce w file.1 options = .ok text := by
  rw [organizeElement]
  cases Settings.hostOptions file.2 with
  | error choice => simp
  | ok options => cases hrun : organizeOnce w file.1 options <;> simp [Except.mapError, hrun]

end TidyImports.Organizer
