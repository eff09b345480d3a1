import TidyImports.Script.Grammar.Modules

/-! What a successful run of a parser says. A run of a sequence is a run of its parts, so a run of a
production is taken apart step by step; that each part moves the cursor forward is known from its
type. A repetition is a chain of runs of its step. -/
namespace TidyImports.Script.Parser

variable {α β : Type} {context : Context} {c d : Cursor}

theorem run_bind_eq_ok {p : Parser α} {f : α → Parser β} {b : β} :
    (p >>= f).run context c = .ok (b, d) ↔
      ∃ a e, p.run context c = .ok (a, e) ∧ (f a).run context e = .ok (b, d) := by
  change (andThen p f).run context c = .ok (b, d) ↔ _
  simp only [andThen]
  cases p.run context c with
  | error e => simp
  | ok r =>
    obtain ⟨a, e⟩ := r
    simp only [Except.ok.injEq, Prod.mk.injEq]
    constructor
    · intro h
      exact ⟨a, e, ⟨rfl, rfl⟩, h⟩
    · rintro ⟨_, _, ⟨rfl, rfl⟩, h⟩
      exact h

theorem run_pure_eq_ok {a b : α} :
    (pure a : Parser α).run context c = .ok (b, d) ↔ a = b ∧ c = d := by
  change (yields a).run context c = .ok (b, d) ↔ _
  simp [yields]

theorem run_refuse_eq_ok {a : α} : (refuse : Parser α).run context c = .ok (a, d) ↔ False := by
  simp [refuse]

theorem run_cursor_eq_ok {e : Cursor} : cursor.run context c = .ok (e, d) ↔ c = e ∧ c = d := by
  simp [cursor]

theorem run_token_eq_ok {t : Token} : token.run context c = .ok (t, d) ↔ c.token = t ∧ c = d := by
  simp only [token, run_bind_eq_ok, run_pure_eq_ok, run_cursor_eq_ok]
  constructor
  · rintro ⟨_, _, ⟨rfl, rfl⟩, rfl, rfl⟩
    exact ⟨rfl, rfl⟩
  · rintro ⟨rfl, rfl⟩
    exact ⟨c, c, ⟨rfl, rfl⟩, rfl, rfl⟩

theorem previous_of_advance {u : Unit} (h : advance.run context c = .ok (u, d)) :
    d.previous = c.stop := by
  simp only [advance, moveWith, if_true] at h
  split at h
  · simp at h
  · split at h
    · simp at h
    · simp only [Except.ok.injEq, Prod.mk.injEq] at h
      rw [← h.2]

theorem token_of_eatWord {name : String} (h : (eatWord name).run context c = .ok (true, d)) :
    c.token = .word name false := by
  simp only [eatWord, atWord, run_bind_eq_ok, run_cursor_eq_ok, run_pure_eq_ok] at h
  obtain ⟨_, _, ⟨_, _, ⟨rfl, rfl⟩, rfl, rfl⟩, h⟩ := h
  split at h
  · next hword => simpa using hword
  · simp [run_pure_eq_ok] at h

theorem token_of_needWord {name : String} {u : Unit}
    (h : (needWord name).run context c = .ok (u, d)) : c.token = .word name false := by
  simp only [needWord, run_bind_eq_ok] at h
  obtain ⟨found, e, hword, h⟩ := h
  cases found with
  | false => simp [run_refuse_eq_ok] at h
  | true => exact token_of_eatWord hword

theorem cursor_of_ahead {test : Parser Bool} {b : Bool}
    (h : (ahead test).run context c = .ok (b, d)) : c = d := by
  simp only [ahead, run_bind_eq_ok, run_pure_eq_ok, peek, attempt] at h
  obtain ⟨_, _, h, _, rfl⟩ := h
  split at h
  · simp at h
  · simp only [Except.ok.injEq, Prod.mk.injEq] at h
    exact h.2

/-- What a parser yields when it starts at or behind an offset of a text, in view of the offset at
which the last token that it passes ends. -/
structure From (p : Parser α) (text : Text) (start : Nat) (P : Nat → α → Prop) : Prop where
  of_run : ∀ {context c a d}, c.Fits text → start ≤ c.start → p.run context c = .ok (a, d) →
    P d.previous a

namespace From

variable {text : Text} {start : Nat} {p : Parser α} {P : Nat → β → Prop}

theorem skip {f : α → Parser β} (h : ∀ a, (f a).From text start P) :
    (p >>= f).From text start P := by
  constructor
  intro context c b d fits hstart hrun
  obtain ⟨a, e, hp, hf⟩ := run_bind_eq_ok.1 hrun
  obtain ⟨fits, hle, _⟩ := p.forward hp text fits
  exact (h a).of_run fits (Nat.le_trans hstart hle) hf

theorem bind {f : α → Parser β} {Q : Nat → α → Prop} (hp : p.From text start Q)
    (hf : ∀ {a middle}, Q middle a →
      (f a).From text start fun stop b => middle ≤ stop → P stop b) :
    (p >>= f).From text start P := by
  constructor
  intro context c b d fits hstart hrun
  obtain ⟨a, e, hp', hf'⟩ := run_bind_eq_ok.1 hrun
  obtain ⟨fits', hle, _⟩ := p.forward hp' text fits
  obtain ⟨_, _, hprevious, _⟩ := (f a).forward hf' text fits'
  exact (hf (hp.of_run fits hstart hp')).of_run fits' (Nat.le_trans hstart hle) hf' hprevious

theorem map {g : α → β} {Q : Nat → α → Prop} (h : p.From text start Q)
    (hg : ∀ {stop a}, Q stop a → P stop (g a)) :
    (p >>= fun a => pure (g a)).From text start P := by
  constructor
  intro context c b d fits hstart hrun
  obtain ⟨a, e, hp, hf⟩ := run_bind_eq_ok.1 hrun
  obtain ⟨rfl, rfl⟩ := run_pure_eq_ok.1 hf
  exact hg (h.of_run fits hstart hp)

theorem weaken {Q : Nat → β → Prop} {p : Parser β} (h : p.From text start Q)
    (hQ : ∀ {stop b}, Q stop b → P stop b) : p.From text start P :=
  ⟨fun fits hstart hrun => hQ (h.of_run fits hstart hrun)⟩

theorem refuse : (refuse : Parser β).From text start P :=
  ⟨fun _ _ h => (run_refuse_eq_ok.1 h).elim⟩

theorem yield {b : β} (h : ∀ stop, P stop b) : (pure b : Parser β).From text start P := by
  constructor
  intro context c _ d _ _ hrun
  obtain ⟨rfl, rfl⟩ := run_pure_eq_ok.1 hrun
  exact h c.previous

end From

/-- Items that a repeated step reads one after the other, up to the run in which it declines. -/
inductive Reads (step : Parser (Option α)) (context : Context) : Cursor → List α → Cursor → Prop
  | declined {c d : Cursor} (h : step.run context c = .ok (none, d)) : Reads step context c [] d
  | item {c d e : Cursor} {a : α} {items : List α} (h : step.run context c = .ok (some a, d))
      (more : Reads step context d items e) : Reads step context c (a :: items) e

theorem reads_of_repeatUpTo {step : Parser (Option α)} {bound : Nat} {done all : List α}
    (h : (repeatUpTo step bound done).run context c = .ok (all, d)) :
    ∃ items, all = done.reverse ++ items ∧ Reads step context c items d := by
  induction bound generalizing c done with
  | zero => simp [repeatUpTo, run_refuse_eq_ok] at h
  | succ bound ih =>
    simp only [repeatUpTo, run_bind_eq_ok] at h
    obtain ⟨found, e, hstep, h⟩ := h
    cases found with
    | none =>
      obtain ⟨rfl, rfl⟩ := run_pure_eq_ok.1 h
      exact ⟨[], by simp, .declined hstep⟩
    | some a =>
      obtain ⟨items, rfl, more⟩ := ih h
      exact ⟨a :: items, by simp, .item hstep more⟩

theorem reads_of_many {step : Parser (Option α)} {items : List α}
    (h : (many step).run context c = .ok (items, d)) : Reads step context c items d := by
  simp only [many, run_bind_eq_ok] at h
  obtain ⟨limit, e, hlimit, h⟩ := h
  have here : (read : Parser Context).run context c = .ok (context, c) := rfl
  rw [here] at hlimit
  cases hlimit
  obtain ⟨items, rfl, reads⟩ := reads_of_repeatUpTo h
  exact reads

theorem Reads.forall_mem {step : Parser (Option α)} {text : Text} {start : Nat} {P : α → Prop}
    {items : List α} (h : Reads step context c items d) (fits : c.Fits text)
    (hstart : start ≤ c.start)
    (hstep : step.From text start fun _ found => ∀ a, found = some a → P a) : ∀ a ∈ items, P a := by
  induction h with
  | declined => simp
  | item hrun _ ih =>
    obtain ⟨fits', hle, _⟩ := step.forward hrun text fits
    have here := hstep.of_run fits hstart hrun _ rfl
    exact List.forall_mem_cons.2 ⟨here, ih fits' (Nat.le_trans hstart hle)⟩

theorem From.commaList {text : Text} {start : Nat} {close : String} {item : Parser α}
    {P : α → Prop} (h : item.From text start fun _ a => P a) :
    (commaList close item).From text start fun _ items => ∀ a ∈ items, P a := by
  constructor
  intro context c items d fits hstart hrun
  simp only [Parser.commaList, commaItems, run_bind_eq_ok, run_pure_eq_ok] at hrun
  obtain ⟨_, _, hitems, _, _, _, rfl, _⟩ := hrun
  refine (reads_of_many hitems).forall_mem fits hstart (.skip fun closes => ?_)
  split
  · exact .yield fun _ => by simp
  · refine h.bind fun ha => .skip fun closes => ?_
    split
    · exact .yield fun _ _ _ hfound => by cases hfound; exact ha
    · exact .skip fun _ => .yield fun _ _ _ hfound => by cases hfound; exact ha

end TidyImports.Script.Parser
