import TidyImports.Text.Basic

/-! The pieces of a text around a separator. No piece holds the separator, and texts without it that
are glued together are the pieces of the result. -/
namespace TidyImports.Text

variable {sep : Char} {s t : Text}

theorem not_mem_of_mem_pieces (sep : Char) (t : Text) : ∀ p ∈ t.pieces sep, sep ∉ p := by
  induction t with
  | nil => simp [pieces]
  | cons c t ih =>
      rw [pieces]
      by_cases hc : c = sep
      · rw [if_pos hc]
        exact List.forall_mem_cons.2 ⟨List.not_mem_nil, ih⟩
      · rw [if_neg hc]
        cases hpieces : pieces sep t with
        | nil => exact absurd hpieces (pieces_ne_nil sep t)
        | cons p ps =>
            rw [hpieces] at ih
            obtain ⟨hp, hps⟩ := List.forall_mem_cons.1 ih
            refine List.forall_mem_cons.2 ⟨?_, hps⟩
            rw [List.mem_cons, not_or]
            exact ⟨Ne.symm hc, hp⟩

theorem mem_of_mem_pieces {c : Char} {p : Text} (hp : p ∈ t.pieces sep) (hc : c ∈ p) : c ∈ t := by
  induction t generalizing p with
  | nil =>
      rw [pieces, List.mem_singleton] at hp
      rw [hp] at hc
      exact hc
  | cons d t ih =>
      rw [pieces] at hp
      by_cases hd : d = sep
      · rw [if_pos hd] at hp
        rcases List.mem_cons.1 hp with rfl | hp
        · exact absurd hc List.not_mem_nil
        · exact List.mem_cons_of_mem d (ih hp hc)
      · rw [if_neg hd] at hp
        cases hpieces : pieces sep t with
        | nil => exact absurd hpieces (pieces_ne_nil sep t)
        | cons q qs =>
            rw [hpieces] at hp ih
            rcases List.mem_cons.1 hp with rfl | hp
            · rcases List.mem_cons.1 hc with rfl | hc
              · exact List.mem_cons_self
              · exact List.mem_cons_of_mem d (ih List.mem_cons_self hc)
            · exact List.mem_cons_of_mem d (ih (List.mem_cons_of_mem q hp) hc)

theorem pieces_append_cons (sep : Char) (s t : Text) :
    (s ++ sep :: t).pieces sep = s.pieces sep ++ t.pieces sep := by
  induction s with
  | nil => simp [pieces]
  | cons c s ih =>
      rw [List.cons_append, pieces, pieces, ih]
      by_cases hc : c = sep
      · rw [if_pos hc, if_pos hc, List.cons_append]
      · rw [if_neg hc, if_neg hc]
        cases hpieces : pieces sep s with
        | nil => exact absurd hpieces (pieces_ne_nil sep s)
        | cons p ps => rfl

theorem exists_pieces_eq_concat (sep : Char) (t : Text) :
    ∃ init last, t.pieces sep = init ++ [last] :=
  ⟨_, _, (List.dropLast_concat_getLast (pieces_ne_nil sep t)).symm⟩

theorem exists_pieces_eq_cons (sep : Char) (t : Text) :
    ∃ first rest, t.pieces sep = first :: rest :=
  List.exists_cons_of_ne_nil (pieces_ne_nil sep t)

theorem pieces_append {init rest : List Text} {last first : Text}
    (hs : s.pieces sep = init ++ [last]) (ht : t.pieces sep = first :: rest) :
    (s ++ t).pieces sep = init ++ (last ++ first) :: rest := by
  induction s generalizing init last with
  | nil =>
      rw [pieces, ← List.nil_append [[]], List.append_singleton_inj] at hs
      obtain ⟨rfl, rfl⟩ := hs
      exact ht
  | cons c s ih =>
      rw [List.cons_append, pieces]
      rw [pieces] at hs
      by_cases hc : c = sep
      · rw [if_pos hc] at hs ⊢
        obtain ⟨before, p, hp⟩ := exists_pieces_eq_concat sep s
        rw [hp, ← List.cons_append, List.append_singleton_inj] at hs
        obtain ⟨rfl, rfl⟩ := hs
        rw [ih hp]
        rfl
      · rw [if_neg hc] at hs ⊢
        obtain ⟨p, ps, hp⟩ := exists_pieces_eq_cons sep s
        rw [hp] at hs
        cases init with
        | nil =>
            obtain ⟨rfl, rfl⟩ := by simpa using hs
            rw [ih (show pieces sep s = [] ++ [p] from hp)]
            rfl
        | cons q qs =>
            obtain ⟨rfl, rfl⟩ := by simpa using hs
            rw [ih (show pieces sep s = (p :: qs) ++ [last] from hp)]
            rfl

theorem pieces_of_not_mem (h : sep ∉ t) : t.pieces sep = [t] := by
  induction t with
  | nil => rfl
  | cons c t ih =>
      rw [List.mem_cons, not_or] at h
      rw [pieces, if_neg (Ne.symm h.1), ih h.2]

theorem last_piece_eq_nil_iff {init : List Text} {last : Text}
    (h : t.pieces sep = init ++ [last]) : last = [] ↔ t = [] ∨ t.getLast? = some sep := by
  rcases List.eq_nil_or_concat t with rfl | ⟨s, c, rfl⟩
  · rw [pieces, ← List.nil_append [[]], List.append_singleton_inj] at h
    simp [← h.2]
  · rw [List.concat_eq_append] at h ⊢
    rw [List.getLast?_concat, Option.some_inj]
    obtain ⟨before, p, hp⟩ := exists_pieces_eq_concat sep s
    by_cases hc : c = sep
    · subst hc
      rw [pieces_append_cons, pieces, List.append_singleton_inj] at h
      simp [← h.2]
    · have single : pieces sep [c] = [[c]] := pieces_of_not_mem (by simpa using Ne.symm hc)
      rw [pieces_append hp single, List.append_singleton_inj] at h
      simp [← h.2, hc]

theorem glue_ne_nil {separator first : Text} {rest : List Text} (h : first ≠ []) :
    glue separator (first :: rest) ≠ [] := by
  cases rest with
  | nil => exact h
  | cons next rest =>
      rw [glue, List.append_assoc]
      exact List.append_ne_nil_of_left_ne_nil h _

theorem glue_append (sep : Text) {ps qs : List Text} (hps : ps ≠ []) (hqs : qs ≠ []) :
    glue sep (ps ++ qs) = glue sep ps ++ sep ++ glue sep qs := by
  induction ps with
  | nil => exact absurd rfl hps
  | cons p ps ih =>
      cases ps with
      | nil =>
          obtain ⟨q, qs, rfl⟩ := List.exists_cons_of_ne_nil hqs
          rfl
      | cons q rest =>
          have rest := ih (List.cons_ne_nil q rest)
          rw [List.cons_append] at rest ⊢
          rw [List.cons_append, glue, rest, glue]
          simp only [List.append_assoc]

theorem getLast?_glue {last : Text} (sep : Text) (ps : List Text) (h : last ≠ []) :
    (glue sep (ps ++ [last])).getLast? = last.getLast? := by
  by_cases hps : ps = []
  · rw [hps]
    rfl
  · rw [glue_append sep hps (by simp), List.getLast?_append, glue, List.getLast?_eq_some_getLast h,
      Option.some_or]

theorem mem_glue {ps : List Text} {c : Char} (h : c ∈ glue [sep] ps) :
    c = sep ∨ ∃ p ∈ ps, c ∈ p := by
  fun_induction glue [sep] ps with
  | case1 => exact absurd h List.not_mem_nil
  | case2 p => exact .inr ⟨p, List.mem_singleton_self p, h⟩
  | case3 p q ps ih =>
      rw [List.append_assoc, List.mem_append, List.mem_append, List.mem_singleton] at h
      rcases h with hp | rfl | hrest
      · exact .inr ⟨p, List.mem_cons_self, hp⟩
      · exact .inl rfl
      · exact (ih hrest).imp_right fun ⟨r, hr, hc⟩ => ⟨r, List.mem_cons_of_mem p hr, hc⟩

theorem pieces_glue {ps : List Text} (hne : ps ≠ []) (h : ∀ p ∈ ps, sep ∉ p) :
    (glue [sep] ps).pieces sep = ps := by
  induction ps with
  | nil => exact absurd rfl hne
  | cons p ps ih =>
      obtain ⟨hp, hps⟩ := List.forall_mem_cons.1 h
      cases ps with
      | nil => exact pieces_of_not_mem hp
      | cons q qs =>
          rw [glue, List.append_assoc, List.singleton_append, pieces_append_cons,
            pieces_of_not_mem hp, ih (List.cons_ne_nil q qs) hps]
          rfl

theorem stripTail?_eq_some {tail : Text} : stripTail? tail t = some s ↔ t = s ++ tail := by
  rw [stripTail?, Option.map_eq_some_iff]
  constructor
  · rintro ⟨u, hu, rfl⟩
    rw [stripHead?_eq_some] at hu
    rw [← List.reverse_inj, hu, List.reverse_append, List.reverse_reverse]
  · rintro rfl
    exact ⟨s.reverse, by rw [stripHead?_eq_some, List.reverse_append], List.reverse_reverse s⟩

end TidyImports.Text
