import TidyImports.Path.Extension
import TidyImports.Proofs.Text.Pieces

/-! Script extensions and index segments. The ending that is taken off a name is the longest script
extension that the name ends with, so that a declaration mark goes with the extension behind it. -/
namespace TidyImports.Path

variable {letters : List Char} {c : Char} {t rest name bare ext : Text}

/-- One of the letters up to case folding, or nothing. -/
inductive IsOptional (letters : List Char) : Text → Prop
  | none : IsOptional letters []
  | one {c : Char} (h : Text.foldsInto letters c = true) : IsOptional letters [c]

/-- A dot, `c` or `m` or neither, `j` or `t`, an `s`, and an `x` or nothing. -/
inductive IsScript : Text → Prop
  | parts {variant last : Text} {language s : Char} (hvariant : IsOptional ['c', 'm'] variant)
    (hlanguage : Text.foldsInto ['j', 't'] language = true) (hs : Text.foldsInto ['s'] s = true)
    (hlast : IsOptional ['x'] last) : IsScript ('.' :: (variant ++ language :: s :: last))

inductive IsMark : Text → Prop
  | none : IsMark []
  | declaration {d : Char} (h : Text.foldsInto ['d'] d = true) : IsMark ['.', d]

inductive IsExtension : Text → Prop
  | marked {mark script : Text} (hmark : IsMark mark) (h : IsScript script) : IsExtension (mark ++ script)

/-- A name without the longest extension that it ends with. -/
inductive WithoutExtension (name : Text) : Text → Prop
  | taken {bare ext : Text} (h : IsExtension ext) (heq : name = bare ++ ext)
    (longest : ∀ shorter other, IsExtension other → name = shorter ++ other →
      other.length ≤ ext.length) : WithoutExtension name bare
  | none (h : ∀ bare ext, IsExtension ext → name ≠ bare ++ ext) : WithoutExtension name name

inductive WithoutIndex (path : Text) : Text → Prop
  | taken {directory : Text} (heq : path = directory ++ "/index".toList) : WithoutIndex path directory
  | none (h : ∀ directory : Text, path ≠ directory ++ "/index".toList) : WithoutIndex path path

theorem takeFolded_eq_some : takeFolded letters t = some rest ↔
    ∃ c, Text.foldsInto letters c = true ∧ t = c :: rest := by
  cases t with
  | nil => simp [takeFolded]
  | cons c t =>
      rw [takeFolded]
      constructor
      · intro h
        split at h
        · next hc => exact ⟨c, hc, by rw [Option.some.inj h]⟩
        · simp at h
      · rintro ⟨d, hd, heq⟩
        obtain ⟨rfl, rfl⟩ := List.cons.inj heq
        rw [if_pos hd]

theorem takeDot_eq_some : takeDot t = some rest ↔ t = '.' :: rest := by
  cases t with
  | nil => simp [takeDot]
  | cons c t => by_cases h : c = '.' <;> simp [takeDot, h]

theorem IsOptional.reverse (h : IsOptional letters t) : t.reverse = t := by
  cases h <;> rfl

theorem takeFoldedOptional_append {last : Text} (h : IsOptional letters last)
    (hc : Text.foldsInto letters c = false) (rest : Text) :
    takeFoldedOptional letters (last ++ c :: rest) = c :: rest := by
  cases h with
  | none => simp [takeFoldedOptional, takeFolded, hc]
  | one h => simp [takeFoldedOptional, takeFolded, h]

theorem exists_isOptional (letters : List Char) (t : Text) : ∃ last, IsOptional letters last ∧
    t = last ++ takeFoldedOptional letters t := by
  cases h : takeFolded letters t with
  | none => exact ⟨[], .none, by simp [takeFoldedOptional, h]⟩
  | some rest =>
      obtain ⟨c, hc, rfl⟩ := takeFolded_eq_some.1 h
      exact ⟨[c], .one hc, by simp [takeFoldedOptional, h]⟩

theorem foldsInto_eq_false {others : List Char} (h : Text.foldsInto letters c = true)
    (apart : ∀ d ∈ letters, d ∉ others) : Text.foldsInto others c = false := by
  rw [Text.foldsInto, List.contains_iff_mem] at h
  simpa [Text.foldsInto] using apart _ h

theorem takeMark_eq_some : (takeFolded ['d'] t).bind takeDot = some rest ↔
    ∃ d, Text.foldsInto ['d'] d = true ∧ t = d :: '.' :: rest := by
  simp only [Option.bind_eq_some_iff, takeFolded_eq_some, takeDot_eq_some]
  constructor
  · rintro ⟨_, ⟨d, hd, rfl⟩, rfl⟩
    exact ⟨d, hd, rfl⟩
  · rintro ⟨d, hd, rfl⟩
    exact ⟨_, ⟨d, hd, rfl⟩, rfl⟩

/-- The rest of a reversed name behind a declaration mark, and the name itself if it starts with none. -/
inductive Unmarked (t : Text) : Text → Prop
  | taken {d : Char} {rest : Text} (hd : Text.foldsInto ['d'] d = true) (heq : t = d :: '.' :: rest) :
    Unmarked t rest
  | none (h : ∀ d rest, Text.foldsInto ['d'] d = true → t ≠ d :: '.' :: rest) : Unmarked t t

theorem dropScriptReversed_eq_some : dropScriptReversed t = some rest ↔
    ∃ ext below, IsScript ext ∧ t = ext.reverse ++ below ∧ Unmarked below rest := by
  simp only [dropScriptReversed, Option.bind_eq_bind, Option.bind_eq_some_iff, takeFolded_eq_some,
    takeDot_eq_some]
  constructor
  · rintro ⟨_, ⟨s, hs, htail⟩, afterDot, ⟨language, hlanguage, rfl⟩, below, hdot, hmark⟩
    obtain ⟨last, hlast, heq⟩ := exists_isOptional ['x'] t
    obtain ⟨variant, hvariant, heq'⟩ := exists_isOptional ['c', 'm'] afterDot
    refine ⟨_, below, .parts hvariant hlanguage hs hlast, ?_, ?_⟩
    · rw [heq, htail, heq', hdot]
      simp [hlast.reverse, hvariant.reverse]
    · split at hmark
      · next shorter hshorter =>
        obtain rfl := Option.some.inj hmark
        obtain ⟨d, hd, rfl⟩ := takeMark_eq_some.1 hshorter
        exact .taken hd rfl
      · next hnone =>
        obtain rfl := Option.some.inj hmark
        refine .none fun d rest hd heq => ?_
        rw [takeMark_eq_some.2 ⟨d, hd, heq⟩] at hnone
        simp at hnone
  · rintro ⟨_, below, @⟨variant, last, language, s, hvariant, hlanguage, hs, hlast⟩, rfl, hmark⟩
    have first : takeFoldedOptional ['x'] (last ++ s :: language :: (variant ++ '.' :: below)) =
        s :: language :: (variant ++ '.' :: below) :=
      takeFoldedOptional_append hlast (foldsInto_eq_false hs (by simp)) _
    have second : takeFoldedOptional ['c', 'm'] (variant ++ '.' :: below) = '.' :: below :=
      takeFoldedOptional_append hvariant (by decide) below
    refine ⟨language :: (variant ++ '.' :: below), ⟨s, hs, ?_⟩, _, ⟨language, hlanguage, rfl⟩,
      below, second, ?_⟩
    · rw [← first]
      simp [hlast.reverse, hvariant.reverse]
    · cases hmark with
      | taken hd heq => rw [takeMark_eq_some.2 ⟨_, hd, heq⟩]
      | none h =>
          split
          · next shorter hshorter =>
            obtain ⟨d, hd, heq⟩ := takeMark_eq_some.1 hshorter
            exact absurd heq (h d shorter hd)
          · rfl

theorem IsOptional.not_mem (h : IsOptional letters t) (hc : Text.foldsInto letters c = false) : c ∉ t := by
  cases h with
  | none => exact List.not_mem_nil
  | one h =>
      rw [List.mem_singleton]
      rintro rfl
      rw [h] at hc
      exact absurd hc (by decide)

theorem IsScript.exists_dot (h : IsScript ext) : ∃ more, ext = '.' :: more ∧ '.' ∉ more := by
  obtain @⟨variant, last, language, s, hvariant, hlanguage, hs, hlast⟩ := h
  have other {letters : List Char} {c : Char} (h : Text.foldsInto letters c = true)
      (hdot : Text.foldsInto letters '.' = false) : '.' ≠ c := by
    rintro rfl
    rw [h] at hdot
    exact absurd hdot (by decide)
  refine ⟨_, rfl, ?_⟩
  simp [hvariant.not_mem (c := '.') (by decide), other hlanguage (by decide), other hs (by decide),
    hlast.not_mem (c := '.') (by decide)]

theorem IsScript.unique {front behind other : Text} (h : IsScript ext) (hother : IsScript other)
    (heq : front ++ ext = behind ++ other) : front = behind ∧ ext = other := by
  obtain ⟨more, rfl, hmore⟩ := h.exists_dot
  obtain ⟨more', rfl, hmore'⟩ := hother.exists_dot
  have pieces := congrArg (Text.pieces '.') heq
  rw [Text.pieces_append_cons, Text.pieces_append_cons, Text.pieces_of_not_mem hmore,
    Text.pieces_of_not_mem hmore', List.append_singleton_inj] at pieces
  obtain ⟨-, rfl⟩ := pieces
  exact ⟨List.append_cancel_right heq, rfl⟩

theorem exists_unmarked (t : Text) : ∃ rest, Unmarked t rest := by
  by_cases h : ∃ d rest, Text.foldsInto ['d'] d = true ∧ t = d :: '.' :: rest
  · obtain ⟨d, rest, hd, heq⟩ := h
    exact ⟨rest, .taken hd heq⟩
  · exact ⟨t, .none fun d rest hd heq => h ⟨d, rest, hd, heq⟩⟩

theorem withoutExtension_stripExtension (name : Text) : WithoutExtension name (stripExtension name) := by
  cases h : dropScriptReversed name.reverse with
  | none =>
      rw [stripExtension, h]
      refine .none fun bare ext hext heq => ?_
      obtain @⟨mark, script, _, hscript⟩ := hext
      obtain ⟨rest, hrest⟩ := exists_unmarked (bare ++ mark).reverse
      rw [dropScriptReversed_eq_some.2 ⟨script, _, hscript, by simp [heq], hrest⟩] at h
      simp at h
  | some rest =>
      obtain ⟨script, below, hscript, heq, hrest⟩ := dropScriptReversed_eq_some.1 h
      have whole : name = below.reverse ++ script := by
        rw [← List.reverse_inj, heq]
        simp
      -- Whatever extension the name ends with, it is a mark in front of this one.
      have marked {shorter other : Text} (hother : IsExtension other) (hname : name = shorter ++ other) :
          ∃ mark, IsMark mark ∧ below.reverse = shorter ++ mark ∧ other = mark ++ script := by
        obtain @⟨mark, script', hmark, hscript'⟩ := hother
        rw [← List.append_assoc] at hname
        obtain ⟨hfront, rfl⟩ := hscript.unique hscript' (whole.symm.trans hname)
        exact ⟨mark, hmark, hfront, rfl⟩
      rw [stripExtension, h]
      cases hrest with
      | @taken d rest hd hbelow =>
          refine .taken (.marked (.declaration hd) hscript) (by simp [whole, hbelow]) ?_
          intro shorter other hother hname
          obtain ⟨mark, hmark, -, rfl⟩ := marked hother hname
          have short : mark.length ≤ 2 := by cases hmark <;> simp
          rw [List.length_append, List.length_append]
          exact Nat.add_le_add_right short _
      | none hnone =>
          refine .taken (.marked .none hscript) whole fun shorter other hother hname => ?_
          obtain ⟨mark, hmark, hfront, rfl⟩ := marked hother hname
          cases hmark with
          | none => exact Nat.le_refl _
          | @declaration d hd =>
              rw [← List.reverse_inj, List.reverse_reverse, List.reverse_append] at hfront
              exact absurd hfront (hnone d shorter.reverse hd)

theorem WithoutExtension.unique {other : Text} (h : WithoutExtension name bare)
    (hother : WithoutExtension name other) : bare = other := by
  cases h with
  | @taken _ ext hext heq longest =>
      cases hother with
      | taken hext' heq' longest' =>
          have lengths := Nat.le_antisymm (longest' _ _ hext heq) (longest _ _ hext' heq')
          exact (List.append_inj' (heq.symm.trans heq') lengths).1
      | none h => exact absurd heq (h _ _ hext)
  | none h =>
      cases hother with
      | taken hext' heq' => exact absurd heq' (h _ _ hext')
      | none => rfl

theorem withoutExtension_iff : WithoutExtension name bare ↔ stripExtension name = bare :=
  ⟨fun h => (withoutExtension_stripExtension name).unique h,
    fun h => h ▸ withoutExtension_stripExtension name⟩

theorem withoutIndex_iff {path stem : Text} : WithoutIndex path stem ↔ stripIndex path = stem := by
  constructor
  · intro h
    cases h with
    | taken heq => rw [stripIndex, Text.stripTail?_eq_some.2 heq, Option.getD_some]
    | none h =>
        cases hstrip : Text.stripTail? "/index".toList path with
        | none => rw [stripIndex, hstrip, Option.getD_none]
        | some directory => exact absurd (Text.stripTail?_eq_some.1 hstrip) (h directory)
  · rintro rfl
    cases hstrip : Text.stripTail? "/index".toList path with
    | none =>
        rw [stripIndex, hstrip, Option.getD_none]
        refine .none fun directory heq => ?_
        rw [Text.stripTail?_eq_some.2 heq] at hstrip
        simp at hstrip
    | some directory =>
        rw [stripIndex, hstrip, Option.getD_some]
        exact .taken (Text.stripTail?_eq_some.1 hstrip)

end TidyImports.Path
