import TidyImports.Script.Scanner

/-! Texts that stand for themselves between quotes. They hold neither the quote nor a line break nor a
backslash, and no other text does: an escape is longer than what it stands for, and a surrogate that
stands alone adds a mark that the text does not have. -/
namespace TidyImports.Script

/-- A text that may stand between two quotes as it is. -/
structure IsPlain (quote : Char) (t : Text) : Prop where
  unquoted : quote ∉ t
  unescaped : '\\' ∉ t
  unbroken : '\n' ∉ t ∧ '\r' ∉ t

instance (quote : Char) (t : Text) : Decidable (IsPlain quote t) :=
  decidable_of_iff (quote ∉ t ∧ '\\' ∉ t ∧ '\n' ∉ t ∧ '\r' ∉ t)
    ⟨fun ⟨unquoted, unescaped, unbroken⟩ => ⟨unquoted, unescaped, unbroken⟩,
      fun h => ⟨h.unquoted, h.unescaped, h.unbroken⟩⟩

variable {quote c : Char} {t : Text} {octalAllowed : Bool} {state next : EscapeState}
  {units : List Nat}

theorem stringBody?_cons (hc : c ≠ '\\') (t : Text) :
    stringBody? quote (c :: t) =
      if c = quote then some ([], t)
      else if c = '\n' ∨ c = '\r' then none
      else (stringBody? quote t).map fun (body, rest) => (c :: body, rest) := by
  rw [stringBody?.eq_def]
  split <;> simp_all

theorem IsPlain.of_subset {s : Text} (h : IsPlain quote t) (hs : s ⊆ t) : IsPlain quote s where
  unquoted := fun hc => h.unquoted (hs hc)
  unescaped := fun hc => h.unescaped (hs hc)
  unbroken := ⟨fun hc => h.unbroken.1 (hs hc), fun hc => h.unbroken.2 (hs hc)⟩

theorem IsPlain.append {s : Text} (hs : IsPlain quote s) (ht : IsPlain quote t) :
    IsPlain quote (s ++ t) where
  unquoted := by simp [hs.unquoted, ht.unquoted]
  unescaped := by simp [hs.unescaped, ht.unescaped]
  unbroken := by simp [hs.unbroken, ht.unbroken]

theorem isPlain_cons : IsPlain quote (c :: t) ↔
    (quote ≠ c ∧ c ≠ '\\' ∧ c ≠ '\n' ∧ c ≠ '\r') ∧ IsPlain quote t := by
  constructor
  · rintro ⟨unquoted, unescaped, lineFeed, carriageReturn⟩
    simp only [List.mem_cons, not_or] at unquoted unescaped lineFeed carriageReturn
    exact ⟨⟨unquoted.1, Ne.symm unescaped.1, Ne.symm lineFeed.1, Ne.symm carriageReturn.1⟩,
      unquoted.2, unescaped.2, lineFeed.2, carriageReturn.2⟩
  · rintro ⟨⟨unquoted, unescaped, lineFeed, carriageReturn⟩, h⟩
    have more {d : Char} (hd : d ≠ c) (ht : d ∉ t) : d ∉ c :: t :=
      List.not_mem_cons_of_ne_of_not_mem hd ht
    exact ⟨more unquoted h.unquoted, more (Ne.symm unescaped) h.unescaped,
      more (Ne.symm lineFeed) h.unbroken.1, more (Ne.symm carriageReturn) h.unbroken.2⟩

theorem stringBody?_whole_iff (hquote : quote ≠ '\\') (h : '\\' ∉ t) (rest : Text) :
    stringBody? quote (t ++ quote :: rest) = some (t, rest) ↔ IsPlain quote t := by
  induction t with
  | nil =>
      have empty : IsPlain quote [] := ⟨by simp, by simp, by simp⟩
      simp [stringBody?_cons hquote, empty]
  | cons c t ih =>
      simp only [List.mem_cons, not_or] at h
      rw [isPlain_cons, ← ih h.2, List.cons_append, stringBody?_cons (Ne.symm h.1)]
      by_cases hq : c = quote
      · simp [hq]
      by_cases hbreak : c = '\n' ∨ c = '\r'
      · rw [if_neg hq, if_pos hbreak]
        constructor
        · simp
        · rintro ⟨⟨_, _, lineFeed, carriageReturn⟩, _⟩
          exact (hbreak.elim lineFeed carriageReturn).elim
      · rw [if_neg hq, if_neg hbreak]
        simp only [not_or] at hbreak
        cases hbody : stringBody? quote (t ++ quote :: rest) with
        | none => simp
        | some found => simp [hbreak, Ne.symm hq, Ne.symm h.1, Prod.ext_iff]

theorem decodeFrom_cons (octalAllowed : Bool) (state : EscapeState) (c : Char) (t : Text) :
    decodeFrom octalAllowed state (c :: t) =
      match escapeStep octalAllowed state c with
      | none => none
      | some (next, units) => (decodeFrom octalAllowed next t).map (units ++ ·) := by
  cases state <;> rfl

theorem decodeFrom_cons_eq_some (h : decodeFrom octalAllowed state (c :: t) = some units) :
    ∃ next first rest, escapeStep octalAllowed state c = some (next, first) ∧
      decodeFrom octalAllowed next t = some rest ∧ units = first ++ rest := by
  rw [decodeFrom_cons] at h
  split at h
  · cases h
  · next next first hstep =>
    obtain ⟨rest, hrest, rfl⟩ := Option.map_eq_some_iff.1 h
    exact ⟨next, first, rest, hstep, hrest, rfl⟩

/-- The number of units that a state still owes: only an octal escape is written when it ends. -/
def EscapeState.owed : EscapeState → Nat
  | .octal _ _ => 1
  | _ => 0

theorem plainStep_length (c : Char) :
    (plainStep c).2.length + (plainStep c).1.owed ≤ 1 := by
  unfold plainStep
  split <;> simp [EscapeState.owed]

theorem startStep_length (h : startStep octalAllowed c = some (next, units)) :
    units.length + next.owed ≤ 1 := by
  unfold startStep at h
  grind [EscapeState.owed]

theorem escapeStep_length (h : escapeStep octalAllowed state c = some (next, units)) :
    units.length + next.owed ≤ 1 + state.owed := by
  have plain := plainStep_length c
  cases state with
  | plain =>
      simp only [escapeStep, Option.some.injEq] at h
      rwa [h] at plain
  | started => exact startStep_length h
  | unicode =>
      simp only [escapeStep] at h
      split at h
      · cases h
        simp [EscapeState.owed]
      · obtain ⟨digit, _, h⟩ := Option.map_eq_some_iff.1 h
        cases h
        simp [EscapeState.owed]
  | continued => grind [escapeStep, EscapeState.owed]
  | hex left value => grind [escapeStep, EscapeState.owed]
  | braced digits value => grind [escapeStep, EscapeState.owed]
  | octal left value => grind [escapeStep, EscapeState.owed]

theorem decodeFrom_length (h : decodeFrom octalAllowed state t = some units) :
    units.length ≤ t.length + state.owed := by
  induction t generalizing state units with
  | nil =>
      cases state with
      | plain | continued | octal =>
          cases h
          simp [EscapeState.owed]
      | started | hex | unicode | braced => cases h
  | cons c t ih =>
      obtain ⟨next, first, rest, hstep, hrest, rfl⟩ := decodeFrom_cons_eq_some h
      have step := escapeStep_length hstep
      have behind := ih hrest
      simp only [List.length_append, List.length_cons]
      omega

theorem decodeFrom_length_lt (h : decodeFrom octalAllowed .plain t = some units) (ht : '\\' ∈ t) :
    units.length < t.length := by
  induction t generalizing units with
  | nil => simp at ht
  | cons c t ih =>
      obtain ⟨next, first, rest, hstep, hrest, rfl⟩ := decodeFrom_cons_eq_some h
      simp only [escapeStep, plainStep, Option.some.injEq] at hstep
      by_cases hc : c = '\\'
      · simp only [hc, if_true, Prod.mk.injEq] at hstep
        obtain ⟨rfl, rfl⟩ := hstep
        have behind := decodeFrom_length hrest
        simp only [EscapeState.owed] at behind
        simp only [List.nil_append, List.length_cons]
        omega
      · simp only [hc, if_false, Prod.mk.injEq] at hstep
        obtain ⟨rfl, rfl⟩ := hstep
        have behind := ih hrest ((List.mem_cons.1 ht).resolve_left (Ne.symm hc))
        simpa using behind

theorem decodeFrom_plain (octalAllowed : Bool) (h : '\\' ∉ t) :
    decodeFrom octalAllowed .plain t = some (t.map Char.toNat) := by
  induction t with
  | nil => rfl
  | cons c t ih =>
      simp only [List.mem_cons, not_or] at h
      rw [decodeFrom_cons]
      simp only [escapeStep, plainStep, if_neg (Ne.symm h.1), ih h.2]
      rfl

theorem escapeStep_replacement (h : escapeStep octalAllowed state '\uFFFD' = some (next, units)) :
    0xFFFD ∈ units := by
  cases state with
  | plain | started | continued =>
      cases h
      decide
  | octal left value =>
      have noDigit : ¬ (0 < left ∧ '0' ≤ '\uFFFD' ∧ '\uFFFD' ≤ '7') := fun hdigit =>
        absurd hdigit.2.2 (by decide)
      have noDecimal : ¬ (left = 0 ∧ !octalAllowed ∧ '\uFFFD'.isDigit) := fun hdigit =>
        absurd hdigit.2.2 (by decide)
      rw [escapeStep, if_neg noDigit, if_neg noDecimal] at h
      cases h
      exact List.mem_cons_of_mem _ (by decide)
  | hex | unicode | braced => cases h

theorem decodeFrom_count (h : decodeFrom octalAllowed state t = some units) :
    t.count '\uFFFD' ≤ units.count 0xFFFD := by
  induction t generalizing state units with
  | nil => simp
  | cons c t ih =>
      obtain ⟨next, first, rest, hstep, hrest, rfl⟩ := decodeFrom_cons_eq_some h
      have behind := ih hrest
      rw [List.count_append]
      by_cases hc : c = '\uFFFD'
      · subst hc
        have here := List.count_pos_iff.2 (escapeStep_replacement hstep)
        rw [List.count_cons_self]
        omega
      · rw [List.count_cons_of_ne hc]
        omega

def unitText (unit : Nat) : Text :=
  if Json.isHighSurrogate unit || Json.isLowSurrogate unit || unit = 0xFFFD then loneText unit
  else [Char.ofNat unit]

theorem count_le_unitText (unit : Nat) :
    [unit].count 0xFFFD ≤ (unitText unit).count '\uFFFD' := by
  by_cases h : unit = 0xFFFD
  · subst h
    decide
  · rw [List.count_singleton, if_neg (by simpa using h)]
    exact Nat.zero_le _

theorem not_replacement_of_surrogate {unit : Nat}
    (h : Json.isHighSurrogate unit = true ∨ Json.isLowSurrogate unit = true) : unit ≠ 0xFFFD := by
  rintro rfl
  exact absurd h (by decide)

theorem count_lt_unitText {unit : Nat}
    (h : Json.isHighSurrogate unit = true ∨ Json.isLowSurrogate unit = true) :
    [unit].count 0xFFFD < (unitText unit).count '\uFFFD' := by
  have other := not_replacement_of_surrogate h
  have lone : (Json.isHighSurrogate unit || Json.isLowSurrogate unit || unit = 0xFFFD) = true := by
    rw [← Bool.or_eq_true] at h
    simp [h]
  rw [List.count_singleton, if_neg (by simpa using other), unitText, if_pos lone, loneText,
    List.count_cons_self]
  exact Nat.succ_pos _

theorem looseText_cons_cons (unit next : Nat) (units : List Nat) :
    looseText (unit :: next :: units) =
      if Json.isHighSurrogate unit && Json.isLowSurrogate next then
        Json.pairChar unit next :: looseText units
      else unitText unit ++ looseText (next :: units) := rfl

theorem count_pair {unit next : Nat} (high : Json.isHighSurrogate unit = true)
    (low : Json.isLowSurrogate next = true) (units : List Nat) :
    (unit :: next :: units).count 0xFFFD = units.count 0xFFFD := by
  rw [List.count_cons_of_ne (not_replacement_of_surrogate (.inl high)),
    List.count_cons_of_ne (not_replacement_of_surrogate (.inr low))]

theorem count_apart (unit : Nat) (units : List Nat) (t : Text) :
    (unit :: units).count 0xFFFD = [unit].count 0xFFFD + units.count 0xFFFD ∧
      (unitText unit ++ t).count '\uFFFD' = (unitText unit).count '\uFFFD' + t.count '\uFFFD' :=
  ⟨by rw [← List.singleton_append, List.count_append], List.count_append⟩

theorem looseText_count_le (units : List Nat) :
    units.count 0xFFFD ≤ (looseText units).count '\uFFFD' := by
  induction units using looseText.induct with
  | case1 => simp
  | case2 unit | case3 unit => exact count_le_unitText unit
  | case4 unit next units pair ih =>
      obtain ⟨high, low⟩ := Bool.and_eq_true_iff.1 pair
      rw [looseText_cons_cons, if_pos pair, count_pair high low]
      exact Nat.le_trans ih List.count_le_count_cons
  | case5 unit next units pair ih =>
      have here := count_le_unitText unit
      obtain ⟨first, second⟩ := count_apart unit (next :: units) (looseText (next :: units))
      rw [looseText_cons_cons, if_neg pair]
      omega

theorem looseText_count_lt (h : Json.textOfUnits units = none) :
    units.count 0xFFFD < (looseText units).count '\uFFFD' := by
  induction units using Json.textOfUnits.induct with
  | case1 => cases h
  | case2 unit lone => exact count_lt_unitText (Bool.or_eq_true_iff.1 lone)
  | case3 unit whole => simp [Json.textOfUnits, whole] at h
  | case4 unit next units high low ih =>
      rw [Json.textOfUnits, if_pos high, if_pos low, Option.map_eq_none_iff] at h
      rw [looseText_cons_cons, if_pos (by simp [high, low]), count_pair high low]
      exact Nat.lt_of_lt_of_le (ih h) List.count_le_count_cons
  | case5 unit next units high low =>
      have here := @count_lt_unitText unit (.inl high)
      have behind := looseText_count_le (next :: units)
      obtain ⟨first, second⟩ := count_apart unit (next :: units) (looseText (next :: units))
      rw [looseText_cons_cons, if_neg (by simp [low])]
      omega
  | case6 unit next units high low =>
      have here := @count_lt_unitText unit (.inr low)
      have behind := looseText_count_le (next :: units)
      obtain ⟨first, second⟩ := count_apart unit (next :: units) (looseText (next :: units))
      rw [looseText_cons_cons, if_neg (by simp [high])]
      omega
  | case7 unit next units high low ih =>
      rw [Json.textOfUnits, if_neg high, if_neg low, Option.map_eq_none_iff] at h
      have here := count_le_unitText unit
      have behind := ih h
      obtain ⟨first, second⟩ := count_apart unit (next :: units) (looseText (next :: units))
      rw [looseText_cons_cons, if_neg (by simp [high])]
      omega

theorem textOfUnits_length (h : Json.textOfUnits units = some t) : t.length ≤ units.length := by
  induction units using Json.textOfUnits.induct generalizing t with
  | case1 =>
      cases h
      exact Nat.le_refl _
  | case2 unit lone => simp [Json.textOfUnits, lone] at h
  | case3 unit whole =>
      rw [Json.textOfUnits, if_neg whole] at h
      cases h
      exact Nat.le_refl _
  | case4 unit next units high low ih =>
      rw [Json.textOfUnits, if_pos high, if_pos low] at h
      obtain ⟨rest, hrest, rfl⟩ := Option.map_eq_some_iff.1 h
      have behind := ih hrest
      simp only [List.length_cons]
      omega
  | case5 unit next units high low => simp [Json.textOfUnits, high, low] at h
  | case6 unit next units high low => simp [Json.textOfUnits, high, low] at h
  | case7 unit next units high low ih =>
      rw [Json.textOfUnits, if_neg high, if_neg low] at h
      obtain ⟨rest, hrest, rfl⟩ := Option.map_eq_some_iff.1 h
      have behind := ih hrest
      simp only [List.length_cons] at behind ⊢
      omega

theorem not_surrogate_toNat (c : Char) :
    Json.isHighSurrogate c.toNat = false ∧ Json.isLowSurrogate c.toNat = false := by
  have valid : c.toNat.isValidChar := c.valid
  simp only [Nat.isValidChar] at valid
  simp only [Json.isHighSurrogate, Json.isLowSurrogate, Bool.and_eq_false_iff, decide_eq_false_iff_not]
  omega

theorem textOfUnits_toNat (t : Text) : Json.textOfUnits (t.map Char.toNat) = some t := by
  induction t with
  | nil => rfl
  | cons c t ih =>
      obtain ⟨high, low⟩ := not_surrogate_toNat c
      cases t with
      | nil => simp [Json.textOfUnits, high, low, Char.ofNat_toNat]
      | cons d t =>
          rw [List.map_cons] at ih
          simp [Json.textOfUnits, high, low, ih, Char.ofNat_toNat]

theorem stringValue?_eq_self_iff : stringValue? t = some t ↔ '\\' ∉ t := by
  constructor
  · intro h escaped
    obtain ⟨units, hunits, htext⟩ := Option.map_eq_some_iff.1 h
    cases hwhole : Json.textOfUnits units with
    | some text =>
        have same : text = t := by simpa [hwhole] using htext
        have shorter := decodeFrom_length_lt hunits escaped
        have kept := textOfUnits_length hwhole
        rw [same] at kept
        omega
    | none =>
        have same : looseText units = t := by simpa [hwhole] using htext
        have more := looseText_count_lt hwhole
        have kept := decodeFrom_count hunits
        rw [same] at more
        omega
  · intro h
    rw [stringValue?, decodeFrom_plain true h, Option.map_some, textOfUnits_toNat, Option.getD_some]

theorem scanToken?_string_iff (hquote : quote = '"' ∨ quote = '\'') {value rest : Text} :
    scanToken? (quote :: t) = some (.string value, rest) ↔
      ∃ body, stringBody? quote t = some (body, rest) ∧ stringValue? body = some value := by
  have starts : (Text.isIdentifierStart quote || quote == '\\') = false := by
    rcases hquote with rfl | rfl <;> decide
  unfold scanToken?
  simp only [starts, if_pos hquote, Bool.false_eq_true, if_false]
  split
  · next body behind hbody =>
    rw [hbody, Option.map_eq_some_iff]
    constructor
    · rintro ⟨decoded, hvalue, heq⟩
      simp only [Prod.mk.injEq, Token.string.injEq] at heq
      exact ⟨body, by rw [heq.2], by rw [hvalue, heq.1]⟩
    · rintro ⟨_, heq, hvalue⟩
      obtain ⟨rfl, rfl⟩ := Prod.mk.inj (Option.some.inj heq)
      exact ⟨value, hvalue, rfl⟩
  · next hbody => simp [hbody]

/-- A text between quotes is one string literal with that text as its value exactly if the text is
plain. -/
theorem scanToken?_literal_iff (hquote : quote = '"' ∨ quote = '\'') (rest : Text) :
    scanToken? (quote :: t ++ quote :: rest) = some (.string t, rest) ↔ IsPlain quote t := by
  have notEscape : quote ≠ '\\' := by rcases hquote with rfl | rfl <;> decide
  rw [List.cons_append, scanToken?_string_iff hquote]
  constructor
  · rintro ⟨body, hbody, hvalue⟩
    have same : t = body := List.append_cancel_right (stringBody?_eq_some hbody)
    subst same
    exact (stringBody?_whole_iff notEscape (stringValue?_eq_self_iff.1 hvalue) rest).1 hbody
  · intro h
    exact ⟨t, (stringBody?_whole_iff notEscape h.unescaped rest).2 h,
      stringValue?_eq_self_iff.2 h.unescaped⟩

end TidyImports.Script
