import TidyImports.Script.Token
import TidyImports.Text.Offset

/-! Scanners. A scanner finds the token at the start of a text and cuts it off: what it leaves is an
end of the text, a word starts like an identifier, and a string stands between two quotes. Gaps are
skipped in the same way. -/
namespace TidyImports.Script

theorem skipGap_restAt {text t : Text} {state : GapState} {offset : Nat} {lineBreak : Bool}
    {comments : List Edit.Span} {gap : Gap}
    (h : skipGap state offset lineBreak comments t = some gap) (place : text.RestAt offset t) :
    text.RestAt gap.offset gap.rest ∧ offset ≤ gap.offset := by
  fun_induction skipGap state offset lineBreak comments t with
  | case1 =>
    simp only [Option.some.injEq] at h
    exact h ▸ ⟨place, Nat.le_refl _⟩
  | case2 =>
    simp only [Option.some.injEq] at h
    exact h ▸ ⟨place, Nat.le_refl _⟩
  | case3 => simp at h
  | case4 _ _ _ _ ih =>
    obtain ⟨hr, ho⟩ := ih h place.tail.tail
    exact ⟨hr, by omega⟩
  | case5 _ _ _ _ ih =>
    obtain ⟨hr, ho⟩ := ih h place.tail.tail
    exact ⟨hr, by omega⟩
  | case6 _ _ _ _ _ _ _ _ ih =>
    obtain ⟨hr, ho⟩ := ih h place.tail
    exact ⟨hr, by omega⟩
  | case7 _ _ _ _ _ _ _ _ _ ih =>
    obtain ⟨hr, ho⟩ := ih h place.tail
    exact ⟨hr, by omega⟩
  | case8 =>
    simp only [Option.some.injEq] at h
    exact h ▸ ⟨place, Nat.le_refl _⟩
  | case9 _ _ _ _ _ _ _ ih =>
    obtain ⟨hr, ho⟩ := ih h place.tail
    exact ⟨hr, by omega⟩
  | case10 _ _ _ _ _ _ _ ih =>
    obtain ⟨hr, ho⟩ := ih h place.tail
    exact ⟨hr, by omega⟩
  | case11 _ _ _ _ _ c _ hc ih =>
    obtain ⟨_, rfl⟩ := by simpa using hc
    obtain ⟨hr, ho⟩ := ih h place.tail
    exact ⟨hr, by omega⟩
  | case12 _ _ _ _ _ _ _ _ ih =>
    obtain ⟨hr, ho⟩ := ih h place.tail
    exact ⟨hr, by omega⟩

def GapState.since (state : GapState) (offset : Nat) : Nat :=
  match state with
  | .blank => offset
  | .lineComment start => start
  | .blockComment start _ => start

/-- Further comments in front of others, which stand between two offsets. -/
def AddsComments (since stop : Nat) (comments all : List Edit.Span) : Prop :=
  ∃ new, all = new ++ comments ∧ ∀ s ∈ new, since ≤ s.start ∧ s.start < s.stop ∧ s.stop ≤ stop

namespace AddsComments

variable {since middle start stop stop' : Nat} {comments all : List Edit.Span}

theorem none (since stop : Nat) (comments : List Edit.Span) : AddsComments since stop comments comments :=
  ⟨[], rfl, by simp⟩

theorem since_le (h : AddsComments middle stop comments all) (hle : since ≤ middle) :
    AddsComments since stop comments all := by
  obtain ⟨new, heq, hnew⟩ := h
  exact ⟨new, heq, fun s hs => ⟨Nat.le_trans hle (hnew s hs).1, (hnew s hs).2⟩⟩

theorem added (h : AddsComments middle stop (Edit.Span.ofBounds start stop' :: comments) all)
    (inhabited : start < stop') (before : stop' ≤ middle) (hle : middle ≤ stop) :
    AddsComments start stop comments all := by
  obtain ⟨new, rfl, hnew⟩ := h
  refine ⟨new ++ [Edit.Span.ofBounds start stop'], by simp,
    List.forall_mem_append.2 ⟨fun s hs => ?_, ?_⟩⟩
  · have inside := hnew s hs
    omega
  · rw [List.forall_mem_singleton, Edit.Span.start_ofBounds, Edit.Span.stop_ofBounds]
    omega

end AddsComments

theorem skipGap_comments {t : Text} {state : GapState} {offset : Nat} {lineBreak : Bool}
    {comments : List Edit.Span} {gap : Gap}
    (h : skipGap state offset lineBreak comments t = some gap)
    (opened : state = .blank ∨ state.since offset < offset) :
    offset ≤ gap.offset ∧ AddsComments (state.since offset) gap.offset comments gap.comments := by
  -- A step that ends a comment adds it; the comments that are passed later start behind it.
  fun_induction skipGap state offset lineBreak comments t with
  | case1 | case8 =>
    cases h
    exact ⟨Nat.le_refl _, .none _ _ _⟩
  | case2 start offset lineBreak comments =>
    cases h
    simp only [GapState.since, reduceCtorEq, false_or] at opened
    exact ⟨Nat.le_refl _, .added (.none offset offset _) opened (Nat.le_refl _) (Nat.le_refl _)⟩
  | case3 => cases h
  | case4 offset _ _ _ ih | case5 offset _ _ _ ih =>
    obtain ⟨hle, later⟩ := ih h (.inr (by simp [GapState.since]))
    exact ⟨by omega, later⟩
  | case6 _ _ _ _ _ _ _ _ ih | case7 _ _ _ _ _ _ _ _ _ ih =>
    obtain ⟨hle, later⟩ := ih h (.inl rfl)
    exact ⟨by omega, later.since_le (Nat.le_add_right _ _)⟩
  | case9 start offset _ _ c _ _ ih =>
    simp only [GapState.since, reduceCtorEq, false_or] at opened
    obtain ⟨hle, later⟩ := ih h (.inl rfl)
    exact ⟨by omega, later.added (by omega) (Nat.le_add_right _ _) hle⟩
  | case11 start star offset _ _ c _ _ ih =>
    simp only [GapState.since, reduceCtorEq, false_or] at opened
    obtain ⟨hle, later⟩ := ih h (.inl rfl)
    exact ⟨by omega, later.added (by omega) (Nat.le_refl _) hle⟩
  | case10 start offset _ _ c _ _ ih | case12 start star offset _ _ c _ _ ih =>
    simp only [GapState.since, reduceCtorEq, false_or] at opened
    obtain ⟨hle, later⟩ := ih h (.inr (by simp only [GapState.since]; omega))
    exact ⟨by omega, later⟩

theorem codeUnit?_suffix {t rest : Text} {unit : Nat} (h : Json.codeUnit? t = some (unit, rest)) :
    rest <:+ t := by
  unfold Json.codeUnit? at h
  split at h
  · next a b c d t =>
    simp only [Option.bind_eq_bind, Option.bind_eq_some_iff, Option.some.injEq, Prod.mk.injEq] at h
    obtain ⟨_, _, _, _, _, _, _, _, _, rfl⟩ := h
    exact ⟨[a, b, c, d], rfl⟩
  · simp at h

theorem stringBody?_eq_some {quote : Char} {t body rest : Text}
    (h : stringBody? quote t = some (body, rest)) : t = body ++ quote :: rest := by
  fun_induction stringBody? quote t generalizing body with
  | case1 => simp at h
  | case2 t ih =>
    obtain ⟨⟨b, r⟩, hb, he⟩ := Option.map_eq_some_iff.1 h
    simp only [Prod.mk.injEq] at he
    obtain ⟨rfl, rfl⟩ := he
    rw [ih hb]
    rfl
  | case3 c t _ ih =>
    obtain ⟨⟨b, r⟩, hb, he⟩ := Option.map_eq_some_iff.1 h
    simp only [Prod.mk.injEq] at he
    obtain ⟨rfl, rfl⟩ := he
    rw [ih hb]
    rfl
  | case4 t =>
    simp only [Option.some.injEq, Prod.mk.injEq] at h
    obtain ⟨rfl, rfl⟩ := h
    rfl
  | case5 => simp at h
  | case6 c t _ _ _ _ ih =>
    obtain ⟨⟨b, r⟩, hb, he⟩ := Option.map_eq_some_iff.1 h
    simp only [Prod.mk.injEq] at he
    obtain ⟨rfl, rfl⟩ := he
    rw [ih hb]
    rfl

theorem templatePiece?_suffix {t body rest : Text} {closed : Bool}
    (h : templatePiece? t = some (body, closed, rest)) : rest <:+ t := by
  fun_induction templatePiece? t generalizing body closed with
  | case1 => simp at h
  | case2 c t ih =>
    obtain ⟨⟨b, d, r⟩, hb, he⟩ := Option.map_eq_some_iff.1 h
    simp only [Prod.mk.injEq] at he
    obtain ⟨_, _, rfl⟩ := he
    exact (ih hb).trans ⟨['\\', c], rfl⟩
  | case3 t =>
    simp only [Option.some.injEq, Prod.mk.injEq] at h
    obtain ⟨_, _, rfl⟩ := h
    exact ⟨['$', '\x7b'], rfl⟩
  | case4 c t _ _ _ =>
    simp only [Option.some.injEq, Prod.mk.injEq] at h
    obtain ⟨_, _, rfl⟩ := h
    exact List.suffix_cons c t
  | case5 c t _ _ _ ih =>
    obtain ⟨⟨b, d, r⟩, hb, he⟩ := Option.map_eq_some_iff.1 h
    simp only [Prod.mk.injEq] at he
    obtain ⟨_, _, rfl⟩ := he
    exact (ih hb).trans (List.suffix_cons c t)

theorem regexBody?_suffix {inClass : Bool} {t body rest : Text}
    (h : regexBody? inClass t = some (body, rest)) : rest <:+ t := by
  fun_induction regexBody? inClass t generalizing body with
  | case1 => simp at h
  | case2 => simp at h
  | case3 _ c t _ ih =>
    obtain ⟨⟨b, r⟩, hb, he⟩ := Option.map_eq_some_iff.1 h
    simp only [Prod.mk.injEq] at he
    obtain ⟨_, rfl⟩ := he
    exact (ih hb).trans ⟨['\\', c], rfl⟩
  | case4 => simp at h
  | case5 _ c t _ _ _ =>
    simp only [Option.some.injEq, Prod.mk.injEq] at h
    obtain ⟨_, rfl⟩ := h
    exact List.suffix_cons c t
  | case6 _ c t _ _ _ _ =>
    next ih =>
    obtain ⟨⟨b, r⟩, hb, he⟩ := Option.map_eq_some_iff.1 h
    simp only [Prod.mk.injEq] at he
    obtain ⟨_, rfl⟩ := he
    exact (ih hb).trans (List.suffix_cons c t)

theorem separatedDigits?_suffix {isDigit : Char → Bool} {t rest : Text}
    (h : separatedDigits? isDigit t = some rest) : rest <:+ t := by
  simp only [separatedDigits?, Option.ite_none_right_eq_some, Option.some.injEq] at h
  exact h.2 ▸ List.dropWhile_suffix _

theorem afterExponent?_suffix {t rest : Text} (h : afterExponent? t = some rest) : rest <:+ t := by
  unfold afterExponent? at h
  split at h
  · simp_all
  · next c t =>
    split at h
    · split at h
      · simp at h
      · next s u =>
        split at h
        · exact (separatedDigits?_suffix h).trans ⟨[c, s], rfl⟩
        · exact (separatedDigits?_suffix h).trans (List.suffix_cons c _)
    · simp only [Option.some.injEq] at h
      exact h ▸ List.suffix_rfl

theorem afterFraction?_suffix {t rest : Text} (h : afterFraction? t = some rest) : rest <:+ t := by
  unfold afterFraction? at h
  split at h
  · next c t =>
    split at h
    · obtain ⟨u, hu, hr⟩ := Option.bind_eq_some_iff.1 h
      exact ((afterExponent?_suffix hr).trans (separatedDigits?_suffix hu)).trans ⟨['.'], rfl⟩
    · split at h
      · simp at h
      · exact (afterExponent?_suffix h).trans ⟨['.'], rfl⟩
  · simp only [Option.some.injEq] at h
    exact h ▸ List.nil_suffix
  · exact afterExponent?_suffix h

theorem afterBased?_suffix {isDigit : Char → Bool} {t rest : Text}
    (h : afterBased? isDigit t = some rest) : rest <:+ t := by
  obtain ⟨u, hu, rfl⟩ := Option.map_eq_some_iff.1 h
  split
  · next r => exact (List.suffix_cons 'n' r).trans (separatedDigits?_suffix hu)
  · exact separatedDigits?_suffix hu

theorem numberRest?_suffix {t rest : Text} (h : numberRest? t = some rest) : rest <:+ t := by
  unfold numberRest? at h
  split at h
  · next c t =>
    have head : ∀ {u : Text}, u <:+ t → u <:+ '0' :: c :: t := fun hu => hu.trans ⟨['0', c], rfl⟩
    have next : ∀ {u : Text}, u <:+ c :: t → u <:+ '0' :: c :: t :=
      fun hu => hu.trans (List.suffix_cons '0' _)
    split at h
    · exact head (afterBased?_suffix h)
    split at h
    · exact head (afterBased?_suffix h)
    split at h
    · exact head (afterBased?_suffix h)
    split at h
    · have drop := List.dropWhile_suffix (l := c :: t) Char.isDigit
      simp only at h
      split at h
      · exact next ((afterFraction?_suffix h).trans drop)
      · simp only [Option.some.injEq] at h
        exact next (h ▸ drop)
    split at h
    · simp at h
    split at h
    · simp only [Option.some.injEq] at h
      exact head (h ▸ List.suffix_rfl)
    · exact next (afterFraction?_suffix h)
  · exact afterFraction?_suffix h
  · split at h
    · next r hr =>
      simp only [Option.some.injEq] at h
      exact h ▸ (List.suffix_cons 'n' r).trans (separatedDigits?_suffix hr)
    · next r _ hr => exact (afterFraction?_suffix h).trans (separatedDigits?_suffix hr)
    · simp at h

theorem numberEnd?_suffix {t rest : Text} (h : numberEnd? t = some rest) : rest <:+ t := by
  unfold numberEnd? at h
  split at h
  · simp at h
  · next hr => simp only [Option.some.injEq] at h; exact h ▸ numberRest?_suffix hr
  · next hr =>
    split at h
    · simp at h
    · simp only [Option.some.injEq] at h
      exact h ▸ numberRest?_suffix hr

theorem firstSymbol?_suffix {t rest : Text} {spelling : String} {list : List String}
    (h : firstSymbol? t list = some (spelling, rest)) : rest <:+ t := by
  induction list with
  | nil => simp [firstSymbol?] at h
  | cons s list ih =>
    simp only [firstSymbol?] at h
    split at h
    · next r hr =>
      simp only [Option.some.injEq, Prod.mk.injEq] at h
      exact ⟨s.toList, h.2 ▸ (Text.stripHead?_eq_some.1 hr).symm⟩
    · exact ih h

theorem identifierEscape?_suffix {t rest : Text} {c : Char}
    (h : identifierEscape? t = some (c, rest)) : rest <:+ t := by
  unfold identifierEscape? at h
  split at h
  · next t =>
    split at h
    · next r hr =>
      simp only at h
      split at h
      · simp at h
      · simp only [Option.some.injEq, Prod.mk.injEq] at h
        obtain ⟨_, rfl⟩ := h
        have drop := List.dropWhile_suffix (l := t) fun c => (Json.hexDigit? c).isSome
        rw [hr] at drop
        exact ((List.suffix_cons _ _).trans drop).trans ⟨['u', '\x7b'], rfl⟩
    · simp at h
  · next t _ =>
    obtain ⟨⟨unit, r⟩, hr, he⟩ := Option.map_eq_some_iff.1 h
    simp only [Prod.mk.injEq] at he
    exact he.2 ▸ (codeUnit?_suffix hr).trans (List.suffix_cons 'u' t)
  · simp at h

theorem identifierRest_suffix {fuel : Nat} {t name rest : Text} {escaped : Bool}
    (h : identifierRest fuel t = some (name, escaped, rest)) : rest <:+ t := by
  fun_induction identifierRest fuel t generalizing name escaped with
  | case1 => simp at h
  | case2 => simp_all
  | case3 fuel t d u hu _ ih =>
    obtain ⟨⟨n, e, r⟩, hr, he⟩ := Option.map_eq_some_iff.1 h
    simp only [Prod.mk.injEq] at he
    obtain ⟨_, _, rfl⟩ := he
    exact ((ih hr).trans (identifierEscape?_suffix hu)).trans (List.suffix_cons _ t)
  | case4 => simp at h
  | case5 => simp at h
  | case6 fuel c t _ _ ih =>
    obtain ⟨⟨n, e, r⟩, hr, he⟩ := Option.map_eq_some_iff.1 h
    simp only [Prod.mk.injEq] at he
    obtain ⟨_, _, rfl⟩ := he
    exact (ih hr).trans (List.suffix_cons c t)
  | case7 =>
    simp only [Option.some.injEq, Prod.mk.injEq] at h
    exact h.2.2 ▸ List.suffix_rfl

theorem identifierRest_ends {fuel : Nat} {t name rest : Text} {escaped : Bool}
    (h : identifierRest fuel t = some (name, escaped, rest)) :
    (escaped = false → t = name ++ rest) ∧ endsWord rest = true := by
  fun_induction identifierRest fuel t generalizing name escaped with
  | case1 => simp at h
  | case2 =>
    cases h
    exact ⟨fun _ => rfl, rfl⟩
  | case3 fuel t d u hu _ ih =>
    obtain ⟨⟨n, e, r⟩, hr, he⟩ := Option.map_eq_some_iff.1 h
    cases he
    exact ⟨by simp, (ih hr).2⟩
  | case4 => simp at h
  | case5 => simp at h
  | case6 fuel c t _ _ ih =>
    obtain ⟨⟨n, e, r⟩, hr, he⟩ := Option.map_eq_some_iff.1 h
    cases he
    exact ⟨fun plain => congrArg (c :: ·) ((ih hr).1 plain), (ih hr).2⟩
  | case7 fuel c t escape part =>
    cases h
    exact ⟨fun _ => rfl, by simp [endsWord, escape, part]⟩

theorem scanIdentifier?_ends {t name rest : Text} {escaped : Bool}
    (h : scanIdentifier? t = some (name, escaped, rest)) :
    (escaped = false → t = name ++ rest) ∧ endsWord rest = true := by
  unfold scanIdentifier? at h
  split at h
  · simp at h
  · split at h
    · exact identifierRest_ends h
    · split at h
      · split at h
        · split at h
          · exact identifierRest_ends h
          · simp at h
        · simp at h
      · simp at h

theorem scanIdentifier?_suffix {t name rest : Text} {escaped : Bool}
    (h : scanIdentifier? t = some (name, escaped, rest)) : rest <:+ t := by
  unfold scanIdentifier? at h
  split at h
  · simp at h
  · split at h
    · exact identifierRest_suffix h
    · split at h
      · split at h
        · split at h
          · exact identifierRest_suffix h
          · simp at h
        · simp at h
      · simp at h

/-- What a token says about the text that it is cut off from: a word starts like an identifier, is
written as it is spelled unless an escape is in it, and ends where no identifier goes on; strings
stand between two quotes. -/
def Token.Opens : Token → Text → Text → Prop
  | .word name escaped, t, rest =>
    (∃ c r, t = c :: r ∧ (Text.isIdentifierStart c || c == '\\') = true) ∧
      (escaped = false → t = name.toList ++ rest) ∧ endsWord rest = true
  | .string _, t, rest =>
    ∃ quote body, (quote = '"' ∨ quote = '\'') ∧ t = quote :: body ++ quote :: rest
  | _, _, _ => True

/-- A scanner reads a token at the start of a text and yields the rest. -/
structure Scanner where
  read? : Text → Option (Token × Text)
  cuts : ∀ {t token rest}, read? t = some (token, rest) → rest <:+ t ∧ token.Opens t rest

theorem scanSymbol?_eq_some {t rest : Text} {token : Token} (h : scanSymbol? t = some (token, rest)) :
    rest <:+ t ∧ ∃ spelling, token = .symbol spelling := by
  unfold scanSymbol? at h
  split at h
  · next c r =>
    split at h <;> simp only [Option.some.injEq, Prod.mk.injEq] at h <;> obtain ⟨rfl, rfl⟩ := h
    · exact ⟨List.suffix_cons '?' _, _, rfl⟩
    · exact ⟨⟨['?', '.'], rfl⟩, _, rfl⟩
  · obtain ⟨⟨s, r⟩, hs, he⟩ := Option.map_eq_some_iff.1 h
    simp only [Prod.mk.injEq] at he
    obtain ⟨rfl, rfl⟩ := he
    exact ⟨firstSymbol?_suffix hs, s, rfl⟩

theorem numberToken_eq_some {t rest : Text} {token : Token}
    (h : ((numberEnd? t).map fun rest => (Token.number, rest)) = some (token, rest)) :
    rest <:+ t ∧ token = .number := by
  obtain ⟨r, hr, he⟩ := Option.map_eq_some_iff.1 h
  simp only [Prod.mk.injEq] at he
  obtain ⟨rfl, rfl⟩ := he
  exact ⟨numberEnd?_suffix hr, rfl⟩

theorem scanToken?_eq_some {t rest : Text} {token : Token} (h : scanToken? t = some (token, rest)) :
    rest <:+ t ∧ token.Opens t rest := by
  unfold scanToken? at h
  split at h
  · simp only [Option.some.injEq, Prod.mk.injEq] at h
    obtain ⟨rfl, rfl⟩ := h
    exact ⟨List.suffix_rfl, trivial⟩
  · next c r =>
    split at h
    · next start =>
      obtain ⟨⟨name, escaped, u⟩, hn, he⟩ := Option.map_eq_some_iff.1 h
      simp only [Prod.mk.injEq] at he
      obtain ⟨rfl, rfl⟩ := he
      have ends := scanIdentifier?_ends hn
      exact ⟨scanIdentifier?_suffix hn, ⟨c, r, rfl, start⟩,
        by rw [String.toList_ofList]; exact ends.1, ends.2⟩
    split at h
    · next quoted =>
      split at h
      · next body u hb =>
        obtain ⟨value, _, he⟩ := Option.map_eq_some_iff.1 h
        simp only [Prod.mk.injEq] at he
        obtain ⟨rfl, rfl⟩ := he
        have hr := stringBody?_eq_some hb
        exact ⟨⟨c :: body ++ [c], by simp [hr]⟩, c, body, quoted, by rw [hr]; rfl⟩
      · simp at h
    split at h
    · obtain ⟨hs, rfl⟩ := numberToken_eq_some h
      exact ⟨hs, trivial⟩
    split at h
    · obtain ⟨⟨body, closed, u⟩, hp, he⟩ := Option.map_eq_some_iff.1 h
      simp only [Prod.mk.injEq] at he
      obtain ⟨rfl, rfl⟩ := he
      exact ⟨(templatePiece?_suffix hp).trans (List.suffix_cons c r), trivial⟩
    split at h
    · obtain ⟨⟨name, escaped, u⟩, hn, he⟩ := Option.map_eq_some_iff.1 h
      simp only [Prod.mk.injEq] at he
      obtain ⟨rfl, rfl⟩ := he
      exact ⟨(scanIdentifier?_suffix hn).trans (List.suffix_cons c r), trivial⟩
    split at h
    · split at h
      · obtain ⟨hs, rfl⟩ := numberToken_eq_some h
        exact ⟨hs, trivial⟩
      · obtain ⟨hs, _, rfl⟩ := scanSymbol?_eq_some h
        exact ⟨hs, trivial⟩
    · obtain ⟨hs, _, rfl⟩ := scanSymbol?_eq_some h
      exact ⟨hs, trivial⟩

theorem scanGreater?_eq_some {t rest : Text} {token : Token}
    (h : scanGreater? t = some (token, rest)) : rest <:+ t ∧ token.Opens t rest := by
  obtain ⟨⟨s, r⟩, hs, he⟩ := Option.map_eq_some_iff.1 h
  simp only [Prod.mk.injEq] at he
  obtain ⟨rfl, rfl⟩ := he
  exact ⟨firstSymbol?_suffix hs, trivial⟩

theorem scanRegex?_eq_some {t rest : Text} {token : Token}
    (h : scanRegex? t = some (token, rest)) : rest <:+ t ∧ token.Opens t rest := by
  unfold scanRegex? at h
  split at h
  · next r =>
    split at h
    · next body u hb =>
      split at h
      · simp only [Option.some.injEq, Prod.mk.injEq] at h
        obtain ⟨rfl, rfl⟩ := h
        have flags := List.dropWhile_suffix (l := u) Text.isIdentifierPart
        exact ⟨(flags.trans (regexBody?_suffix hb)).trans (List.suffix_cons '/' r), trivial⟩
      · simp at h
    · simp at h
  · simp at h

theorem scanLess?_eq_some {t rest : Text} {token : Token}
    (h : scanLess? t = some (token, rest)) : rest <:+ t ∧ token.Opens t rest := by
  unfold scanLess? at h
  split at h
  · simp only [Option.some.injEq, Prod.mk.injEq] at h
    obtain ⟨rfl, rfl⟩ := h
    exact ⟨List.suffix_cons _ _, trivial⟩
  · simp at h

theorem scanTemplateTail?_eq_some {t rest : Text} {token : Token}
    (h : scanTemplateTail? t = some (token, rest)) : rest <:+ t ∧ token.Opens t rest := by
  unfold scanTemplateTail? at h
  split at h
  · obtain ⟨⟨body, closed, u⟩, hp, he⟩ := Option.map_eq_some_iff.1 h
    simp only [Prod.mk.injEq] at he
    obtain ⟨rfl, rfl⟩ := he
    exact ⟨(templatePiece?_suffix hp).trans (List.suffix_cons _ _), trivial⟩
  · simp at h

theorem scanJsxName?_eq_some {t rest : Text} {token : Token}
    (h : scanJsxName? t = some (token, rest)) : rest <:+ t ∧ token.Opens t rest := by
  unfold scanJsxName? at h
  split at h
  · simp at h
  · next c r =>
    simp only at h
    split at h
    · next start =>
      obtain ⟨start, ends⟩ := Bool.and_eq_true_iff.1 start
      simp only [Option.some.injEq, Prod.mk.injEq] at h
      obtain ⟨rfl, rfl⟩ := h
      refine ⟨List.dropWhile_suffix _, ⟨c, r, rfl, by simp [start]⟩, fun _ => ?_, ends⟩
      rw [String.toList_ofList, List.takeWhile_append_dropWhile]
    · simp at h

theorem scanJsxChild?_eq_some {t rest : Text} {token : Token}
    (h : scanJsxChild? t = some (token, rest)) : rest <:+ t ∧ token.Opens t rest := by
  unfold scanJsxChild? at h
  split at h
  · simp only [Option.some.injEq, Prod.mk.injEq] at h
    obtain ⟨rfl, rfl⟩ := h
    exact ⟨List.suffix_rfl, trivial⟩
  · simp only [Option.some.injEq, Prod.mk.injEq] at h
    obtain ⟨rfl, rfl⟩ := h
    exact ⟨List.suffix_cons _ _, trivial⟩
  · simp only [Option.some.injEq, Prod.mk.injEq] at h
    obtain ⟨rfl, rfl⟩ := h
    exact ⟨List.suffix_cons _ _, trivial⟩
  · simp only at h
    split at h
    · simp only [Option.some.injEq, Prod.mk.injEq] at h
      obtain ⟨rfl, rfl⟩ := h
      exact ⟨List.nil_suffix, trivial⟩
    · next c r hr =>
      split at h
      · simp only [Option.some.injEq, Prod.mk.injEq] at h
        obtain ⟨rfl, rfl⟩ := h
        exact ⟨hr ▸ List.dropWhile_suffix _, trivial⟩
      · simp at h

theorem scanJsxString?_eq_some {t rest : Text} {token : Token}
    (h : scanJsxString? t = some (token, rest)) : rest <:+ t ∧ token.Opens t rest := by
  unfold scanJsxString? at h
  split at h
  · simp at h
  · next quote r =>
    split at h
    · next quoted =>
      split at h
      · simp at h
      · next c u hu =>
        simp only [Option.some.injEq, Prod.mk.injEq] at h
        obtain ⟨rfl, rfl⟩ := h
        have hc : c = quote := by
          have hne : r.dropWhile (· != quote) ≠ [] := by simp [hu]
          simpa [hu] using List.head_dropWhile_not (· != quote) hne
        have hr : r = r.takeWhile (· != quote) ++ quote :: u := by
          subst hc
          rw [← hu, List.takeWhile_append_dropWhile]
        have whole : quote :: r = quote :: r.takeWhile (· != quote) ++ quote :: u := by
          rw [List.cons_append, ← hr]
        exact ⟨⟨quote :: r.takeWhile (· != quote) ++ [quote], by simp [whole]⟩, quote, _, quoted, whole⟩
    · simp at h

theorem scanAttributeValue?_eq_some {t rest : Text} {token : Token}
    (h : scanAttributeValue? t = some (token, rest)) : rest <:+ t ∧ token.Opens t rest := by
  unfold scanAttributeValue? at h
  split at h
  · next hs => exact scanJsxString?_eq_some (hs.trans h)
  · exact scanToken?_eq_some h

namespace Scanner

def plain : Scanner := ⟨scanToken?, scanToken?_eq_some⟩

def greater : Scanner := ⟨scanGreater?, scanGreater?_eq_some⟩

def less : Scanner := ⟨scanLess?, scanLess?_eq_some⟩

def regex : Scanner := ⟨scanRegex?, scanRegex?_eq_some⟩

def templateTail : Scanner := ⟨scanTemplateTail?, scanTemplateTail?_eq_some⟩

def jsxName : Scanner := ⟨scanJsxName?, scanJsxName?_eq_some⟩

def jsxChild : Scanner := ⟨scanJsxChild?, scanJsxChild?_eq_some⟩

def attributeValue : Scanner := ⟨scanAttributeValue?, scanAttributeValue?_eq_some⟩

end Scanner

end TidyImports.Script
