import Mathlib.Data.Bool.Basic
import Mathlib.Data.List.TakeWhile
import TidyImports.Proofs.Script.Gaps
import TidyImports.Proofs.Script.Literals

/-! Tokens with their texts. A word, a string and the marks of imports are read from their own text
whatever follows, as long as it does not go on with them; so a phrase, which is a row of such tokens
with the gaps between them, is read the same way wherever it stands, and its text says which tokens
it has. -/
namespace TidyImports.Script

variable {t s rest name : Text} {escaped : Bool} {fuel : Nat} {token : Token}

theorem codeUnit?_local {unit : Nat} (h : Json.codeUnit? t = some (unit, rest)) :
    ∃ s, t = s ++ rest ∧ ∀ r, Json.codeUnit? (s ++ r) = some (unit, r) := by
  unfold Json.codeUnit? at h
  split at h
  · next a b c d t =>
    simp only [Option.bind_eq_bind, Option.bind_eq_some_iff, Option.some.injEq, Prod.mk.injEq] at h
    obtain ⟨w, hw, x, hx, y, hy, z, hz, rfl, rfl⟩ := h
    refine ⟨[a, b, c, d], rfl, fun r => ?_⟩
    simp [Json.codeUnit?, hw, hx, hy, hz]
  · cases h

theorem codeUnit?_ne_brace (u : Text) {unit : Nat} :
    Json.codeUnit? ('\x7b' :: u) ≠ some (unit, rest) := by
  intro h
  unfold Json.codeUnit? at h
  split at h
  · next brace =>
    obtain ⟨rfl, -⟩ := List.cons.inj brace
    simp [Json.hexDigit?] at h
  · cases h

theorem takeWhile_dropWhile_append {α : Type} {p : α → Bool} {l more : List α} {a : α}
    (h : l.dropWhile p = a :: more) (u : List α) :
    l = l.takeWhile p ++ a :: more ∧
      (l.takeWhile p ++ a :: u).takeWhile p = l.takeWhile p ∧
      (l.takeWhile p ++ a :: u).dropWhile p = a :: u := by
  have stops : p a = false := by
    have hne : l.dropWhile p ≠ [] := by simp [h]
    simpa [h] using List.head_dropWhile_not p hne
  have all : ∀ x ∈ l.takeWhile p, p x = true := fun x hx => List.mem_takeWhile_imp hx
  refine ⟨?_, ?_, ?_⟩
  · rw [← h, List.takeWhile_append_dropWhile]
  · rw [List.takeWhile_append_of_pos all]
    simp [stops]
  · rw [List.dropWhile_append_of_pos all]
    simp [stops]

theorem identifierEscape?_local {c : Char} (h : identifierEscape? t = some (c, rest)) :
    ∃ s, t = s ++ rest ∧ ∀ r, identifierEscape? (s ++ r) = some (c, r) := by
  unfold identifierEscape? at h
  split at h
  · next t =>
    split at h
    · next r hr =>
      simp only at h
      split at h
      · cases h
      · next valid =>
        cases h
        obtain ⟨whole, -⟩ := takeWhile_dropWhile_append hr []
        refine ⟨'u' :: '\x7b' :: (t.takeWhile fun c => (Json.hexDigit? c).isSome) ++ ['\x7d'], ?_,
          fun r => ?_⟩
        · simpa using whole
        · obtain ⟨-, taken, left⟩ := takeWhile_dropWhile_append hr r
          simp only [List.cons_append, List.append_assoc, List.nil_append, identifierEscape?, taken,
            left]
          rw [if_neg valid]
    · cases h
  · next t other =>
    obtain ⟨⟨unit, r⟩, hr, he⟩ := Option.map_eq_some_iff.1 h
    cases he
    obtain ⟨s, rfl, hs⟩ := codeUnit?_local hr
    refine ⟨'u' :: s, rfl, fun r => ?_⟩
    rw [List.cons_append, identifierEscape?, hs]
    · rfl
    · intro u brace
      have read := hs r
      rw [brace] at read
      exact absurd read (codeUnit?_ne_brace u)
  · cases h

theorem identifierRest_local (h : identifierRest fuel t = some (name, escaped, rest)) :
    ∃ s, t = s ++ rest ∧ ∀ r fuel', endsWord r = true → s.length < fuel' →
      identifierRest fuel' (s ++ r) = some (name, escaped, r) := by
  have ended {r : Text} {fuel' : Nat} (ends : endsWord r = true) (enough : 0 < fuel') :
      identifierRest fuel' r = some ([], false, r) := by
    obtain ⟨fuel', rfl⟩ := Nat.exists_eq_succ_of_ne_zero enough.ne'
    cases r with
    | nil => rfl
    | cons c r =>
        simp only [endsWord, Bool.and_eq_true, Bool.not_eq_true', bne_iff_ne] at ends
        simp [identifierRest, ends.1, ends.2]
  fun_induction identifierRest fuel t generalizing name escaped with
  | case1 => cases h
  | case2 =>
    cases h
    exact ⟨[], rfl, fun r fuel' ends enough => ended ends enough⟩
  | case3 fuel t d u escape part ih =>
    obtain ⟨⟨n, e, r⟩, hr, he⟩ := Option.map_eq_some_iff.1 h
    cases he
    obtain ⟨code, rfl, hcode⟩ := identifierEscape?_local escape
    obtain ⟨s, rfl, hs⟩ := ih hr
    refine ⟨'\\' :: (code ++ s), by simp, fun r fuel' ends enough => ?_⟩
    obtain ⟨fuel', rfl⟩ := Nat.exists_eq_succ_of_ne_zero (Nat.ne_zero_of_lt enough)
    simp only [List.length_cons, List.length_append] at enough
    rw [List.cons_append, List.append_assoc, identifierRest, if_pos rfl, hcode]
    simp only [part, if_true]
    rw [hs r fuel' ends (by omega)]
    rfl
  | case4 => cases h
  | case5 => cases h
  | case6 fuel c t plain part ih =>
    obtain ⟨⟨n, e, r⟩, hr, he⟩ := Option.map_eq_some_iff.1 h
    cases he
    obtain ⟨s, rfl, hs⟩ := ih hr
    refine ⟨c :: s, rfl, fun r fuel' ends enough => ?_⟩
    obtain ⟨fuel', rfl⟩ := Nat.exists_eq_succ_of_ne_zero (Nat.ne_zero_of_lt enough)
    simp only [List.length_cons] at enough
    rw [List.cons_append, identifierRest, if_neg plain, if_pos part, hs r _ ends (by omega)]
    rfl
  | case7 =>
    cases h
    exact ⟨[], rfl, fun r fuel' ends enough => ended ends enough⟩

theorem isIdentifierPart_of_start {c : Char} (h : Text.isIdentifierStart c = true) :
    Text.isIdentifierPart c = true := by
  simp only [Text.isIdentifierStart, Text.isIdentifierPart, Char.isAlphanum, Bool.or_eq_true,
    Bool.and_eq_true] at h ⊢
  grind

theorem scanIdentifier?_local (h : scanIdentifier? t = some (name, escaped, rest)) :
    ∃ c s, t = c :: s ++ rest ∧ (Text.isIdentifierStart c || c == '\\') = true ∧
      ∀ r, endsWord r = true → scanIdentifier? (c :: s ++ r) = some (name, escaped, r) := by
  unfold scanIdentifier? at h
  split at h
  · cases h
  · next c u =>
    split at h
    · next start =>
      obtain ⟨s, whole, hs⟩ := identifierRest_local h
      have ends := (identifierRest_ends h).2
      cases s with
      | nil =>
          rw [List.nil_append] at whole
          rw [← whole, endsWord, isIdentifierPart_of_start start] at ends
          cases ends
      | cons d s =>
          obtain ⟨rfl, rfl⟩ := List.cons.inj whole
          refine ⟨c, s, rfl, by simp [start], fun r ends => ?_⟩
          rw [scanIdentifier?.eq_def]
          simp only [List.cons_append, start, if_true]
          exact hs r _ ends (by simp only [List.length_cons, List.length_append]; omega)
    · next notStart =>
      split at h
      · next backslash =>
        subst backslash
        split at h
        · next d v escape =>
          split at h
          · next start =>
            rw [identifierRest, if_pos rfl, escape] at h
            simp only [isIdentifierPart_of_start start, if_true] at h
            obtain ⟨⟨n, e, r⟩, hr, he⟩ := Option.map_eq_some_iff.1 h
            cases he
            obtain ⟨code, rfl, hcode⟩ := identifierEscape?_local escape
            obtain ⟨s, rfl, hs⟩ := identifierRest_local hr
            refine ⟨'\\', code ++ s, by simp, by simp, fun r ends => ?_⟩
            rw [scanIdentifier?.eq_def]
            simp only [List.cons_append, List.append_assoc, notStart, if_true, hcode, start]
            rw [identifierRest, if_pos rfl, hcode]
            simp only [isIdentifierPart_of_start start, if_true]
            rw [hs r _ ends (by simp only [List.length_cons, List.length_append]; omega)]
            rfl
          · cases h
        · cases h
      · cases h

theorem stringBody?_local {quote : Char} (hquote : quote = '"' ∨ quote = '\'') {body : Text}
    (h : stringBody? quote t = some (body, rest)) (r : Text) :
    stringBody? quote (body ++ quote :: r) = some (body, r) := by
  have notEscape : quote ≠ '\\' := by rcases hquote with rfl | rfl <;> decide
  have notBreak : quote ≠ '\n' := by rcases hquote with rfl | rfl <;> decide
  fun_induction stringBody? quote t generalizing body with
  | case1 => cases h
  | case2 t ih =>
    obtain ⟨⟨b, u⟩, hb, he⟩ := Option.map_eq_some_iff.1 h
    cases he
    simp only [List.cons_append, stringBody?, ih hb, Option.map_some]
  | case3 c t notPair ih =>
    obtain ⟨⟨b, u⟩, hb, he⟩ := Option.map_eq_some_iff.1 h
    cases he
    rw [List.cons_append, List.cons_append, stringBody?, ih hb]
    · rfl
    · -- What stands behind the escaped character begins as it did.
      rintro v rfl hv
      have whole := stringBody?_eq_some hb
      cases b with
      | nil => exact notBreak (List.cons.inj hv).1
      | cons d b =>
          rw [(List.cons.inj hv).1] at whole
          exact notPair _ rfl whole
  | case4 t =>
    cases h
    rw [List.nil_append, stringBody?_cons notEscape, if_pos rfl]
  | case5 => cases h
  | case6 c t notPair notEscaped unquoted unbroken ih =>
    obtain ⟨⟨b, u⟩, hb, he⟩ := Option.map_eq_some_iff.1 h
    cases he
    have plain : c ≠ '\\' := by
      rintro rfl
      cases t with
      | nil => cases hb
      | cons d t => exact notEscaped d t rfl rfl
    rw [List.cons_append, stringBody?_cons plain, if_neg unquoted, if_neg unbroken, ih hb]
    rfl

def marks : List String := ["\x7b", "\x7d", ",", ";", ":", "*"]

def Token.isSimple : Token → Bool
  | .word _ _ => true
  | .string _ => true
  | .symbol spelling => marks.contains spelling
  | _ => false

def Token.EndsBefore (token : Token) (t : Text) : Prop :=
  match token with
  | .word _ _ => endsWord t = true
  | .symbol spelling => spelling = "*" → ∀ c ∈ t.head?, c ≠ '*' ∧ c ≠ '='
  | _ => True

/-- A text is read as a token by itself, and a gap before it ends there. -/
structure Spells (token : Token) (t : Text) : Prop where
  scan : ∀ r, token.EndsBefore r → scanToken? (t ++ r) = some (token, r)
  noGap : ∀ r, NoGap (t ++ r)

theorem Spells.ne_nil (h : Spells token t) : t ≠ [] := by
  rintro rfl
  have blank := h.noGap [' '] 0 false []
  exact absurd blank (by simp [skipGap_blank_cons, isLineBreak, isGap, skipGap])

theorem scanToken?_symbol {c : Char} (word : (Text.isIdentifierStart c || c == '\\') = false)
    (quote : c ≠ '"' ∧ c ≠ '\'') (digit : c.isDigit = false) (tick : c.toNat ≠ 0x60)
    (other : c ≠ '#' ∧ c ≠ '.' ∧ c ≠ '?') (r : Text) :
    scanToken? (c :: r) = (firstSymbol? (c :: r) symbols).map fun (s, rest) => (.symbol s, rest) := by
  have symbol : scanSymbol? (c :: r) =
      (firstSymbol? (c :: r) symbols).map fun (s, rest) => (.symbol s, rest) := by
    rw [scanSymbol?.eq_def]
    split
    · next h => exact absurd (List.cons.inj h).1 other.2.2
    · rfl
  rw [scanToken?.eq_def]
  simp only [word, digit, tick, quote, other.1, or_false, if_false, Bool.false_eq_true]
  split
  · next point => exact absurd rfl other.2.1
  · exact symbol

theorem scanToken?_mark {spelling : String} (h : spelling ∈ marks) (r : Text)
    (ends : (Token.symbol spelling).EndsBefore r) :
    scanToken? (spelling.toList ++ r) = some (.symbol spelling, r) := by
  simp only [marks, List.mem_cons, List.not_mem_nil, or_false] at h
  rcases h with rfl | rfl | rfl | rfl | rfl | rfl
  case inr.inr.inr.inr.inr =>
    have head : "*".toList = ['*'] := rfl
    rw [head, List.singleton_append,
      scanToken?_symbol (by decide) (by decide) (by decide) (by decide) (by decide)]
    cases r with
    | nil => simp [symbols, firstSymbol?, Text.stripHead?]
    | cons c r =>
        obtain ⟨star, equals⟩ := ends rfl c rfl
        simp [symbols, firstSymbol?, Text.stripHead?, star.symm, equals.symm]
  all_goals simp (disch := decide) [scanToken?_symbol, symbols, firstSymbol?, Text.stripHead?]

theorem firstSymbol?_eq_some {spelling : String} {list : List String}
    (h : firstSymbol? t list = some (spelling, rest)) : t = spelling.toList ++ rest := by
  induction list with
  | nil => cases h
  | cons s list ih =>
      rw [firstSymbol?] at h
      split at h
      · next stripped =>
        cases h
        exact Text.stripHead?_eq_some.1 stripped
      · exact ih h

theorem scanSymbol?_mark {spelling : String} (mark : spelling ∈ marks)
    (h : scanSymbol? t = some (.symbol spelling, rest)) :
    t = spelling.toList ++ rest ∧ (Token.symbol spelling).EndsBefore rest := by
  rw [scanSymbol?.eq_def] at h
  split at h
  · split at h <;> cases h <;> exact absurd mark (by decide)
  · obtain ⟨⟨_, _⟩, found, same⟩ := Option.map_eq_some_iff.1 h
    cases same
    refine ⟨firstSymbol?_eq_some found, ?_⟩
    rintro rfl c hc
    obtain ⟨r, rfl⟩ := List.head?_eq_some_iff.1 hc
    obtain rfl := firstSymbol?_eq_some found
    constructor
    · rintro rfl
      cases r with
      | nil => simp [symbols, firstSymbol?, Text.stripHead?] at found
      | cons d r =>
          by_cases equals : '=' = d
          · subst equals
            simp [symbols, firstSymbol?, Text.stripHead?] at found
          · simp [symbols, firstSymbol?, Text.stripHead?, equals] at found
    · rintro rfl
      simp [symbols, firstSymbol?, Text.stripHead?] at found

theorem spells_mark {spelling : String} (h : spelling ∈ marks) :
    Spells (.symbol spelling) spelling.toList := by
  refine ⟨scanToken?_mark h, fun r => ?_⟩
  simp only [marks, List.mem_cons, List.not_mem_nil, or_false] at h
  rcases h with rfl | rfl | rfl | rfl | rfl | rfl <;>
    exact noGap_cons (by decide) (by decide) r

theorem spells_string {quote : Char} (hquote : quote = '"' ∨ quote = '\'') {body value : Text}
    (whole : stringBody? quote (body ++ quote :: rest) = some (body, rest))
    (decoded : stringValue? body = some value) :
    Spells (.string value) (quote :: (body ++ [quote])) := by
  refine ⟨fun r _ => ?_, fun r => ?_⟩
  · have again : stringBody? quote (body ++ [quote] ++ r) = some (body, r) := by
      rw [List.append_assoc]
      exact stringBody?_local hquote whole r
    exact (scanToken?_string_iff hquote).2 ⟨body, again, decoded⟩
  · have marks : quote ≠ '/' ∧ (isLineBreak quote || isGap quote) = false := by
      rcases hquote with rfl | rfl <;> decide
    exact noGap_cons marks.1 marks.2 _

theorem exists_spells (h : scanToken? t = some (token, rest)) (simple : token.isSimple = true)
    (noGap : NoGap t) : ∃ s, t = s ++ rest ∧ Spells token s ∧ token.EndsBefore rest := by
  have mark (found : scanSymbol? t = some (token, rest)) :
      ∃ s, t = s ++ rest ∧ Spells token s ∧ token.EndsBefore rest := by
    obtain ⟨spelling, rfl⟩ := (scanSymbol?_eq_some found).2
    have isMark : spelling ∈ marks := by simpa [Token.isSimple] using simple
    obtain ⟨whole, ends⟩ := scanSymbol?_mark isMark found
    exact ⟨_, whole, spells_mark isMark, ends⟩
  rw [scanToken?.eq_def] at h
  split at h
  · cases h
    cases simple
  · next c r =>
    split at h
    · next start =>
      obtain ⟨⟨name, escaped, u⟩, hn, he⟩ := Option.map_eq_some_iff.1 h
      cases he
      obtain ⟨d, s, whole, first, again⟩ := scanIdentifier?_local hn
      have slash : d ≠ '/' := by
        rintro rfl
        exact absurd first (by decide)
      refine ⟨d :: s, whole, ⟨fun r ends => ?_, fun r => ?_⟩, (scanIdentifier?_ends hn).2⟩
      · rw [scanToken?.eq_def]
        simp only [List.cons_append, first, if_true]
        rw [← List.cons_append, again r ends]
        rfl
      · rw [whole] at noGap
        exact NoGap.cons noGap slash _
    split at h
    · next quoted =>
      split at h
      · next body u hb =>
        obtain ⟨value, decoded, he⟩ := Option.map_eq_some_iff.1 h
        cases he
        have whole := stringBody?_eq_some hb
        refine ⟨c :: (body ++ [c]), by rw [whole]; simp, ?_, trivial⟩
        exact spells_string quoted (whole ▸ hb) decoded
      · cases h
    split at h
    · obtain ⟨_, rfl⟩ := numberToken_eq_some h
      cases simple
    split at h
    · obtain ⟨_, _, he⟩ := Option.map_eq_some_iff.1 h
      cases he
      cases simple
    split at h
    · obtain ⟨_, _, he⟩ := Option.map_eq_some_iff.1 h
      cases he
      cases simple
    split at h
    · split at h
      · obtain ⟨_, rfl⟩ := numberToken_eq_some h
        cases simple
      · exact mark h
    · exact mark h

def isPlainWord : Text → Bool
  | [] => false
  | c :: t => c.isAlpha && t.all Text.isIdentifierPart

theorem identifierRest_plain {s r : Text} (part : s.all Text.isIdentifierPart = true)
    (ends : endsWord r = true) (enough : s.length < fuel) :
    identifierRest fuel (s ++ r) = some (s, false, r) := by
  induction s generalizing fuel with
  | nil =>
      obtain ⟨fuel, rfl⟩ := Nat.exists_eq_succ_of_ne_zero (Nat.ne_zero_of_lt enough)
      cases r with
      | nil => rfl
      | cons c r =>
          simp only [endsWord, Bool.and_eq_true, Bool.not_eq_true', bne_iff_ne] at ends
          simp [identifierRest, ends.1, ends.2]
  | cons c s ih =>
      obtain ⟨fuel, rfl⟩ := Nat.exists_eq_succ_of_ne_zero (Nat.ne_zero_of_lt enough)
      obtain ⟨first, others⟩ := Bool.and_eq_true_iff.1 part
      have plain : c ≠ '\\' := by
        rintro rfl
        exact absurd first (by decide)
      simp only [List.length_cons] at enough
      rw [List.cons_append, identifierRest, if_neg plain, if_pos first, ih others (by omega)]
      rfl

theorem not_blank_of_isAlpha {c : Char} (h : c.isAlpha = true) :
    (isLineBreak c || isGap c) = false := by
  have letter : (65 ≤ c.toNat ∧ c.toNat ≤ 90) ∨ (97 ≤ c.toNat ∧ c.toNat ≤ 122) := by
    rcases Bool.or_eq_true_iff.1 h with upper | lower
    · have bounds : 'A'.val ≤ c.val ∧ c.val ≤ 'Z'.val := of_decide_eq_true upper
      exact .inl bounds
    · have bounds := Bool.and_eq_true_iff.1 lower
      exact .inr ⟨of_decide_eq_true bounds.1, of_decide_eq_true bounds.2⟩
  have other {d : Char} (hd : d.toNat < 65 ∨ 122 < d.toNat) : (c == d) = false := by
    rw [beq_eq_false_iff_ne]
    rintro rfl
    omega
  have lineBreak : isLineBreak c = false := by
    rw [isLineBreak, other (by decide), other (by decide), other (by decide), other (by decide)]
    rfl
  have gap : isGap c = false := by
    rw [isGap, other (by decide), other (by decide)]
    simp only [Bool.false_or, Bool.or_eq_false_iff, Bool.and_eq_false_iff, beq_eq_false_iff_ne,
      decide_eq_false_iff_not]
    omega
  rw [lineBreak, gap]
  rfl

theorem spells_word {name : String} (h : isPlainWord name.toList = true) :
    Spells (.word name false) name.toList := by
  cases whole : name.toList with
  | nil => simp [whole, isPlainWord] at h
  | cons c s =>
      rw [whole] at h
      obtain ⟨letter, part⟩ := Bool.and_eq_true_iff.1 h
      have start : Text.isIdentifierStart c = true := by simp [Text.isIdentifierStart, letter]
      have slash : c ≠ '/' := by
        rintro rfl
        exact absurd letter (by decide)
      have own : String.ofList (c :: s) = name := by rw [← whole, String.ofList_toList]
      refine ⟨fun r ends => ?_, fun r => noGap_cons slash (not_blank_of_isAlpha letter) _⟩
      have inner : (c :: s).all Text.isIdentifierPart = true := by
        simpa [isIdentifierPart_of_start start] using part
      rw [scanToken?.eq_def]
      simp only [List.cons_append, start, Bool.true_or, if_true, scanIdentifier?]
      rw [← List.cons_append, identifierRest_plain inner ends (by simp only [List.length_append]; omega), Option.map_some, own]

theorem Spells.eq_name {name : String} (h : Spells (.word name false) t) : t = name.toList := by
  have found := h.scan [] rfl
  have opens := (scanToken?_eq_some found).2.2.1 rfl
  simpa using opens

theorem scanSymbol?_of_scanToken? {spelling : String}
    (h : scanToken? t = some (.symbol spelling, rest)) :
    scanSymbol? t = some (.symbol spelling, rest) := by
  rw [scanToken?.eq_def] at h
  split at h
  · cases h
  · split at h
    · obtain ⟨_, _, he⟩ := Option.map_eq_some_iff.1 h
      cases he
    split at h
    · split at h
      · obtain ⟨_, _, he⟩ := Option.map_eq_some_iff.1 h
        cases he
      · cases h
    split at h
    · cases (numberToken_eq_some h).2
    split at h
    · obtain ⟨_, _, he⟩ := Option.map_eq_some_iff.1 h
      cases he
    split at h
    · obtain ⟨_, _, he⟩ := Option.map_eq_some_iff.1 h
      cases he
    split at h
    · split at h
      · cases (numberToken_eq_some h).2
      · exact h
    · exact h

theorem Spells.eq_mark {spelling : String} (h : Spells (.symbol spelling) t)
    (mark : spelling ∈ marks) : t = spelling.toList := by
  have ends : (Token.symbol spelling).EndsBefore [] := fun _ c hc => by cases hc
  have found := scanSymbol?_of_scanToken? (h.scan [] ends)
  simpa using (scanSymbol?_mark mark found).1

end TidyImports.Script
