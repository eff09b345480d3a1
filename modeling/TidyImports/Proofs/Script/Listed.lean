import TidyImports.Proofs.Script.Specifiers

/-! Lists in braces. The items stand between commas, and one comma may follow the last item. A list is
read as the values of its items, each in view of where it stands. -/
namespace TidyImports.Script

variable {α β : Type} {context : Context} {c d e : Cursor}

/-- An item of a list: what it says, its lexemes, and the comma behind it, if there is one. -/
structure Listed (α : Type) where
  value : α
  words : List Lexeme
  comma : Option Lexeme
  deriving DecidableEq, Repr

namespace Listed

def lexemes (item : Listed α) : List Lexeme := item.words ++ item.comma.toList

/-- The values of items, the first of which starts at an offset, in view of where each starts and
stops. -/
def valuesAt (f : Nat → Nat → α → β) (offset : Nat) : List (Listed α) → List β
  | [] => []
  | item :: items =>
    f offset (offset + (spelled item.words).width) item.value ::
      valuesAt f (offset + (fullText item.lexemes).width) items

end Listed

/-- Items in a list: each has the tokens of what it says, and only the last one may have no comma. -/
inductive IsList (Item : List Token → α → Prop) : List (Listed α) → Prop
  | nil : IsList Item []
  | last {item : Listed α} (own : Item (item.words.map Lexeme.token) item.value)
    (noComma : item.comma = none) : IsList Item [item]
  | cons {item : Listed α} {l : Lexeme} {items : List (Listed α)}
    (own : Item (item.words.map Lexeme.token) item.value) (comma : item.comma = some l)
    (mark : l.token = .symbol ",") (more : IsList Item items) : IsList Item (item :: items)

namespace Parser

theorem run_many_of_reads {step : Parser (Option α)} {items : List α}
    (h : Reads step context c items d) (bound : items.length < context.limit) :
    (many step).run context c = .ok (items, d) := by
  have repeated {limit : Nat} {done : List α} (enough : items.length < limit) :
      (repeatUpTo step limit done).run context c = .ok (done.reverse ++ items, d) := by
    clear bound
    induction h generalizing limit done with
    | declined h =>
        obtain ⟨limit, rfl⟩ := Nat.exists_eq_succ_of_ne_zero (Nat.ne_zero_of_lt enough)
        rw [List.append_nil]
        exact run_bind_eq_ok.2 ⟨none, _, h, rfl⟩
    | @item c d e a items h _ ih =>
        obtain ⟨limit, rfl⟩ := Nat.exists_eq_succ_of_ne_zero (Nat.ne_zero_of_lt enough)
        have rest := @ih limit (a :: done) (Nat.lt_of_succ_lt_succ enough)
        rw [List.reverse_cons, List.append_assoc, List.singleton_append] at rest
        exact run_bind_eq_ok.2 ⟨some a, _, h, rest⟩
  exact run_bind_eq_ok.2 ⟨context, c, run_read_eq_ok.2 ⟨rfl, rfl⟩, repeated bound⟩

/-- What a parser reads is an item, in view of where it starts and stops. -/
structure ReadsItem (item : Parser β) (context : Context) (Item : List Token → α → Prop)
    (f : Nat → Nat → α → β) : Prop where
  exists_chain : ∀ {c d v}, item.run context c = .ok (v, d) → c.Scanned →
    ∃ ls a, c.Chain ls d ∧ ls ≠ [] ∧ Item (ls.map Lexeme.token) a ∧ v = f c.start d.previous a
  run : ∀ {c d ls a}, c.Chain ls d → Item (ls.map Lexeme.token) a →
    d.token = .symbol "," ∨ d.token = .symbol "\x7d" → item.run context c = .ok (f c.start d.previous a, d)
  opens : ∀ {tokens a}, Item tokens a → ∃ token more, tokens = token :: more ∧
    token ≠ .symbol "\x7d"

section CommaList

variable {item : Parser β} {Item : List Token → α → Prop} {f : Nat → Nat → α → β}

def commaStep (item : Parser β) : Parser (Option β) := do
  if ← atSymbol "\x7d" then return none
  let value ← item
  unless ← atSymbol "\x7d" do needSymbol ","
  return some value

theorem commaItems_eq (item : Parser β) : commaItems "\x7d" item = many (commaStep item) := rfl

theorem run_commaStep_eq_ok {found : Option β} :
    (commaStep item).run context c = .ok (found, e) ↔
      (c.token = .symbol "\x7d" ∧ found = none ∧ c = e) ∨
        (c.token ≠ .symbol "\x7d" ∧ ∃ v d, item.run context c = .ok (v, d) ∧ found = some v ∧
          (d.token = .symbol "\x7d" ∧ d = e ∨
            d.token = .symbol "," ∧ advance.run context d = .ok ((), e))) := by
  rw [commaStep, run_bind_eq_ok]
  simp only [run_atSymbol_eq_ok]
  by_cases close : c.token = .symbol "\x7d"
  · simp only [close, not_true, ne_eq, false_and, or_false, true_and]
    constructor
    · rintro ⟨_, _, ⟨rfl, rfl⟩, h⟩
      obtain ⟨rfl, rfl⟩ := run_pure_eq_ok.1 h
      exact ⟨rfl, rfl⟩
    · rintro ⟨rfl, rfl⟩
      exact ⟨true, c, ⟨by simp, rfl⟩, rfl⟩
  · simp only [close, false_and, false_or, ne_eq, not_false_eq_true, true_and]
    constructor
    · rintro ⟨_, _, ⟨rfl, rfl⟩, h⟩
      rw [if_neg (by simpa using close)] at h
      obtain ⟨v, d, hv, h⟩ := run_bind_eq_ok.1 h
      obtain ⟨_, _, hclose, h⟩ := run_bind_eq_ok.1 h
      obtain ⟨rfl, rfl⟩ := run_atSymbol_eq_ok.1 hclose
      refine ⟨v, d, hv, ?_⟩
      split at h
      · next closes =>
        obtain ⟨rfl, rfl⟩ := run_pure_eq_ok.1 h
        exact ⟨rfl, .inl ⟨by simpa using closes, rfl⟩⟩
      · obtain ⟨_, _, hcomma, h⟩ := run_bind_eq_ok.1 h
        obtain ⟨rfl, rfl⟩ := run_pure_eq_ok.1 h
        exact ⟨rfl, .inr (run_needSymbol_eq_ok.1 hcomma)⟩
    · rintro ⟨v, d, hv, rfl, h⟩
      refine ⟨_, c, ⟨rfl, rfl⟩, ?_⟩
      rw [if_neg (by simpa using close)]
      refine run_bind_eq_ok.2 ⟨v, d, hv, run_bind_eq_ok.2 ⟨_, d, run_atSymbol_eq_ok.2 ⟨rfl, rfl⟩, ?_⟩⟩
      rcases h with ⟨closes, rfl⟩ | ⟨comma, moved⟩
      · rw [closes]
        rfl
      · rw [comma]
        exact run_bind_eq_ok.2 ⟨(), e, run_needSymbol_eq_ok.2 ⟨comma, moved⟩, rfl⟩

theorem nil_of_reads {values : List β} (h : Reads (commaStep item) context c values d)
    (close : c.token = .symbol "\x7d") : values = [] ∧ c = d := by
  cases h with
  | declined h =>
      rcases run_commaStep_eq_ok.1 h with ⟨-, -, same⟩ | ⟨other, -⟩
      · exact ⟨rfl, same⟩
      · exact absurd close other
  | item h =>
      rcases run_commaStep_eq_ok.1 h with ⟨-, found, -⟩ | ⟨other, -⟩
      · cases found
      · exact absurd close other

theorem exists_list_of_reads (reads : ReadsItem item context Item f) {values : List β}
    (h : Reads (commaStep item) context c values d) (scanned : c.Scanned) :
    ∃ items, IsList Item items ∧ c.Chain (items.flatMap Listed.lexemes) d ∧
      values = Listed.valuesAt f c.start items := by
  induction h with
  | declined h =>
      rcases run_commaStep_eq_ok.1 h with ⟨-, -, rfl⟩ | ⟨-, _, _, -, found, -⟩
      · exact ⟨[], .nil, .nil _, rfl⟩
      · cases found
  | @item c d e v values h more ih =>
      rcases run_commaStep_eq_ok.1 h with ⟨-, found, -⟩ | ⟨-, _, m, hv, found, behind⟩
      · cases found
      cases found
      obtain ⟨ls, a, chain, inhabited, own, rfl⟩ := reads.exists_chain hv scanned
      have stop := chain.previous inhabited
      rcases behind with ⟨closes, rfl⟩ | ⟨comma, moved⟩
      · obtain ⟨rfl, rfl⟩ := nil_of_reads more closes
        refine ⟨[⟨a, ls, none⟩], .last own rfl, by simpa [Listed.lexemes] using chain, ?_⟩
        simp [Listed.valuesAt, stop]
      · obtain ⟨l, first⟩ := (chain.scanned scanned).exists_passes
          (by simp [comma, Token.isSimple, marks]) moved
        obtain ⟨items, list, rest, rfl⟩ := ih first.scanned
        have whole := chain.append (.cons first (.nil _))
        refine ⟨⟨a, ls, some l⟩ :: items, .cons own rfl (by rw [← first.token, comma]) list, ?_, ?_⟩
        · rw [List.flatMap_cons]
          exact whole.append rest
        · rw [Listed.valuesAt, stop, whole.start]
          rfl

theorem exists_chain_of_commaList (reads : ReadsItem item context Item f) {values : List β}
    (h : (commaList "\x7d" item).run context c = .ok (values, e)) (scanned : c.Scanned) :
    ∃ items close, IsList Item items ∧ close.token = .symbol "\x7d" ∧
      c.Chain (items.flatMap Listed.lexemes ++ [close]) e ∧
      values = Listed.valuesAt f c.start items := by
  obtain ⟨_, d, hitems, h⟩ := run_bind_eq_ok.1 h
  obtain ⟨_, _, hclose, h⟩ := run_bind_eq_ok.1 h
  obtain ⟨rfl, rfl⟩ := run_pure_eq_ok.1 h
  obtain ⟨token, moved⟩ := run_needSymbol_eq_ok.1 hclose
  rw [commaItems_eq] at hitems
  obtain ⟨items, list, chain, rfl⟩ := exists_list_of_reads reads (reads_of_many hitems) scanned
  obtain ⟨close, last⟩ := (chain.scanned scanned).exists_passes
    (by simp [token, Token.isSimple, marks]) moved
  exact ⟨items, close, list, by rw [← last.token, token], chain.append (.cons last (.nil _)), rfl⟩

theorem reads_of_list (reads : ReadsItem item context Item f) {items : List (Listed α)}
    (list : IsList Item items) (chain : c.Chain (items.flatMap Listed.lexemes) d)
    (close : d.token = .symbol "\x7d") :
    Reads (commaStep item) context c (Listed.valuesAt f c.start items) d := by
  -- The first token of an item is no closing brace, so the step reads the item.
  have opened {i : Listed α} {c d : Cursor} (own : Item (i.words.map Lexeme.token) i.value)
      (chain : c.Chain i.words d) : i.words ≠ [] ∧ c.token ≠ .symbol "\x7d" := by
    obtain ⟨token, more, hwords, other⟩ := reads.opens own
    obtain ⟨l, ls, hls, rfl, -⟩ := List.map_eq_cons_iff.1 hwords
    rw [hls] at chain ⊢
    obtain _ | ⟨first, -⟩ := chain
    exact ⟨by simp, by rwa [first.token]⟩
  induction list generalizing c with
  | nil =>
      obtain _ | _ := chain
      exact .declined (run_commaStep_eq_ok.2 (.inl ⟨close, rfl, rfl⟩))
  | @last i own noComma =>
      have inner : c.Chain i.words d := by simpa [Listed.lexemes, noComma] using chain
      obtain ⟨inhabited, other⟩ := opened own inner
      have run := reads.run inner own (.inr close)
      rw [inner.previous inhabited] at run
      exact .item (run_commaStep_eq_ok.2 (.inr ⟨other, _, d, run, rfl, .inl ⟨close, rfl⟩⟩))
        (.declined (run_commaStep_eq_ok.2 (.inl ⟨close, rfl, rfl⟩)))
  | @cons i l items own comma mark more ih =>
      rw [List.flatMap_cons] at chain
      obtain ⟨m, first, rest⟩ := chain.split
      have whole := first.start
      rw [Listed.lexemes, comma] at first
      obtain ⟨n, inner, _ | ⟨last, ⟨⟩⟩⟩ := first.split
      obtain ⟨inhabited, other⟩ := opened own inner
      have token : n.token = .symbol "," := by rw [last.token, mark]
      have run := reads.run inner own (.inl token)
      rw [inner.previous inhabited] at run
      rw [Listed.valuesAt, ← whole]
      exact .item (run_commaStep_eq_ok.2
        (.inr ⟨other, _, n, run, rfl, .inr ⟨token, last.advance _⟩⟩)) (ih rest)

theorem length_valuesAt (f : Nat → Nat → α → β) (offset : Nat) (items : List (Listed α)) :
    (Listed.valuesAt f offset items).length = items.length := by
  induction items generalizing offset with
  | nil => rfl
  | cons i items ih => rw [Listed.valuesAt, List.length_cons, ih, List.length_cons]

theorem length_le_of_list (reads : ReadsItem item context Item f) {items : List (Listed α)}
    (list : IsList Item items) : items.length ≤ (items.flatMap Listed.lexemes).length := by
  have inhabited {i : Listed α} (own : Item (i.words.map Lexeme.token) i.value) :
      0 < i.words.length := by
    obtain ⟨token, more, hwords, -⟩ := reads.opens own
    have same := congrArg List.length hwords
    simp only [List.length_map, List.length_cons] at same
    omega
  induction list with
  | nil => exact Nat.le_refl _
  | last own noComma =>
      have := inhabited own
      simp [Listed.lexemes]
      omega
  | cons own comma mark more ih =>
      have := inhabited own
      simp [Listed.lexemes] at ih ⊢
      omega

/-- What has the lexemes of a list in braces is read as the values of its items. -/
theorem run_commaList (reads : ReadsItem item context Item f) {items : List (Listed α)}
    {close : Lexeme} (list : IsList Item items) (closes : close.token = .symbol "\x7d")
    (chain : c.Chain (items.flatMap Listed.lexemes ++ [close]) e)
    (bound : items.length < context.limit) :
    (commaList "\x7d" item).run context c = .ok (Listed.valuesAt f c.start items, e) := by
  obtain ⟨d, inner, _ | ⟨last, ⟨⟩⟩⟩ := chain.split
  have token : d.token = .symbol "\x7d" := by rw [last.token, closes]
  have all := reads_of_list reads list inner token
  have run := run_many_of_reads all (by rwa [length_valuesAt])
  refine run_bind_eq_ok.2 ⟨_, d, run, run_bind_eq_ok.2 ⟨(), e, ?_, rfl⟩⟩
  exact run_needSymbol_eq_ok.2 ⟨token, last.advance _⟩

end CommaList

end Parser

end TidyImports.Script
