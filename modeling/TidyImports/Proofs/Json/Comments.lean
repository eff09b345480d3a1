import TidyImports.Proofs.Json.TrailingCommas

/-! The characters that belong to comments. The first pass of the reduction drops exactly these, but for
the line feeds among them, in every text: also where a literal or a comment does not end. The result has
no comments any more. -/
namespace TidyImports.Json

variable {c : Char} {t front behind body : Text} {slash : Bool} {zone : Zone}

/-- The texts that end outside string literals and comments, behind a slash that may open a comment or
not. -/
inductive Ends : (slash : Bool) → Text → Prop
  | nil : Ends false []
  | plain {slash : Bool} {t : Text} {c : Char} (h : Ends slash t) (unquoted : c ≠ '"')
    (unslashed : c ≠ '/') (closed : slash = true → c ≠ '*') : Ends false (t ++ [c])
  | slash {t : Text} (h : Ends false t) : Ends true (t ++ ['/'])
  | literal {slash : Bool} {t body : Text} (h : Ends slash t) (inside : Inside body) :
    Ends false (t ++ '"' :: body ++ ['"'])
  | lineComment {t body : Text} (h : Ends true t) (single : '\n' ∉ body) :
    Ends false (t ++ '/' :: body ++ ['\n'])
  | blockComment {t body : Text} (h : Ends true t) (ends : ¬['*', '/'] <:+: body) :
    Ends false (t ++ '*' :: body ++ ['*', '/'])

/-- A character of a comment: one of the two that open it, or one behind them. The line feed behind a line
comment does not belong to it. -/
inductive InComment : (front : Text) → Char → (behind : Text) → Prop
  | first {front behind : Text} {c : Char} (h : Ends false front) (opens : c = '/' ∨ c = '*') :
    InComment front '/' (c :: behind)
  | second {front behind : Text} {c : Char} (h : Ends true front) (opens : c = '/' ∨ c = '*') :
    InComment front c behind
  | line {front body behind : Text} {c : Char} (h : Ends true front) (single : '\n' ∉ body)
    (other : c ≠ '\n') : InComment (front ++ '/' :: body) c behind
  | block {front body behind : Text} {c : Char} (h : Ends true front) (ends : ¬['*', '/'] <:+: body) :
    InComment (front ++ '*' :: body) c behind

def IsDropped (front : Text) (c : Char) (behind : Text) : Prop := InComment front c behind ∧ c ≠ '\n'

def Zone.next : Zone → Char → Zone
  | .code, c => if c = '/' then .slash else if c = '"' then .literal else .code
  | .slash, c =>
    if c = '/' then .lineComment
    else if c = '*' then .blockComment false
    else if c = '"' then .literal
    else .code
  | .literal, c => if c = '\\' then .escape else if c = '"' then .code else .literal
  | .escape, _ => .literal
  | .lineComment, c => if c = '\n' then .code else .lineComment
  | .blockComment star, c => if star ∧ c = '/' then .code else .blockComment (c == '*')

def Zone.after (t : Text) : Zone := t.foldl Zone.next .code

theorem Zone.after_concat (t : Text) (c : Char) : after (t ++ [c]) = (after t).next c := by
  simp [after]

inductive Zone.Stands : Zone → Text → Prop
  | code {t : Text} (h : Ends false t) : Stands .code t
  | slash {t : Text} (h : Ends true t) : Stands .slash t
  | literal {slash : Bool} {t body : Text} (h : Ends slash t) (inside : Inside body) :
    Stands .literal (t ++ '"' :: body)
  | escape {slash : Bool} {t body : Text} (h : Ends slash t) (inside : Inside body) :
    Stands .escape (t ++ '"' :: body ++ ['\\'])
  | lineComment {t body : Text} (h : Ends true t) (single : '\n' ∉ body) :
    Stands .lineComment (t ++ '/' :: body)
  | blockComment {t body : Text} (h : Ends true t) (ends : ¬['*', '/'] <:+: body) :
    Stands (.blockComment (body.getLast? == some '*')) (t ++ '*' :: body)

theorem not_infix_concat (ends : ¬['*', '/'] <:+: body)
    (going : ¬((body.getLast? == some '*') = true ∧ c = '/')) : ¬['*', '/'] <:+: body ++ [c] := by
  rw [List.infix_concat_iff, not_or]
  refine ⟨?_, ends⟩
  rintro ⟨front, heq⟩
  rw [List.append_cons, List.append_singleton_inj] at heq
  obtain ⟨rfl, rfl⟩ := heq
  exact going ⟨by simp, rfl⟩

theorem Zone.Stands.next (h : zone.Stands t) (c : Char) : (zone.next c).Stands (t ++ [c]) := by
  cases h with
  | code h =>
      by_cases slash : c = '/'
      · subst slash
        exact .slash (.slash h)
      · by_cases quote : c = '"'
        · subst quote
          exact .literal h .nil
        · simp only [Zone.next, slash, quote, if_false]
          exact .code (.plain h quote slash (by simp))
  | slash h =>
      by_cases slash : c = '/'
      · subst slash
        exact .lineComment h List.not_mem_nil
      · by_cases opens : c = '*'
        · subst opens
          have empty : ¬['*', '/'] <:+: ([] : Text) := by simp
          exact .blockComment h empty
        · by_cases quote : c = '"'
          · subst quote
            exact .literal h .nil
          · simp only [Zone.next, slash, opens, quote, if_false]
            exact .code (.plain h quote slash fun _ => opens)
  | @literal _ t body h inside =>
      by_cases slash : c = '\\'
      · subst slash
        exact .escape h inside
      · by_cases quote : c = '"'
        · subst quote
          exact .code (.literal h inside)
        · simp only [Zone.next, slash, quote, if_false, List.append_assoc, List.cons_append]
          exact .literal h (.plain inside quote slash)
  | @escape _ t body h inside =>
      rw [List.append_assoc, List.append_assoc, List.cons_append]
      exact .literal h (.escaped inside c)
  | @lineComment t body h single =>
      by_cases feed : c = '\n'
      · subst feed
        exact .code (.lineComment h single)
      · simp only [Zone.next, feed, if_false, List.append_assoc, List.cons_append]
        exact .lineComment h (by simp [single, Ne.symm feed])
  | @blockComment t body h ends =>
      by_cases closes : (body.getLast? == some '*') = true ∧ c = '/'
      · rw [Zone.next, if_pos closes]
        obtain ⟨last, rfl⟩ := closes
        obtain ⟨init, rfl⟩ := List.getLast?_eq_some_iff.1 (beq_iff_eq.1 last)
        have inner : ¬['*', '/'] <:+: init := fun h => ends (h.trans (List.prefix_append init _).isInfix)
        simpa using Stands.code (.blockComment h inner)
      · rw [Zone.next, if_neg closes, List.append_assoc, List.cons_append]
        simpa using Stands.blockComment h (not_infix_concat ends closes)

theorem Zone.after_stands (t : Text) : (after t).Stands t := by
  induction t using List.reverseRecOn with
  | nil => exact .code .nil
  | append_singleton t c ih =>
      rw [after_concat]
      exact ih.next c

theorem Inside.foldl_zone (h : Inside t) : t.foldl Zone.next .literal = .literal :=
  h.foldl_eq (fun c unquoted unescaped => by simp [Zone.next, unquoted, unescaped]) rfl fun _ => rfl

theorem foldl_lineComment (single : '\n' ∉ body) : body.foldl Zone.next .lineComment = .lineComment := by
  induction body with
  | nil => rfl
  | cons c body ih =>
      obtain ⟨other, rest⟩ : c ≠ '\n' ∧ '\n' ∉ body := by simpa [eq_comm] using single
      rw [List.foldl_cons, Zone.next, if_neg other, ih rest]

theorem foldl_blockComment (ends : ¬['*', '/'] <:+: body) :
    body.foldl Zone.next (.blockComment false) = .blockComment (body.getLast? == some '*') := by
  induction body using List.reverseRecOn with
  | nil => rfl
  | append_singleton body c ih =>
      have inner : ¬['*', '/'] <:+: body := fun h => ends (h.trans (List.prefix_append body _).isInfix)
      have going : ¬((body.getLast? == some '*') = true ∧ c = '/') := by
        rintro ⟨last, rfl⟩
        obtain ⟨init, rfl⟩ := List.getLast?_eq_some_iff.1 (beq_iff_eq.1 last)
        exact ends ⟨init, [], by simp⟩
      rw [List.foldl_append, ih inner, List.foldl_cons, Zone.next, if_neg going]
      simp

theorem Ends.after_eq (h : Ends slash t) : Zone.after t = if slash then .slash else .code := by
  induction h with
  | nil => rfl
  | @plain slash t c _ unquoted unslashed closed ih =>
      rw [Zone.after_concat, ih]
      cases slash <;> simp_all [Zone.next]
  | slash _ ih =>
      rw [Zone.after_concat, ih]
      rfl
  | @literal slash t body _ inside ih =>
      rw [Zone.after] at ih
      cases slash <;> simp [Zone.after, ih, Zone.next, inside.foldl_zone]
  | @lineComment t body _ single ih =>
      rw [Zone.after] at ih
      simp [Zone.after, ih, Zone.next, foldl_lineComment single]
  | @blockComment t body _ ends ih =>
      rw [Zone.after] at ih
      simp [Zone.after, ih, Zone.next, foldl_blockComment ends]

def Zone.drops : Zone → Char → Text → Bool
  | .code, c, t => c == '/' && (t.head? == some '/' || t.head? == some '*')
  | .slash, c, _ => c == '/' || c == '*'
  | .literal, _, _ => false
  | .escape, _, _ => false
  | .lineComment, c, _ => c != '\n'
  | .blockComment _, c, _ => c != '\n'

theorem Zone.drops_iff : (after front).drops c behind = true ↔ IsDropped front c behind := by
  constructor
  · intro h
    have stands := after_stands front
    revert h stands
    generalize after front = zone
    intro h stands
    cases stands with
    | code ends =>
        simp only [drops, Bool.and_eq_true, Bool.or_eq_true, beq_iff_eq, List.head?_eq_some_iff] at h
        obtain ⟨rfl, ⟨more, rfl⟩ | ⟨more, rfl⟩⟩ := h
        · exact ⟨.first ends (.inl rfl), by decide⟩
        · exact ⟨.first ends (.inr rfl), by decide⟩
    | slash ends =>
        have opens : c = '/' ∨ c = '*' := by simpa [drops] using h
        refine ⟨.second ends opens, ?_⟩
        obtain rfl | rfl := opens <;> decide
    | literal => simp [drops] at h
    | escape => simp [drops] at h
    | lineComment ends single =>
        have other : c ≠ '\n' := by simpa [drops] using h
        exact ⟨.line ends single other, other⟩
    | blockComment ends inner => exact ⟨.block ends inner, by simpa [drops] using h⟩
  · rintro ⟨hcomment, other⟩
    cases hcomment with
    | first ends opens =>
        rw [ends.after_eq]
        simpa [drops] using opens
    | second ends opens =>
        rw [ends.after_eq]
        simpa [drops] using opens
    | line ends single =>
        have zone := ends.after_eq
        rw [after] at zone
        simpa [after, zone, next, foldl_lineComment single, drops] using other
    | block ends inner =>
        have zone := ends.after_eq
        rw [after] at zone
        simpa [after, zone, next, foldl_blockComment inner, drops] using other

def withoutComments : Zone → Text → Text
  | _, [] => []
  | zone, c :: t =>
    if zone.drops c t then withoutComments (zone.next c) t else c :: withoutComments (zone.next c) t

def Zone.held : Zone → Text → Text
  | .slash, t => if t.head? == some '/' || t.head? == some '*' then [] else ['/']
  | _, _ => []

theorem stripCommentsIn_eq (zone : Zone) (t : Text) :
    stripCommentsIn zone t = zone.held t ++ withoutComments zone t := by
  induction t generalizing zone with
  | nil => cases zone <;> rfl
  | cons c t ih =>
      cases zone <;>
        simp only [stripCommentsIn, withoutComments, Zone.drops, Zone.next, Zone.held, ih]
      case code =>
        by_cases slash : c = '/'
        · -- The slash is held back here and looked at there.
          by_cases opens : t.head? = some '/' ∨ t.head? = some '*' <;> simp [slash, opens]
        · by_cases quote : c = '"' <;> simp [slash, quote]
      case slash =>
        by_cases slash : c = '/'
        · simp [slash]
        · by_cases opens : c = '*'
          · simp [opens]
          · by_cases quote : c = '"' <;> simp [slash, opens, quote]
      case literal =>
        by_cases slash : c = '\\'
        · simp [slash]
        · by_cases quote : c = '"' <;> simp [slash, quote]
      case escape => simp
      case lineComment => by_cases feed : c = '\n' <;> simp [feed]
      case blockComment star =>
        by_cases closes : star = true ∧ c = '/'
        · simp [closes]
        · by_cases feed : c = '\n' <;> simp [closes, feed]

theorem without_withoutComments (front t : Text) :
    Without IsDropped front t (withoutComments (Zone.after front) t) := by
  induction t generalizing front with
  | nil => exact .nil front
  | cons c t ih =>
      have rest := ih (front ++ [c])
      rw [Zone.after_concat] at rest
      rw [withoutComments]
      split
      · next h => exact .drop (Zone.drops_iff.1 h) rest
      · next h => exact .keep (fun dropped => h (Zone.drops_iff.2 dropped)) rest

theorem without_stripComments (t : Text) : Without IsDropped [] t (stripComments t) := by
  rw [stripComments, stripCommentsIn_eq]
  exact without_withoutComments [] t

def Zone.reread : Zone → Zone
  | .literal => .literal
  | .escape => .escape
  | _ => .code

theorem stripCommentsIn_stripCommentsIn (zone : Zone) (t : Text) :
    stripCommentsIn zone.reread (stripCommentsIn zone t) = stripCommentsIn zone t := by
  induction t generalizing zone with
  | nil => cases zone <;> rfl
  | cons c t ih =>
      have code := ih .code
      have literal := ih .literal
      have escape := ih .escape
      simp only [Zone.reread] at code literal escape
      cases zone with
      | code =>
          by_cases slash : c = '/'
          · rw [stripCommentsIn, if_pos slash]
            exact ih .slash
          · by_cases quote : c = '"' <;> simp [stripCommentsIn, Zone.reread, slash, quote, code, literal]
      | slash =>
          by_cases slash : c = '/'
          · rw [stripCommentsIn, if_pos slash]
            exact ih .lineComment
          · by_cases opens : c = '*'
            · rw [stripCommentsIn, if_neg slash, if_pos opens]
              exact ih (.blockComment false)
            · by_cases quote : c = '"' <;>
                simp [stripCommentsIn, Zone.reread, slash, opens, quote, code, literal]
      | literal =>
          by_cases slash : c = '\\'
          · simp [stripCommentsIn, Zone.reread, slash, escape]
          · by_cases quote : c = '"' <;> simp [stripCommentsIn, Zone.reread, slash, quote, code, literal]
      | escape => simp [stripCommentsIn, Zone.reread, literal]
      | lineComment =>
          by_cases feed : c = '\n'
          · simp [stripCommentsIn, Zone.reread, feed, code]
          · rw [stripCommentsIn, if_neg feed]
            exact ih .lineComment
      | blockComment star =>
          rw [stripCommentsIn]
          split
          · exact code
          · split
            · next feed =>
              subst feed
              have block := ih (.blockComment false)
              simp only [Zone.reread] at block
              simp [stripCommentsIn, Zone.reread, block]
            · exact ih (.blockComment (c == '*'))

theorem stripComments_stripComments (t : Text) : stripComments (stripComments t) = stripComments t :=
  stripCommentsIn_stripCommentsIn .code t

end TidyImports.Json
