import TidyImports.Import.Reading
import TidyImports.Proofs.Script.Rereading

/-! What import declarations say, with the texts that say it. The specifiers of a declaration say what
the lexemes of its wording say, wherever the wording stands in a text; so two texts with one wording
declare the same. -/
namespace TidyImports.Import

open Script

variable {text rest : Text} {offset : Nat} {types isType : Bool} {w : Wording}

inductive Said
  | default (name written : Text)
  | whole (name written : Text)
  | named (naming : Naming) (written : Text)
  deriving DecidableEq, Repr

def said (text : Text) : ImportSpecifier → Said
  | .defaultName name span => .default name (spanText text span)
  | .namespaceName name span => .whole name (spanText text span)
  | .named imported name isType span => .named ⟨imported, name, isType⟩ (spanText text span)

def Said.name : Said → Text
  | .default name _ => name
  | .whole name _ => name
  | .named n _ => n.name

theorem name_said (text : Text) (s : ImportSpecifier) : (said text s).name = s.name := by
  cases s <;> rfl

def saidByName (name : Lexeme) : Said := .default name.token.name name.text

def saidByTail : Tail → List Said
  | .whole star as name => [.whole name.token.name (spelled [star, as, name])]
  | .braces _ items _ => items.map fun item => .named item.value (spelled item.words)

def saidByBinders : Binders → List Said
  | .default name => [saidByName name]
  | .tail rest => saidByTail rest
  | .both name _ rest => saidByName name :: saidByTail rest

def saidBy (w : Wording) : List Said :=
  match w.binders with
  | none => []
  | some (binders, _) => saidByBinders binders

/-- The written text is that of tokens which say this. -/
inductive Said.Valid (types isType : Bool) : Said → Prop
  | default {token : Token} {written : Text} (binding : token.isBinding = true)
    (spells : Spells token written) : Valid types isType (.default token.name written)
  | whole {star as name : Lexeme} {written : Text} (tail : (Tail.whole star as name).Valid types isType)
    (phrase : Phrase [star, as, name]) (spells : spelled [star, as, name] = written) :
    Valid types isType (.whole name.token.name written)
  | named {ls : List Lexeme} {n : Naming} {written : Text} (phrase : Phrase ls)
    (spells : spelled ls = written) (tokens : n.Tokens types isType (ls.map Lexeme.token)) :
    Valid types isType (.named n written)

theorem Said.Valid.unique {n m : Naming} {written : Text}
    (h : (Said.named n written).Valid types isType) (k : (Said.named m written).Valid types isType) :
    n = m := by
  obtain _ | _ | ⟨phrase, spells, tokens⟩ := h
  obtain _ | _ | ⟨phrase', spells', tokens'⟩ := k
  rw [Naming.Tokens, tokens_eq_of_spelled phrase phrase' (spells.trans spells'.symm)] at tokens
  obtain ⟨imported, name, kind⟩ := SpecifierTokens.unique tokens tokens'
  cases n
  cases m
  simp_all

theorem spanText_ofBounds {s : Text} (h : text.RestAt offset (s ++ rest)) :
    spanText text (Edit.Span.ofBounds offset (offset + s.width)) = s := by
  rw [spanText, Edit.Span.start_ofBounds, Edit.Span.stop_ofBounds,
    Nat.max_eq_right (Nat.le_add_right _ _)]
  exact h.slice_eq

theorem spanText_spelled {ls : List Lexeme} (h : text.RestAt offset (fullText ls ++ rest)) :
    spanText text (Edit.Span.ofBounds offset (offset + (spelled ls).width)) = spelled ls := by
  rw [fullText_eq, List.append_assoc] at h
  exact spanText_ofBounds h

theorem map_said_valuesAt {items : List (Listed Naming)}
    (h : text.RestAt offset (fullText (items.flatMap Listed.lexemes) ++ rest)) :
    (Listed.valuesAt Naming.specifier offset items).map (said text) =
      items.map fun item => Said.named item.value (spelled item.words) := by
  induction items generalizing offset with
  | nil => rfl
  | cons item items ih =>
      rw [List.flatMap_cons, fullText_append, List.append_assoc] at h
      have own : text.RestAt offset (fullText item.words ++ (fullText item.comma.toList ++
          (fullText (items.flatMap Listed.lexemes) ++ rest))) := by
        rw [Listed.lexemes, fullText_append, List.append_assoc] at h
        exact h
      rw [Listed.valuesAt, List.map_cons, List.map_cons, ih h.append, Naming.specifier, said,
        spanText_spelled own]

theorem map_said_tail {tail : Tail} (h : text.RestAt offset (fullText tail.lexemes ++ rest)) :
    (tail.specifiers offset).map (said text) = saidByTail tail := by
  cases tail with
  | whole star as name =>
      rw [Tail.lexemes] at h
      rw [Tail.specifiers, List.map_singleton, said, spanText_spelled h, saidByTail]
  | braces opening items closing =>
      rw [Tail.lexemes, fullText_cons, fullText_append, List.append_assoc, List.append_assoc] at h
      exact map_said_valuesAt h.append

theorem said_defaultAt {name : Lexeme} (h : text.RestAt offset (name.full ++ rest)) :
    said text (Binders.defaultAt offset name) = saidByName name := by
  rw [Lexeme.full, List.append_assoc] at h
  rw [Binders.defaultAt, said, spanText_ofBounds h, saidByName]

theorem map_said_binders {binders : Binders}
    (h : text.RestAt offset (fullText binders.lexemes ++ rest)) :
    (binders.specifiers offset).map (said text) = saidByBinders binders := by
  cases binders with
  | default name =>
      rw [Binders.lexemes, fullText_cons, fullText_nil, List.append_nil] at h
      rw [Binders.specifiers, List.map_singleton, said_defaultAt h, saidByBinders]
  | tail tail => exact map_said_tail h
  | both name comma tail =>
      rw [Binders.lexemes, fullText_cons, fullText_cons, List.append_assoc, List.append_assoc] at h
      rw [Binders.specifiers, List.map_cons, said_defaultAt h, map_said_tail h.append.append,
        saidByBinders]

theorem map_said_specifiers (h : text.RestAt offset (fullText w.lexemes ++ rest)) :
    (w.specifiers offset).map (said text) = saidBy w := by
  rw [Wording.lexemes, fullText_append, List.append_assoc] at h
  have place := h.append
  rw [Wording.specifiers, saidBy]
  rw [Wording.bound] at place
  cases hbinders : w.binders with
  | none => rfl
  | some found =>
      rw [hbinders] at place
      simp only [boundBy, fullText_append, List.append_assoc] at place
      exact map_said_binders place

theorem valid_saidByName {name : Lexeme} (binding : name.token.isBinding = true)
    (spells : Spells name.token name.text) : (saidByName name).Valid types isType :=
  .default binding spells

theorem valid_of_list {items : List (Listed Naming)} (list : IsList (Naming.Tokens types isType) items)
    (phrase : Phrase (items.flatMap Listed.lexemes)) :
    ∀ item ∈ items, (Said.named item.value (spelled item.words)).Valid types isType := by
  have own {item : Listed Naming} (tokens : item.value.Tokens types isType (item.words.map Lexeme.token))
      (phrase : Phrase item.lexemes) : (Said.named item.value (spelled item.words)).Valid types isType :=
    .named (Phrase.append_iff.1 phrase).1 rfl tokens
  induction list with
  | nil => simp
  | last tokens noComma =>
      rw [List.flatMap_singleton] at phrase
      exact List.forall_mem_singleton.2 (own tokens phrase)
  | cons tokens comma mark more ih =>
      rw [List.flatMap_cons] at phrase
      obtain ⟨first, others, -⟩ := Phrase.append_iff.1 phrase
      exact List.forall_mem_cons.2 ⟨own tokens first, ih others⟩

theorem valid_saidByTail {tail : Tail} (valid : tail.Valid types isType) (phrase : Phrase tail.lexemes) :
    ∀ s ∈ saidByTail tail, s.Valid types isType := by
  cases valid with
  | whole mark word binding =>
      exact List.forall_mem_singleton.2 (.whole (.whole mark word binding) phrase rfl)
  | braces opens list closes =>
      obtain ⟨-, -, more⟩ := Phrase.cons_iff.1 phrase
      exact List.forall_mem_map.2 (valid_of_list list (Phrase.append_iff.1 more).1)

theorem valid_saidByBinders {binders : Binders} (valid : binders.Valid types isType)
    (phrase : Phrase binders.lexemes) : ∀ s ∈ saidByBinders binders, s.Valid types isType := by
  cases valid with
  | default binding =>
      exact List.forall_mem_singleton.2 (valid_saidByName binding (Phrase.singleton_iff.1 phrase))
  | tail more => exact valid_saidByTail more phrase
  | both binding mark more other =>
      obtain ⟨own, -, behind⟩ := Phrase.cons_iff.1 phrase
      have last := (Phrase.cons_iff.1 behind).2.2
      exact List.forall_mem_cons.2 ⟨valid_saidByName binding own, valid_saidByTail more last⟩

theorem valid_saidBy (valid : w.Valid types) (phrase : Phrase w.lexemes) :
    ∀ s ∈ saidBy w, s.Valid types w.isType := by
  rw [saidBy]
  cases hbinders : w.binders with
  | none => simp
  | some found =>
      obtain ⟨binders, from'⟩ := found
      have inner : Phrase (binders.lexemes ++ [from']) := by
        have behind := (Phrase.append_iff.1 phrase).2.1
        rw [Wording.bound, hbinders] at behind
        exact (Phrase.append_iff.1 behind).1
      exact valid_saidByBinders (valid.binders binders from' hbinders).1 (Phrase.append_iff.1 inner).1

theorem spanText_source (h : text.RestAt offset (fullText w.lexemes ++ rest)) :
    spanText text (w.declaration offset).source.span = w.source.text := by
  rw [Wording.lexemes, fullText_append, fullText_append, fullText_cons, List.append_assoc,
    List.append_assoc, List.append_assoc, Lexeme.full, List.append_assoc] at h
  exact spanText_ofBounds h.append.append

def attributesText? : List Lexeme → Option Text
  | [] => none
  | _ :: rest => some (spelled rest)

theorem map_attributes (h : text.RestAt offset (fullText w.lexemes ++ rest)) :
    (w.declaration offset).attributes.map (spanText text) = attributesText? w.attributes := by
  rw [Wording.lexemes, fullText_append, fullText_append, fullText_cons, fullText_append,
    List.append_assoc, List.append_assoc, List.append_assoc, List.append_assoc] at h
  have place := h.append.append.append
  rw [Wording.declaration]
  cases hattributes : w.attributes with
  | nil => rfl
  | cons keyword more =>
      rw [hattributes, fullText_cons, List.append_assoc] at place
      rw [attributesSpan?, Option.map_some, attributesText?]
      exact congrArg some (spanText_spelled place.append)

theorem spanText_declaration (h : text.RestAt offset (fullText w.lexemes ++ rest)) :
    spanText text (w.declaration offset).span = spelled w.lexemes := spanText_spelled h

def NamedBinding.naming (b : NamedBinding) : Naming := ⟨b.imported, b.name, b.isType⟩

theorem said_of_mem_usedBindings {isUsed : Text → Bool} {specifiers : List ImportSpecifier}
    {attached : List SpecifierComments} {b : NamedBinding}
    (h : b ∈ usedBindings text isUsed specifiers attached) :
    Said.named b.naming b.text ∈ specifiers.map (said text) ∧
      (⟨b.leading, b.trailing⟩ : SpecifierComments) ∈ ⟨[], []⟩ :: attached := by
  induction specifiers generalizing attached with
  | nil => cases h
  | cons specifier rest ih =>
      have later {attached' : List SpecifierComments} (hsub : attached' ⊆ attached)
          (hb : b ∈ usedBindings text isUsed rest attached') :
          Said.named b.naming b.text ∈ (specifier :: rest).map (said text) ∧
            (⟨b.leading, b.trailing⟩ : SpecifierComments) ∈ ⟨[], []⟩ :: attached := by
        obtain ⟨naming, own⟩ := ih hb
        exact ⟨List.mem_cons_of_mem _ naming, List.cons_subset_cons _ hsub own⟩
      cases specifier with
      | defaultName name span => exact later (List.Subset.refl _) h
      | namespaceName name span => exact later (List.Subset.refl _) h
      | named imported name isType span =>
          rw [usedBindings] at h
          split at h
          · rcases List.mem_cons.1 h with rfl | h
            · refine ⟨by simp [said, NamedBinding.naming], ?_⟩
              cases attached <;> simp
            · exact later (fun own => List.mem_of_mem_tail) h
          · exact later (fun own => List.mem_of_mem_tail) h

end TidyImports.Import
