import TidyImports.Proofs.Import.Layout
import TidyImports.Proofs.Text.Pieces

/-! Printed imports as wordings. A modified import is printed with fresh words and marks around what was
written, so the lexemes of its parts with single spaces between them are a wording of the printed text,
and this text is parsed to one declaration with the parts of the import. -/
namespace TidyImports.Import

open Script

variable {types isType : Bool} {o : Item} {newline written x text : Text} {tail : Tail} {binders : Binders}
  {star as name : Lexeme} {words : NamedBinding → List Lexeme} {specifiers : List ImportSpecifier}
  {attached : List SpecifierComments} {dialect : Dialect}

/-! What specifiers bind. -/

def Said.default? : Said → Option Text
  | .default _ written => some written
  | _ => none

def Said.whole? : Said → Option Text
  | .whole _ written => some written
  | _ => none

def Said.named? : Said → Option NamedBinding
  | .named n written => some ⟨written, n.imported, n.name, n.isType, [], []⟩
  | _ => none

def NamedBinding.bare (b : NamedBinding) : NamedBinding := { b with leading := [], trailing := [] }

structure Binds (o : Item) (said : List Said) : Prop where
  default : said.findSome? Said.default? = o.defaultName
  whole : said.findSome? Said.whole? = o.namespaceName
  named : said.filterMap Said.named? = o.named.map NamedBinding.bare

section Used

variable {isUsed : Text → Bool} (all : ∀ specifier ∈ specifiers, isUsed specifier.name = true)
include all

theorem usedDefault_of_all (text : Text) :
    usedDefault text isUsed specifiers = (specifiers.map (said text)).findSome? Said.default? := by
  induction specifiers with
  | nil => rfl
  | cons specifier rest ih =>
      obtain ⟨own, others⟩ := List.forall_mem_cons.1 all
      cases specifier with
      | defaultName name span =>
          have used : isUsed name = true := own
          simp [usedDefault, said, List.findSome?_cons, Said.default?, used]
      | namespaceName | named => exact ih others

theorem usedNamespace_of_all (text : Text) :
    usedNamespace text isUsed specifiers = (specifiers.map (said text)).findSome? Said.whole? := by
  induction specifiers with
  | nil => rfl
  | cons specifier rest ih =>
      obtain ⟨own, others⟩ := List.forall_mem_cons.1 all
      cases specifier with
      | namespaceName name span =>
          have used : isUsed name = true := own
          simp [usedNamespace, said, List.findSome?_cons, Said.whole?, used]
      | defaultName | named => exact ih others

theorem usedBindings_of_all (text : Text) (attached : List SpecifierComments) :
    (usedBindings text isUsed specifiers attached).map NamedBinding.bare =
      (specifiers.map (said text)).filterMap Said.named? := by
  induction specifiers generalizing attached with
  | nil => rfl
  | cons specifier rest ih =>
      obtain ⟨own, others⟩ := List.forall_mem_cons.1 all
      cases specifier with
      | defaultName | namespaceName => exact ih others attached
      | named imported name isType span =>
          have used : isUsed name = true := own
          rw [usedBindings, if_pos used]
          exact congrArg (_ :: ·) (ih others attached.tail)

end Used

/-! What is printed between the words `import` and `from`. -/

def space : List GapPiece := [.blank ' ']

theorem steady_space : Steady space := .blank (by decide) .nil

def spacedWord (name : String) : Lexeme := ⟨.word name false, name.toList, space⟩

theorem phrase_spacedWord {name : String} {ms : List Lexeme} (plain : isPlainWord name.toList = true)
    (h : Phrase ms) : Phrase (spacedWord name :: ms) :=
  .cons (spells_word plain) steady_space (fun m _ => endsAll_space m.text _) h

def openingBrace (gap : List GapPiece) : Lexeme := ⟨.symbol "\x7b", ['\x7b'], gap⟩

def closingBrace : Lexeme := ⟨.symbol "\x7d", ['\x7d'], space⟩

def wholeTail (star as name : Lexeme) : Tail := .whole star as { name with gap := space }

def bracesTail (newline : Text) (words : NamedBinding → List Lexeme) (named : List NamedBinding) : Tail :=
  .braces (openingBrace (printedGap newline named)) (printedItems newline words named) closingBrace

/-- What stands behind the default name of a printed import, with a space behind it. -/
structure PrintedTail (types : Bool) (newline : Text) (o : Item) (tail : Tail) (x : Text) : Prop where
  valid : tail.Valid types o.isType
  phrase : Phrase tail.lexemes
  last : lastGap tail.lexemes = space
  text : fullText tail.lexemes = x ++ [' ']
  parts : o.namespaceName.toList ++
    (if o.named.isEmpty then [] else [renderNamed newline o.named]) = [x]
  binds : Binds { o with defaultName := none } (saidByTail tail)

theorem printedTail_whole (h : WholeName types o.isType written star as name)
    (whole : o.namespaceName = some written) (named : o.named = []) :
    PrintedTail types newline o (wholeTail star as name) written := by
  have spaced : (wholeTail star as name).lexemes = withLastGap space [star, as, name] := rfl
  refine ⟨?_, ?_, ?_, ?_, by simp [whole, named], ?_⟩
  · obtain ⟨mark, word, binding⟩ := h.valid
    exact .whole mark word binding
  · rw [spaced, phrase_withLastGap_iff]
    exact h.phrase
  · rw [spaced, lastGap_withLastGap _ (by simp)]
  · rw [spaced, fullText_eq, spelled_withLastGap, lastGap_withLastGap _ (by simp), h.spells]
    rfl
  · have spells : spelled [star, as, { name with gap := space }] = written :=
      (spelled_withLastGap space [star, as, name]).trans h.spells
    refine ⟨rfl, ?_, ?_⟩
    · simp [wholeTail, saidByTail, Said.whole?, spells, whole]
    · simp [wholeTail, saidByTail, Said.named?, named]

theorem printedTail_braces (none : o.namespaceName = none) (inhabited : o.named ≠ [])
    (hnewline : IsNewline newline)
    (formed : ∀ b ∈ o.named, ∀ comment ∈ b.leading ++ b.trailing, IsComment comment)
    (own : ∀ b ∈ o.named, Words types o.isType b (words b))
    (printable : ∀ b ∈ o.named, b.Printable) :
    PrintedTail types newline o (bracesTail newline words o.named) (renderNamed newline o.named) := by
  have printed := printed_printedItems inhabited hnewline formed own printable
  have closing : Phrase [closingBrace] :=
    .cons_mark rfl (by decide) (by decide) rfl steady_space .nil
  have closes : EndsAll closingBrace.text := .of_head (by decide) (by decide) []
  refine ⟨.braces rfl printed.list rfl, ?_, ?_, ?_, by simp [none, inhabited], ?_⟩
  · exact .cons_mark rfl (by decide) (by decide) rfl printed.steady (printed.phrase closing closes)
  · rw [bracesTail, Tail.lexemes, lastGap, ← List.cons_append, List.getLast?_concat]
    rfl
  · rw [← printed.text, bracesTail, Tail.lexemes, fullText_cons, fullText_append]
    simp [openingBrace, closingBrace, Lexeme.full, space, GapPiece.text]
  · have said : saidByTail (bracesTail newline words o.named) =
        o.named.map fun b => Said.named b.naming b.text := printed.said
    rw [said]
    refine ⟨?_, ?_, ?_⟩
    · simp [Said.default?]
    · simp [Said.whole?, none]
    · rw [List.filterMap_map]
      exact congrFun List.filterMap_eq_map _

/-- What stands between the words `import` and `from` of a printed import, with a space behind it. -/
structure PrintedBinders (types : Bool) (newline : Text) (o : Item) (binders : Binders) : Prop where
  valid : binders.Valid types o.isType
  phrase : Phrase binders.lexemes
  last : lastGap binders.lexemes = space
  text : fullText binders.lexemes = o.clause newline ++ [' ']
  binds : Binds o (saidByBinders binders)

theorem printedBinders_tail (h : PrintedTail types newline o tail x) (none : o.defaultName = none) :
    PrintedBinders types newline o (.tail tail) where
  valid := .tail h.valid
  phrase := h.phrase
  last := h.last
  text := by
    rw [Item.clause, none, Option.toList_none, List.nil_append, h.parts]
    exact h.text
  binds := by
    have same : { o with defaultName := Option.none } = o := by rw [← none]
    exact same ▸ h.binds

section Default

variable {token : Token} (binding : token.isBinding = true) (spells : Spells token written)
  (default : o.defaultName = some written)
include binding spells default

theorem printedBinders_default (whole : o.namespaceName = none) (named : o.named = []) :
    PrintedBinders types newline o (.default ⟨token, written, space⟩) where
  valid := .default binding
  phrase := Phrase.singleton_iff.2 spells
  last := rfl
  text := by simp [Binders.lexemes, Lexeme.full, space, GapPiece.text, Item.clause, default, whole,
    named, Text.glue]
  binds := by
    refine ⟨default.symm, ?_, ?_⟩
    · simp [saidByBinders, saidByName, Said.whole?, whole]
    · simp [saidByBinders, saidByName, Said.named?, named]

theorem printedBinders_both (h : PrintedTail types newline o tail x)
    (other : o.isType = true → token ≠ .word "from" false) :
    PrintedBinders types newline o (.both ⟨token, written, []⟩ (commaBefore space) tail) where
  valid := .both binding rfl h.valid other
  phrase := by
    have behind : Phrase (commaBefore space :: tail.lexemes) :=
      .cons_mark rfl (by decide) (by decide) rfl steady_space h.phrase
    refine .cons spells .nil (fun m hm => ?_) behind
    cases Option.some.inj hm
    exact EndsAll.of_head (by decide) (by decide) [] token
  last := by
    have inhabited : tail.lexemes ≠ [] := by cases tail <;> simp [Tail.lexemes]
    rw [← h.last, lastGap, lastGap, Binders.lexemes]
    simp [List.getLast?_cons, List.getLast?_eq_some_getLast inhabited]
  text := by
    rw [Item.clause, default, List.append_assoc, h.parts, Binders.lexemes, fullText_cons,
      fullText_cons, h.text]
    simp [Lexeme.full, commaBefore, space, GapPiece.text, Text.glue]
  binds := by
    obtain ⟨-, whole, named⟩ := h.binds
    exact ⟨default.symm, whole, named⟩

end Default

/-- Where the comments of a printed import stand: nowhere, or between the braces. -/
inductive CommentsInBraces (types : Bool) (newline : Text) (o : Item) : Binders → Prop
  | bare {binders : Binders} (named : o.named = [])
    (blank : ∀ l ∈ binders.lexemes, ∀ piece ∈ l.gap, piece.isComment = false) :
    CommentsInBraces types newline o binders
  | alone {words : NamedBinding → List Lexeme} (inhabited : o.named ≠ [])
    (own : ∀ b ∈ o.named, Words types o.isType b (words b)) :
    CommentsInBraces types newline o (.tail (bracesTail newline words o.named))
  | behind {words : NamedBinding → List Lexeme} {name : Lexeme} (inhabited : o.named ≠ [])
    (own : ∀ b ∈ o.named, Words types o.isType b (words b)) (blank : name.gap = []) :
    CommentsInBraces types newline o
      (.both name (commaBefore space) (bracesTail newline words o.named))

theorem exists_printedBinders (h : WellWritten types o) (hnewline : IsNewline newline)
    (printable : ∀ b ∈ o.named, b.Printable) :
    ∃ binders, PrintedBinders types newline o binders ∧ CommentsInBraces types newline o binders := by
  have spaced : ∀ piece ∈ space, piece.isComment = false := by simp [space, GapPiece.isComment]
  cases whole : o.namespaceName with
  | some written =>
      obtain ⟨named, star, as, name, own⟩ := h.whole written whole
      have tail : PrintedTail types newline o (wholeTail star as name) written :=
        printedTail_whole own whole named
      have blank : ∀ l ∈ (wholeTail star as name).lexemes, ∀ piece ∈ l.gap, piece.isComment = false := by
        intro l hl
        have split : l ∈ [star, as] ++ [{ name with gap := space }] := hl
        rcases List.mem_append.1 split with hl | hl
        · exact own.blank l hl
        · rwa [List.mem_singleton.1 hl]
      cases default : o.defaultName with
      | none => exact ⟨_, printedBinders_tail tail default, .bare named blank⟩
      | some first =>
          obtain ⟨token, binding, spells, alone⟩ := h.default first default
          have other : o.isType = true → token ≠ .word "from" false := fun isType same => by
            rw [(alone isType same).1] at whole
            cases whole
          refine ⟨_, printedBinders_both binding spells default tail other, .bare named ?_⟩
          exact List.forall_mem_cons.2 ⟨by simp, List.forall_mem_cons.2 ⟨spaced, blank⟩⟩
  | none =>
      by_cases named : o.named = []
      · obtain ⟨first, default⟩ : ∃ first, o.defaultName = some first := by
          have inhabited := h.inhabited
          rw [Item.isEmpty, whole, named] at inhabited
          exact Option.isSome_iff_exists.1 (by simpa using inhabited)
        obtain ⟨token, binding, spells, -⟩ := h.default first default
        exact ⟨_, printedBinders_default binding spells default whole named,
          .bare named (List.forall_mem_singleton.2 spaced)⟩
      · choose! words own using fun b (hb : b ∈ o.named) => (h.named b hb).exists_words
        have tail := printedTail_braces whole named hnewline (fun b hb => (h.named b hb).comments) own
          printable
        cases default : o.defaultName with
        | none => exact ⟨_, printedBinders_tail tail default, .alone named own⟩
        | some first =>
            obtain ⟨token, binding, spells, alone⟩ := h.default first default
            have other : o.isType = true → token ≠ .word "from" false := fun isType same =>
              named (alone isType same).2
            exact ⟨_, printedBinders_both binding spells default tail other, .behind named own rfl⟩

/-! Printed declarations. -/

def printedEnding (semicolon : Bool) : List Lexeme :=
  if semicolon then [⟨.symbol ";", [';'], []⟩] else []

theorem phrase_printedEnding (semicolon : Bool) : Phrase (printedEnding semicolon) := by
  cases semicolon with
  | false => exact .nil
  | true => exact .cons_mark rfl (by decide) (by decide) rfl .nil .nil

def printedWording (o : Item) (binders : Binders) : Wording where
  opening := spacedWord "import" :: if o.isType then [spacedWord "type"] else []
  binders := some (binders, spacedWord "from")
  source := ⟨.string o.module, o.source, []⟩
  attributes := []
  ending := printedEnding o.semicolon
  value := o.module
  isType := o.isType
  hasPhase := false

theorem valid_printedWording (h : WellWritten types o) (valid : binders.Valid types o.isType) :
    (printedWording o binders).Valid types where
  opening := by
    have kind := h.kind
    rw [printedWording]
    cases isType : o.isType with
    | false => exact .plain
    | true => exact .typed (kind isType)
  binders := by
    rintro _ _ ⟨⟩
    exact ⟨valid, rfl⟩
  bare := by simp [printedWording]
  source := rfl
  attributes := .none
  ending := by
    cases semicolon : o.semicolon with
    | false => simp [printedWording, printedEnding, semicolon]
    | true => simp [printedWording, printedEnding, semicolon]

theorem phrase_printedWording (h : WellWritten types o)
    (printed : PrintedBinders types newline o binders) : Phrase (printedWording o binders).lexemes := by
  have source : Phrase (⟨.string o.module, o.source, []⟩ :: printedEnding o.semicolon) :=
    .cons h.source .nil (fun _ _ => trivial) (phrase_printedEnding o.semicolon)
  have behind : Phrase (binders.lexemes ++ spacedWord "from" :: ⟨.string o.module, o.source, []⟩ ::
      printedEnding o.semicolon) := by
    refine printed.phrase.append (phrase_spacedWord (by decide) source) (printed.last ▸ steady_space) ?_
    rw [printed.last]
    exact fun m _ => endsAll_space m.text
  rw [Wording.lexemes, Wording.bound, printedWording]
  simp only [boundBy, List.append_assoc, List.singleton_append, List.nil_append]
  split
  · exact phrase_spacedWord (by decide) (phrase_spacedWord (by decide) behind)
  · exact phrase_spacedWord (by decide) behind

theorem lastGap_printedWording (o : Item) (binders : Binders) :
    lastGap (printedWording o binders).lexemes = [] := by
  rw [Wording.lexemes, lastGap, List.getLast?_append, List.getLast?_append, printedWording]
  cases o.semicolon <;> rfl

theorem spelled_printedWording (printed : PrintedBinders types newline o binders)
    (modified : o.modified = true) (attributes : o.attributes = none) :
    spelled (printedWording o binders).lexemes = o.render newline := by
  have whole := fullText_eq (printedWording o binders).lexemes
  rw [lastGap_printedWording, gapText_nil, List.append_nil] at whole
  rw [← whole, Item.render, if_pos modified, attributes, Wording.lexemes, Wording.bound]
  simp only [printedWording, boundBy, fullText_append, fullText_cons, printed.text]
  cases o.isType <;> cases o.semicolon <;>
    simp [printedEnding, spacedWord, Lexeme.full, space, GapPiece.text]

/-! What a printed import is read as. -/

/-- A declaration of a text says what an import says: everything but the comments of its bindings. -/
structure Restates (text : Text) (d : ImportDeclaration) (o : Item) : Prop where
  module : d.source.value = o.module
  source : spanText text d.source.span = o.source
  attributes : d.attributes.map (spanText text) = o.attributes
  isType : d.isType = o.isType
  noPhase : d.hasPhase = false
  semicolon : (spanText text d.span).trimEnd.endsWith [';'] = o.semicolon
  default : usedDefault text (fun _ => true) d.specifiers = o.defaultName
  whole : usedNamespace text (fun _ => true) d.specifiers = o.namespaceName
  named : ∀ attached, (usedBindings text (fun _ => true) d.specifiers attached).map NamedBinding.bare =
    o.named.map NamedBinding.bare

variable {w : Wording} {comments : List Edit.Span} {d : ImportDeclaration} {rest : Text}

/-- A wording says what an import says, in the words of a text. -/
structure Says (types : Bool) (o : Item) (printed : Text) (w : Wording) : Prop where
  valid : w.Valid types
  phrase : Phrase w.lexemes
  spelled : spelled w.lexemes = printed
  binds : Binds o (saidBy w)
  module : w.value = o.module
  source : w.source.text = o.source
  attributes : attributesText? w.attributes = o.attributes
  isType : w.isType = o.isType
  noPhase : w.hasPhase = false
  semicolon : printed.trimEnd.endsWith [';'] = o.semicolon

theorem attributesText?_withGap (gap : List GapPiece) (w : Wording) :
    attributesText? (w.withGap gap).attributes = attributesText? w.attributes := by
  obtain same | same := w.attributes_withGap gap
  · rw [same]
  · rw [same]
    match w.attributes with
    | [] | [_] => rfl
    | keyword :: l :: more =>
        rw [withLastGap_cons _ _ (by simp), attributesText?, attributesText?, spelled_withLastGap]

theorem Says.withGap {printed : Text} (h : Says types o printed w) (gap : List GapPiece) :
    Says types o printed (w.withGap gap) := by
  obtain ⟨binders, value, isType, hasPhase, source⟩ := w.withGap_fields gap
  refine ⟨w.valid_withGap gap h.valid, Wording.phrase_withGap_iff.2 h.phrase,
    (w.spelled_withGap gap).trans h.spelled, ?_, value.trans h.module, source.trans h.source,
    (attributesText?_withGap gap w).trans h.attributes, isType.trans h.isType,
    hasPhase.trans h.noPhase, h.semicolon⟩
  rw [saidBy, binders]
  exact h.binds

theorem Says.restates {printed : Text} (h : Says types o printed w)
    (worded : Worded dialect text comments d w rest) : Restates text d o := by
  have said : d.specifiers.map (said text) = saidBy w := by
    rw [worded.declares]
    exact map_said_specifiers worded.place
  have all : ∀ specifier ∈ d.specifiers, (fun _ : Text => true) specifier.name = true := fun _ _ => rfl
  refine ⟨?_, ?_, ?_, ?_, ?_, ?_, ?_, ?_, fun attached => ?_⟩
  · rw [worded.declares]
    exact h.module
  · rw [worded.declares, spanText_source worded.place, h.source]
  · rw [worded.declares, map_attributes worded.place, h.attributes]
  · rw [worded.declares]
    exact h.isType
  · rw [worded.declares]
    exact h.noPhase
  · rw [worded.declares, spanText_declaration worded.place, h.spelled, h.semicolon]
  · rw [usedDefault_of_all all, said, h.binds.default]
  · rw [usedNamespace_of_all all, said, h.binds.whole]
  · rw [usedBindings_of_all all, said, h.binds.named]

theorem exists_worded_of_wording (valid : w.Valid dialect.types) (phrase : Phrase w.lexemes)
    (closed : lastGap w.lexemes = []) :
    ∃ program d, parse dialect (spelled w.lexemes) = .ok program ∧
      program.statements = [⟨d.span, .importing d⟩] ∧
      spanText (spelled w.lexemes) d.span = spelled w.lexemes ∧
      Worded dialect (spelled w.lexemes) program.comments d w [] := by
  obtain ⟨program, parsed, statements, comments⟩ := parse_wording valid phrase closed
  have place : (spelled w.lexemes).RestAt 0 (fullText w.lexemes ++ []) := by
    rw [fullText_eq, closed, gapText_nil, List.append_nil, List.append_nil]
    exact Text.restAt_zero _
  have start : (w.declaration 0).span.start = 0 := rfl
  refine ⟨program, w.declaration 0, parsed, statements, spanText_declaration place, valid, phrase, ?_, ?_,
    fun l hl => ?_, [], [], ?_, by simp, by simp⟩
  · rw [start]
  · rw [start]
    exact place
  · have gap : l.gap = [] := by
      rw [lastGap, Option.mem_def.1 hl] at closed
      exact closed
    exact ⟨gap ▸ .nil, by rw [gap]; exact l.token.endsBefore_nil⟩
  · rw [comments, start, List.append_nil, List.nil_append]

theorem semicolon_render (h : WellWritten types o) (modified : o.modified = true)
    (attributes : o.attributes = none) :
    (o.render newline).trimEnd.endsWith [';'] = o.semicolon := by
  obtain ⟨quote, body, quoted, source⟩ : ∃ quote body, (quote = '"' ∨ quote = '\'') ∧
      o.source = quote :: body ++ [quote] := by
    have found := h.source.scan [] trivial
    obtain ⟨quote, body, quoted, whole⟩ := (scanToken?_eq_some found).2
    rw [List.append_nil] at whole
    exact ⟨quote, body, quoted, whole⟩
  obtain ⟨before, c, visible, whole, same⟩ : ∃ before c, Text.isBlank c = false ∧
      o.render newline = before ++ [c] ∧ (c = ';' ↔ o.semicolon = true) := by
    rw [Item.render, if_pos modified, attributes, source]
    generalize "import ".toList ++ (if o.isType then "type ".toList else []) ++ o.clause newline ++
      " from ".toList = front
    cases o.semicolon with
    | true => exact ⟨front ++ (quote :: body ++ [quote]), ';', by decide, by simp, by simp⟩
    | false =>
        have other : Text.isBlank quote = false ∧ quote ≠ ';' := by
          rcases quoted with rfl | rfl <;> decide
        exact ⟨front ++ quote :: body, quote, other.1, by simp, by simp [other.2]⟩
  have trimmed : Text.trimEnd (before ++ [c]) = before ++ [c] := trimEnd_append_cons visible []
  rw [whole, trimmed, Bool.eq_iff_iff, ← same, Text.endsWith, Option.isSome_iff_exists]
  simp only [Text.stripTail?_eq_some]
  constructor
  · rintro ⟨_, ends⟩
    exact List.singleton_inj.1 (List.append_inj_right' ends rfl)
  · rintro rfl
    exact ⟨before, rfl⟩

theorem binds_wholeImport {isUsed : Text → Bool} (h : Worded dialect text comments d w rest)
    (unmodified : (wholeImport text isUsed d attached).modified = false) :
    Binds (wholeImport text isUsed d attached) (saidBy w) := by
  have all : ∀ specifier ∈ d.specifiers, isUsed specifier.name = true := by
    simpa using List.any_eq_false.1 unmodified
  have said : d.specifiers.map (said text) = saidBy w := by
    rw [h.declares]
    exact map_said_specifiers h.place
  rw [← said]
  exact ⟨(usedDefault_of_all all text).symm, (usedNamespace_of_all all text).symm,
    (usedBindings_of_all all text attached).symm⟩

variable {program : Program} {order : TypeOrder} {ins : List Item}

def Reread (dialect : Dialect) (printed : Text) (o : Item) : Prop :=
  ∃ program d, parse dialect printed = .ok program ∧
    program.statements = [⟨d.span, .importing d⟩] ∧ spanText printed d.span = printed ∧
    Restates printed d o

theorem says_unmodified (h : parse dialect text = .ok program) (read : IsRead text program o)
    (thawed : o.frozen = false) (unmodified : o.modified = false) :
    ∃ w, Says dialect.types o (o.render newline) w ∧ lastGap w.lexemes = [] := by
  obtain ⟨frozen, -, -⟩ | ⟨d, hd, isUsed, attached, -, phase, rfl, -⟩ := read.cases
  · rw [thawed] at frozen
    cases frozen
  · obtain ⟨w, rest, worded⟩ := exists_worded h hd
    have written : (wholeImport text isUsed d attached).render newline = spelled w.lexemes := by
      have place := spanText_declaration worded.place
      rw [← worded.declares] at place
      rw [Item.render, unmodified, if_neg (by simp)]
      exact place
    have saying : Says dialect.types (wholeImport text isUsed d attached)
        ((wholeImport text isUsed d attached).render newline) w := by
      refine ⟨worded.valid, worded.phrase, written.symm, binds_wholeImport worded unmodified, ?_, ?_, ?_,
        ?_, ?_, ?_⟩
      · exact (congrArg (fun d => d.source.value) worded.declares).symm
      · have source := spanText_source worded.place
        rw [← worded.declares] at source
        exact source.symm
      · have attributes := map_attributes worded.place
        rw [← worded.declares] at attributes
        exact attributes.symm
      · exact (congrArg ImportDeclaration.isType worded.declares).symm
      · rw [worded.declares] at phase
        exact phase
      · rw [Item.render, unmodified, if_neg (by simp)]
        rfl
    exact ⟨w.withGap [], saying.withGap [], w.lastGap_withGap []⟩

theorem reread_of_saying {printed : Text} (saying : Says dialect.types o printed w)
    (closed : lastGap w.lexemes = []) : Reread dialect printed o := by
  obtain ⟨again, d, parsed, statements, whole, worded⟩ :=
    exists_worded_of_wording saying.valid saying.phrase closed
  have restates := saying.restates worded
  rw [saying.spelled] at parsed whole restates
  exact ⟨again, d, parsed, statements, whole, restates⟩

theorem says_printedWording (h : WellWritten types o) (modified : o.modified = true)
    (attributes : o.attributes = none) (printed : PrintedBinders types newline o binders) :
    Says types o (o.render newline) (printedWording o binders) :=
  ⟨valid_printedWording h printed.valid, phrase_printedWording h printed,
    spelled_printedWording printed modified attributes, printed.binds, rfl, rfl, attributes.symm, rfl,
    rfl, semicolon_render h modified attributes⟩

theorem exists_worded_render (h : WellWritten dialect.types o) (modified : o.modified = true)
    (attributes : o.attributes = none) (hnewline : IsNewline newline)
    (printable : ∀ b ∈ o.named, b.Printable) :
    ∃ program d binders, parse dialect (o.render newline) = .ok program ∧
      program.statements = [⟨d.span, .importing d⟩] ∧
      spanText (o.render newline) d.span = o.render newline ∧
      PrintedBinders dialect.types newline o binders ∧ CommentsInBraces dialect.types newline o binders ∧
      Worded dialect (o.render newline) program.comments d (printedWording o binders) [] ∧
      Restates (o.render newline) d o := by
  obtain ⟨binders, printed, braces⟩ := exists_printedBinders h hnewline printable
  have saying := says_printedWording h modified attributes printed
  obtain ⟨program, d, parsed, statements, whole, worded⟩ :=
    exists_worded_of_wording saying.valid saying.phrase (lastGap_printedWording o binders)
  have restates := saying.restates worded
  rw [saying.spelled] at parsed whole worded restates
  exact ⟨program, d, binders, parsed, statements, whole, printed, braces, worded, restates⟩

theorem says_organized (h : parse dialect text = .ok program) (read : ∀ i ∈ ins, IsRead text program i)
    (ho : o ∈ organizeGroup order ins) (thawed : o.frozen = false) (hnewline : IsNewline newline)
    (plain : o.modified = true → o.attributes = none ∧ ∀ b ∈ o.named, b.Printable) :
    ∃ w, Says dialect.types o (o.render newline) w ∧ lastGap w.lexemes = [] := by
  have organized := organized_of_mem_organizeGroup h read ho thawed
  cases modified : o.modified with
  | false => exact says_unmodified h (organized.unchanged modified) thawed modified
  | true =>
      obtain ⟨attributes, printable⟩ := plain modified
      obtain ⟨binders, printed, -⟩ := exists_printedBinders organized.written hnewline printable
      exact ⟨_, says_printedWording organized.written modified attributes printed,
        lastGap_printedWording o binders⟩

/-- Every import that a group of a script is organized to is printed as one declaration that says what
the import says, if it is kept as it was written or if it has no attributes and its comments can be
printed. -/
theorem reread_render (h : parse dialect text = .ok program) (read : ∀ i ∈ ins, IsRead text program i)
    (ho : o ∈ organizeGroup order ins) (thawed : o.frozen = false) (hnewline : IsNewline newline)
    (plain : o.modified = true → o.attributes = none ∧ ∀ b ∈ o.named, b.Printable) :
    Reread dialect (o.render newline) o := by
  obtain ⟨w, saying, closed⟩ := says_organized h read ho thawed hnewline plain
  exact reread_of_saying saying closed

instance (b : NamedBinding) : Decidable b.Printable :=
  decidable_of_iff (_ ∧ _) ⟨fun h => ⟨h.1, h.2⟩, fun h => ⟨h.unbroken, h.behind⟩⟩

def importsWithoutC (text : Text) : List Item :=
  importsOf text (parsed ⟨false, false⟩ text) (· != ['c'])

def mergedScript : Text :=
  "import d from 'x'\nimport \x7b /* of a */ a as e, // of e\n  b, c \x7d from 'x';\n".toList

theorem mergedScript_reread : ∃ o ∈ organizeGroup .last (importsWithoutC mergedScript),
    o.frozen = false ∧ o.modified = true ∧ o.attributes = none ∧ (∀ b ∈ o.named, b.Printable) ∧
    o.render ['\n'] = "import d, \x7b\n  /* of a */\n  a as e, // of e\n  b,\n\x7d from 'x';".toList ∧
    Reread ⟨false, false⟩ (o.render ['\n']) o := by
  have merged : organizeGroup .last (importsWithoutC mergedScript) =
      mergeNeighbours (importsWithoutC mergedScript) := by
    rw [organizeGroup_eq_organizeSegment _ (by decide +kernel),
      organizeSegment_of_sorted (by decide +kernel) (by decide +kernel)]
  have found : (mergeNeighbours (importsWithoutC mergedScript)).map (fun o =>
      (o.frozen, o.modified, o.attributes, decide (∀ b ∈ o.named, b.Printable), o.render ['\n'])) =
        [(false, true, none, true,
          "import d, \x7b\n  /* of a */\n  a as e, // of e\n  b,\n\x7d from 'x';".toList)] := by
    decide +kernel
  obtain ⟨o, ho, same⟩ := List.map_eq_singleton_iff.1 found
  simp only [Prod.mk.injEq] at same
  obtain ⟨thawed, modified, attributes, printable, text⟩ := same
  have mem : o ∈ organizeGroup .last (importsWithoutC mergedScript) := by simp [merged, ho]
  refine ⟨o, mem, thawed, modified, attributes, of_decide_eq_true printable, text, ?_⟩
  exact reread_render (parse_eq_parsed (by decide +kernel)) (fun i hi => isRead_of_mem_importsOf hi) mem
    thawed (.inl rfl) fun _ => ⟨attributes, of_decide_eq_true printable⟩

def attributesScript : Text :=
  "import \x7b a, c \x7d from './x.json' with \x7b type: 'json' \x7d;\nuse(a);\n".toList

/-- The keyword of the attributes is not printed, and without it the text is no import. -/
theorem attributesScript_not_reread : ¬ ∀ o ∈ organizeGroup .last (importsWithoutC attributesScript),
    o.frozen = false → Reread ⟨false, false⟩ (o.render ['\n']) o := by
  intro reread
  have kept : organizeGroup .last (importsWithoutC attributesScript) = importsWithoutC attributesScript := by
    rw [organizeGroup_eq_organizeSegment _ (by decide +kernel),
      organizeSegment_eq_self ⟨by decide +kernel, by decide +kernel, by decide +kernel, by decide +kernel⟩]
  have found : (importsWithoutC attributesScript).map (fun o =>
      (o.frozen, (parse ⟨false, false⟩ (o.render ['\n'])).toOption.isSome)) = [(false, false)] := by
    decide +kernel
  obtain ⟨o, ho, same⟩ := List.map_eq_singleton_iff.1 found
  obtain ⟨thawed, refused⟩ := Prod.mk.inj same
  have mem : o ∈ organizeGroup .last (importsWithoutC attributesScript) := by
    rw [kept, ho]
    exact List.mem_singleton_self o
  obtain ⟨program, d, parsed, -⟩ := reread o mem thawed
  rw [parsed] at refused
  cases refused

end TidyImports.Import
