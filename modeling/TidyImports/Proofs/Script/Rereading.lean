import TidyImports.Proofs.Script.Shifting

/-! Wordings in scripts. An import declaration of a parsed script has a wording, whose text stands in the
text of the script and whose comments are those of the script at this place. A text that is the text of
a wording is parsed to its declaration and nothing else. -/
namespace TidyImports.Script

open Script.Parser Script.Grammar

variable {context : Context} {c d e : Cursor} {dialect : Dialect} {text rest : Text}
  {declaration : ImportDeclaration} {w : Wording}

namespace Parser

theorem Reads.reaches {α : Type} {step : Parser (Option α)} {items : List α}
    (h : Reads step context c items d) : c.Reaches d := by
  induction h with
  | declined h => exact step.forward h
  | item h _ ih => exact (step.forward h).trans ih

theorem Reads.exists_run {α : Type} {step : Parser (Option α)} {items : List α} {a : α}
    (h : Reads step context c items d) (ha : a ∈ items) :
    ∃ c₁ d₁, step.run context c₁ = .ok (some a, d₁) ∧ c.Reaches c₁ ∧ d₁.Reaches d := by
  induction h with
  | declined => cases ha
  | @item c d e b items h more ih =>
      rcases List.mem_cons.1 ha with rfl | ha
      · exact ⟨c, d, h, .refl c, more.reaches⟩
      · obtain ⟨c₁, d₁, run, before, behind⟩ := ih ha
        exact ⟨c₁, d₁, run, (step.forward h).trans before, behind⟩

end Parser

/-- The wording of an import declaration of a text, with what follows it. -/
structure Worded (dialect : Dialect) (text : Text) (comments : List Edit.Span)
    (declaration : ImportDeclaration) (w : Wording) (rest : Text) : Prop where
  valid : w.Valid dialect.types
  phrase : Phrase w.lexemes
  declares : declaration = w.declaration declaration.span.start
  place : text.RestAt declaration.span.start (fullText w.lexemes ++ rest)
  leads : ∀ l ∈ w.lexemes.getLast?, l.Leads rest
  comments : ∃ before behind,
    comments = before ++ (lexemeComments declaration.span.start w.lexemes ++ behind) ∧
      (∀ s ∈ before, s.start < s.stop ∧ s.stop ≤ declaration.span.start) ∧
      ∀ s ∈ behind, declaration.span.start + (fullText w.lexemes).width ≤ s.start ∧ s.start < s.stop

theorem worded_of_chain {comments : List Edit.Span} (valid : w.Valid dialect.types)
    (chain : c.Chain w.lexemes e) (fits : c.Fits text) (fits' : e.Fits text) (reaches : e.Reaches d)
    (all : comments = d.comments.reverse) :
    Worded dialect text comments (w.declaration c.start) w e.source := by
  obtain ⟨last, -, -, new, hnew, behind⟩ := reaches text fits'
  have place := fits.source
  rw [chain.source] at place
  refine ⟨valid, chain.phrase, rfl, place, chain.leads, c.comments.reverse, new.reverse, ?_, ?_, ?_⟩
  · rw [all, hnew, chain.comments]
    simp [Wording.declaration, Edit.Span.ofBounds]
  · exact fun s hs => fits.comments s (List.mem_reverse.1 hs)
  · intro s hs
    have start := behind s (List.mem_reverse.1 hs)
    rw [chain.start] at start
    have own : s ∈ d.comments := by simp [hnew, List.mem_reverse.1 hs]
    exact ⟨start, (last.comments s own).1⟩

/-- Every import declaration of a parsed script has a wording. -/
theorem exists_worded_of_parse {program : Program} {s : Statement}
    (h : parse dialect text = .ok program) (hs : s ∈ program.statements)
    (importing : s.kind = .importing declaration) :
    ∃ w rest, Worded dialect text program.comments declaration w rest := by
  obtain ⟨items, final, hrun, rfl⟩ := parse_eq_ok.1 h
  obtain ⟨c₀, moved, hmany, -⟩ := run_script_eq_ok.1 hrun
  have fits := (advance.forward moved text (initial_fits text)).1
  obtain ⟨item, hitem, rfl⟩ := List.mem_map.1 hs
  obtain ⟨c, d, step, before, behind⟩ := (reads_of_many hmany).exists_run hitem
  have fits' := (before text fits).1
  rcases run_topStep_eq_ok.1 step with ⟨-, found, -⟩ | ⟨-, _, hnext, found⟩
  · cases found
  cases found
  obtain ⟨w, valid, chain, rfl⟩ := exists_wording_of_nextStatement hnext fits' importing
  cases importing
  exact ⟨w, _, worded_of_chain valid chain fits' (nextStatement.forward hnext text fits').1 behind rfl⟩

theorem length_le_of_reads {items : List TopStatement}
    (h : Reads topStep context c items d) (fits : c.Fits text) :
    items.length ≤ c.source.length := by
  induction h with
  | declined => exact Nat.zero_le _
  | @item c d e item items step more ih =>
      have fits' := (topStep.forward step text fits).1
      have behind := ih fits'
      obtain ⟨-, found, -⟩ | ⟨-, item, hnext, found⟩ := run_topStep_eq_ok.1 step
      · cases found
      obtain ⟨own, inner, -, moved, -, rfl⟩ := run_nextStatement_eq_ok.1 hnext
      have start : (c.behind inner).start = inner.start + c.start := rfl
      obtain ⟨s, whole, width⟩ := fits.source.split fits'.source (by omega)
      have inhabited : 0 < s.length := List.length_pos_iff.2 fun empty => by
        rw [empty, Text.width_nil] at width
        omega
      rw [whole, List.length_append, List.length_cons]
      omega

theorem parse_of_reads {items : List TopStatement}
    (moved : ∀ context, advance.run context (Cursor.initial text) = .ok ((), c))
    (reads : Reads topStep (.module_ dialect (text.length + 4)) c items d) (covers : d.covers = [])
    (exports : (dialect.types || decide (items.flatMap TopStatement.exports).Nodup) = true) :
    parse dialect text = .ok ⟨items.map TopStatement.statement, d.comments.reverse,
      (collect (items.map TopStatement.outline)).names⟩ := by
  have fits := (advance.forward (moved (.module_ dialect 0)) text (initial_fits text)).1
  have short : items.length < text.length + 4 := by
    have bound := length_le_of_reads reads fits
    obtain ⟨before, whole, -⟩ := fits.source
    have room := congrArg List.length whole
    rw [List.length_append] at room
    omega
  have script := run_script_eq_ok.2 ⟨c, moved _, run_many_of_reads reads short, covers, exports⟩
  exact parse_eq_ok.2 ⟨items, d, script, rfl⟩

theorem run_advance_initial {more : Text} (ends : endsWord more = true) :
    ∃ c, (∀ context, advance.run context (Cursor.initial ("import".toList ++ more)) = .ok ((), c)) ∧
      c.token = .word "import" false ∧ c.source = "import".toList ++ more ∧ c.start = 0 ∧
      c.comments = [] ∧ c.covers = [] := by
  have spells : Spells (.word "import" false) "import".toList := spells_word (by decide)
  have skipped := spells.noGap more 0 false []
  have initial : Cursor.initial ("import".toList ++ more) =
      ⟨.finish, 0, 0, false, "import".toList ++ more, "import".toList ++ more, 0, [], []⟩ := rfl
  rw [initial]
  refine ⟨_, fun context => run_advance_eq_ok.2 ⟨_, _, _, skipped, spells.scan more ends, rfl⟩, ?_⟩
  exact ⟨rfl, rfl, rfl, rfl, rfl⟩

/-- A text that is the text of a wording is parsed to the declaration of this wording, with the comments
of its gaps. -/
theorem parse_wording (valid : w.Valid dialect.types) (phrase : Phrase w.lexemes)
    (closed : lastGap w.lexemes = []) :
    ∃ program, parse dialect (spelled w.lexemes) = .ok program ∧
      program.statements = [⟨(w.declaration 0).span, .importing (w.declaration 0)⟩] ∧
      program.comments = lexemeComments 0 w.lexemes := by
  obtain ⟨l, m, more, hw, word, follows⟩ := valid.opens
  have whole : fullText w.lexemes = spelled w.lexemes := by
    rw [fullText_eq, closed, gapText_nil, List.append_nil]
  have own : l.text = "import".toList := by
    have spells := phrase.spells l (by simp [hw])
    rw [word] at spells
    exact spells.eq_name
  obtain ⟨behind, split, ends⟩ : ∃ behind, spelled w.lexemes = "import".toList ++ behind ∧
      endsWord behind = true := by
    rw [hw] at phrase ⊢
    have leads := phrase.leads_spelled.ends
    rw [word] at leads
    exact ⟨_, by rw [spelled, Lexeme.full, own, List.append_assoc], leads⟩
  obtain ⟨c, moved, token, source, start, comments, covers⟩ := run_advance_initial ends
  have scanned := scanned_of_advance (moved (.module_ dialect 0))
  have leads : ∀ l ∈ w.lexemes.getLast?, l.Leads [] := by
    intro l hl
    have gap : l.gap = [] := by
      rw [lastGap, Option.mem_def.1 hl] at closed
      exact closed
    exact ⟨gap ▸ .nil, by rw [gap]; exact l.token.endsBefore_nil⟩
  obtain ⟨e, chain, -, finish⟩ := scanned.exists_chain phrase
    (by rw [source, whole, split, List.append_nil]) leads noGap_nil rfl
  have inhabited : w.lexemes ≠ [] := by simp [hw]
  have run : nextStatement.run (.module_ dialect ((spelled w.lexemes).length + 4)) c =
      .ok (w.item c.start, e) :=
    run_nextStatement_of_wording valid scanned chain fun _ => .inl (finish inhabited)
  have first := run_topStep_eq_ok.2 (.inr ⟨by simp [token], _, run, rfl⟩)
  have reads : Reads topStep (.module_ dialect ((spelled w.lexemes).length + 4)) c [w.item c.start] e :=
    .item first (.declined (run_topStep_eq_ok.2 (.inl ⟨finish inhabited, rfl, rfl⟩)))
  refine ⟨_, parse_of_reads (fun context => split ▸ moved context) reads (by rw [chain.covers, covers])
    (by simp [Wording.item]), ?_, ?_⟩
  · simp [Wording.item, start]
  · simp [chain.comments, comments, start]

end TidyImports.Script
