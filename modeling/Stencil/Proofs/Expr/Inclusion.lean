import Stencil.Proofs.Expr.Language
import Stencil.Proofs.Expr.Places

/-!
# What an inclusion says

An inclusion says the name of a template and, behind that, perhaps an expression for its data.
Nothing marks where the one ends and the other begins: the reader takes the longest expression for
the name. But an expression goes on with a bar and does not begin with one, so a second expression
never continues the first (`settled_of_terminals`). Two expressions with spacing between them are
therefore read as name and data, and each as it is read alone; and what is read as name and data is
two such texts (`inclusions_split_in_one_way`).

The second half is about the text, which is cut into lexemes as a whole and cut again behind the
name. Its first lexemes are the lexemes of the text they take up, and on them alone the reader comes
to the same (`exists_run_taken`).
-/

namespace Stencil.Expr

variable {src : String} {text : List Char} {line : Nat}

/-! ### Two expressions

The terminals of a row do not tell where a text was split, so this half is about terminals: those of
two expressions one after the other are read as two. Lexemes come in only where spacing has to keep
the last word of the one from the first word of the other. -/

/-- **An expression does not continue the one before it**: it begins with an operand, and only a bar
would continue. -/
theorem settled_of_terminals {rest : List Lexeme} {pipeline : Pipeline}
    (h : terminals rest = pipeline.terminals)
    (hspace : ∀ lexeme ∈ rest.head?, lexeme.kind ≠ .space) : Settled rest := by
  intro lexeme hlexeme
  refine ⟨hspace lexeme hlexeme, ?_⟩
  intro hkind
  obtain ⟨others, rfl⟩ := List.head?_eq_some_iff.1 hlexeme
  obtain ⟨t, ts, hterminals, hfirst⟩ := pipeline.exists_first
  rw [terminals_cons (t := .pipe) (by rw [Lexeme.terminal?, hkind]), hterminals] at h
  obtain ⟨rfl, -⟩ := List.cons.inj h
  rcases hfirst with ⟨cs, hcs⟩ | ⟨c, cs, hcs, -⟩ <;> cases hcs

/-- The terminals of one expression say a name. -/
theorem exists_readInclusion_of_scan? {name : Pipeline} (h : scan? text = some name.terminals)
    (src : String) (line : Nat) :
    ∃ name', readInclusion src text line = .ok (name', none) ∧ name'.unlined = name.tree src := by
  obtain ⟨row, hrow, hterminals⟩ := scan?_eq_some_iff.1 h
  rw [← List.append_nil row] at hrow
  obtain ⟨reading, hread, hrest, hexpr⟩ : ∃ reading, readFirst src text line = .ok reading ∧
      reading.rest = [] ∧ reading.expr.unlined = name.tree src :=
    exists_readFirst_of_derivation hrow hterminals nofun
  refine ⟨reading.expr, ?_, hexpr⟩
  rw [readInclusion, hread]
  simp [Reading.remainder, hrest, lexemesText]

/-- **The terminals of two expressions say a name and data.** Where the one ends and the other
begins is not marked, and need not be. -/
theorem exists_readInclusion_of_scan?_append {name data : Pipeline}
    (h : scan? text = some (name.terminals ++ data.terminals)) (src : String) (line : Nat) :
    ∃ name' data', readInclusion src text line = .ok (name', some data') ∧
      name'.unlined = name.tree src ∧ data'.unlined = data.tree src := by
  obtain ⟨row, hrow, hterminals⟩ := scan?_eq_some_iff.1 h
  -- the row is split behind the terminals of the name, and the spacing between goes to the name
  obtain ⟨first, second, rfl, hfirst, hsecond⟩ := List.filterMap_eq_append_iff.1 hterminals
  obtain ⟨spacing, rest, rfl, hspacing, hrest⟩ := exists_spacing second
  have hrestTerminals : terminals rest = data.terminals := by
    rw [← hsecond, ← terminals, terminals_append, hspacing, List.nil_append]
  have hfirstTerminals : terminals (first ++ spacing) = name.terminals := by
    rw [terminals_append, hspacing, List.append_nil]
    exact hfirst
  rw [← List.append_assoc] at hrow
  obtain ⟨reading, hread, rfl, hexpr⟩ : ∃ reading, readFirst src text line = .ok reading ∧
      reading.rest = rest ∧ reading.expr.unlined = name.tree src :=
    exists_readFirst_of_derivation hrow hfirstTerminals
      (settled_of_terminals hrestTerminals hrest)
  -- what is left over has the terminals of the data, wherever it was cut
  have hleft : scan? reading.remainder = some data.terminals := by
    rw [Reading.remainder, scan?_lexemesText hrow, hrestTerminals]
  have hblank : Text.isBlank reading.remainder = false := by
    rw [← List.append_nil data.terminals] at hleft
    exact isBlank_eq_false_of_scan? hleft
  obtain ⟨data', hreadData, hdata'⟩ := exists_read_of_derives (derives_iff_scan?.2 hleft) src
    (line + Text.newlines (upTo text reading.remainder))
  refine ⟨reading.expr, data', ?_, hexpr, hdata'⟩
  rw [readInclusion, hread]
  simp only [hblank, Bool.false_eq_true, if_false, hreadData]
  rfl

/-- **Two expressions with spacing between them are a name and data**, and each is what it is alone,
up to lines. -/
theorem exists_readInclusion_of_reads {first second spacing : List Char} {l₁ l₂ : Nat}
    {name data : Node} (hname : read src first l₁ = .ok name)
    (hdata : read src second l₂ = .ok data) (hne : spacing ≠ [])
    (hspacing : ∀ c ∈ spacing, Text.isSpacing c = true) (line : Nat) :
    ∃ name' data', readInclusion src (first ++ spacing ++ second) line = .ok (name', some data') ∧
      name'.unlined = name.unlined ∧ data'.unlined = data.unlined := by
  obtain ⟨p, hp, hpname⟩ := exists_derives_of_read hname
  obtain ⟨q, hq, hqdata⟩ := exists_derives_of_read hdata
  rw [derives_iff_scan?] at hp hq
  have hparts : Parts first (spacing ++ second) := by
    obtain ⟨c, cs, rfl⟩ := List.exists_cons_of_ne_nil hne
    refine parts_of_isSpacing_head ?_
    rintro d ⟨⟩
    exact hspacing c List.mem_cons_self
  have hscan : scan? (first ++ spacing ++ second) = some (p.terminals ++ q.terminals) := by
    rw [List.append_assoc, scan?_append hp hparts, scan?_spacing_append hspacing, hq,
      Option.map_some]
  rw [hpname, hqdata]
  exact exists_readInclusion_of_scan?_append hscan src line

/-- An expression, with spacing behind it or without, is a name. -/
theorem exists_readInclusion_of_read {first spacing : List Char} {l₁ : Nat} {name : Node}
    (hname : read src first l₁ = .ok name) (hspacing : ∀ c ∈ spacing, Text.isSpacing c = true)
    (line : Nat) :
    ∃ name', readInclusion src (first ++ spacing) line = .ok (name', none) ∧
      name'.unlined = name.unlined := by
  obtain ⟨p, hp, hpname⟩ := exists_derives_of_read hname
  rw [derives_iff_scan?] at hp
  have hparts : Parts first spacing :=
    parts_of_isSpacing_head fun d hd => hspacing d (List.mem_of_head? hd)
  have hnone : scan? spacing = some [] := by
    rw [← List.append_nil spacing, scan?_spacing_append hspacing, scan?_nil]
  have hscan : scan? (first ++ spacing) = some p.terminals := by
    rw [scan?_append hp hparts, hnone, Option.map_some, List.append_nil]
  rw [hpname]
  exact exists_readInclusion_of_scan? hscan src line

/-! ### What was taken

The reader looks at the lexemes in front of it and at nothing else, except for the text that it
quotes in its errors. So on the lexemes that it has taken it does the same again, and stops there as
at the end of a text. -/

/-- **On what it takes, the reader comes to the same**, whatever it is told the text is. The text is
for messages only. -/
theorem exists_run_taken {expecting : Expecting} {calls : List OpenCall} {row : List Lexeme}
    {reading : Reading} (h : run src text expecting calls line row = .ok reading) :
    ∃ taken, row = taken ++ reading.rest ∧ ∀ other,
      run src other expecting calls line taken = .ok ⟨reading.expr, [], reading.line⟩ := by
  induction row generalizing expecting calls line with
  | nil =>
    rw [run] at h
    split at h
    · next expr hfinish =>
      cases h
      obtain ⟨rfl, rfl⟩ := eq_continuation_of_finish hfinish
      exact ⟨[], rfl, fun other => rfl⟩
    · cases h
  | cons lexeme row ih =>
    by_cases hspace : lexeme.kind = .space
    · rw [run, if_pos hspace] at h
      obtain ⟨taken, rfl, htaken⟩ := ih h
      refine ⟨lexeme :: taken, rfl, ?_⟩
      intro other
      rw [run, if_pos hspace, htaken]
    · obtain ⟨t, ht⟩ := exists_terminal_of_ne_space hspace
      rw [run, if_neg hspace] at h
      split at h
      -- the step does not depend on the text, so it is the same in the other
      · next next after hstep =>
        obtain ⟨taken, rfl, htaken⟩ := ih h
        refine ⟨lexeme :: taken, rfl, ?_⟩
        intro other
        rw [run, if_neg hspace, (step_eq_ok_iff ht).2 ((step_eq_ok_iff ht).1 hstep)]
        exact htaken other
      · next expr hstep =>
        -- it stops behind a whole expression, where it may also come to an end
        cases (step_eq_ok_iff ht).1 hstep
        cases h
        exact ⟨[], rfl, fun other => rfl⟩
      · cases h

/-- **What is read first is read alone**, from the text up to what is left over. So a name is an
expression by itself. -/
theorem read_upTo_remainder {reading : Reading} (h : readFirst src text line = .ok reading) :
    upTo text reading.remainder ++ reading.remainder = text ∧
      read src (upTo text reading.remainder) line = .ok reading.expr := by
  unfold readFirst at h
  split at h
  · next row hrow =>
    obtain ⟨taken, rfl, htaken⟩ := exists_run_taken h
    have hupTo : upTo text reading.remainder = lexemesText taken := upTo_lexemesText hrow
    have hagain : lexemes (lexemesText taken) = .ok taken := lexemesFrom_lexemesText hrow
    rw [hupTo]
    refine ⟨?_, ?_⟩
    · rw [Reading.remainder, ← lexemesText_append]
      exact lexemesText_of_lexemesFrom hrow
    · rw [read, readFirst, hagain]
      simp only [htaken]
  · cases h

/-! ### Name and data -/

/-- **An inclusion is split into name and data in one way.** Two texts that are expressions, with
spacing between them, are read as the name and the data that they are read as alone, up to lines;
one text that is an expression is read as a name, with spacing behind it or without. Nothing else is
read: where there is a name and data, the text is two texts that are read as these, and where there
is a name only, it is a text that is read as this, and white space. -/
theorem inclusions_split_in_one_way (src : String) (line : Nat) :
    (∀ first second spacing l₁ l₂ name data, read src first l₁ = .ok name →
      read src second l₂ = .ok data → spacing ≠ [] → (∀ c ∈ spacing, Text.isSpacing c = true) →
        ∃ name' data',
          readInclusion src (first ++ spacing ++ second) line = .ok (name', some data') ∧
            name'.unlined = name.unlined ∧ data'.unlined = data.unlined) ∧
    (∀ first spacing l₁ name, read src first l₁ = .ok name →
      (∀ c ∈ spacing, Text.isSpacing c = true) →
        ∃ name', readInclusion src (first ++ spacing) line = .ok (name', none) ∧
          name'.unlined = name.unlined) ∧
    (∀ text name data, readInclusion src text line = .ok (name, some data) →
      ∃ first second, text = first ++ second ∧ read src first line = .ok name ∧
        read src second (line + Text.newlines first) = .ok data) ∧
    (∀ text name, readInclusion src text line = .ok (name, none) →
      ∃ first blank, text = first ++ blank ∧ read src first line = .ok name ∧
        Text.isBlank blank = true) := by
  refine ⟨?_, ?_, ?_, ?_⟩
  · intro first second spacing l₁ l₂ name data hname hdata hne hspacing
    exact exists_readInclusion_of_reads hname hdata hne hspacing line
  · intro first spacing l₁ name hname hspacing
    exact exists_readInclusion_of_read hname hspacing line
  · intro text name data h
    obtain ⟨reading, hfirst, rfl, ⟨-, hnone⟩ | ⟨expr, hread, hsome⟩⟩ :=
      exists_reading_of_readInclusion h
    · cases hnone
    · cases hsome
      obtain ⟨htext, hname⟩ := read_upTo_remainder hfirst
      exact ⟨_, _, htext.symm, hname, hread⟩
  · intro text name h
    obtain ⟨reading, hfirst, rfl, ⟨hblank, -⟩ | ⟨expr, -, hsome⟩⟩ :=
      exists_reading_of_readInclusion h
    · obtain ⟨htext, hname⟩ := read_upTo_remainder hfirst
      exact ⟨_, _, htext.symm, hname, hblank⟩
    · cases hsome

/-- A name that is handed to a function ends before the call that follows it on the next line, and
needs none. -/
theorem piped_name_ends_before_call :
    let first := "\"row\" | pick".toList
    let second := "join(.a,.b)".toList
    let name := Node.call ⟨"page", 1⟩ "pick" [.literal ⟨"page", 1⟩ "row"]
    let data := Node.call ⟨"page", 1⟩ "join"
      [.reference ⟨"page", 1⟩ ["a"], .reference ⟨"page", 1⟩ ["b"]]
    (∃ name' data', readInclusion "page" (first ++ ['\n'] ++ second) 1 = .ok (name', some data') ∧
      name'.unlined = name.unlined ∧ data'.unlined = data.unlined ∧
      ∃ before behind, first ++ ['\n'] ++ second = before ++ behind ∧
        read "page" before 1 = .ok name' ∧
        read "page" behind (1 + Text.newlines before) = .ok data') ∧
    ∃ name', readInclusion "page" (first ++ [' ']) 1 = .ok (name', none) ∧
      name'.unlined = name.unlined ∧
      ∃ before blank, first ++ [' '] = before ++ blank ∧ read "page" before 1 = .ok name' ∧
        Text.isBlank blank = true := by
  have hfirst : read "page" "\"row\" | pick".toList 1
      = .ok (.call ⟨"page", 1⟩ "pick" [.literal ⟨"page", 1⟩ "row"]) :=
    toOption_eq_some_iff.1 (by decide +kernel)
  have hsecond : read "page" "join(.a,.b)".toList 1
      = .ok (.call ⟨"page", 1⟩ "join"
        [.reference ⟨"page", 1⟩ ["a"], .reference ⟨"page", 1⟩ ["b"]]) :=
    toOption_eq_some_iff.1 (by decide +kernel)
  intro first second name data
  obtain ⟨hboth, halone, hdata, hname⟩ := inclusions_split_in_one_way "page" 1
  constructor
  · obtain ⟨name', data', hread, hsame, hsame'⟩ :=
      hboth first second ['\n'] 1 1 name data hfirst hsecond (List.cons_ne_nil _ _)
        (List.forall_mem_singleton.2 rfl)
    exact ⟨name', data', hread, hsame, hsame', hdata _ name' data' hread⟩
  · obtain ⟨name', hread, hsame⟩ :=
      halone first [' '] 1 name hfirst (List.forall_mem_singleton.2 rfl)
    exact ⟨name', hread, hsame, hname _ name' hread⟩

end Stencil.Expr
