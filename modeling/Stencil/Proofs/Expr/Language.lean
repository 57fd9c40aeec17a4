import Stencil.Proofs.Expr.Reading
import Stencil.Proofs.Expr.Scanning

/-!
# The language of expressions

A text is an expression if its lexemes, spacing apart, are what some derivation yields (`Derives`).
`read` accepts these texts and no others, and what it gives for one is the tree of its one
derivation (`exists_derives_of_read`, `exists_read_of_derives`). `readFirst` accepts the texts that
begin with an expression, and takes the longest.
-/

namespace Stencil.Expr

variable {src : String} {text : List Char} {line : Nat}

/-- **The text is what a derivation yields**, with any spacing. That the text has lexemes at all is
part of it. -/
def Derives (text : List Char) (pipeline : Pipeline) : Prop :=
  ∃ row, lexemes text = .ok row ∧ terminals row = pipeline.terminals

/-- Which derivations a text has depends on its terminals alone. -/
theorem derives_iff_scan? {pipeline : Pipeline} :
    Derives text pipeline ↔ scan? text = some pipeline.terminals :=
  scan?_eq_some_iff.symm

theorem Derives.unique {p q : Pipeline} (hp : Derives text p) (hq : Derives text q) : p = q := by
  rw [derives_iff_scan?] at hp hq
  exact Pipeline.terminals_inj (Option.some.inj (hp.symm.trans hq))

/-! ### The first expression of a text

The reader takes what it can and leaves the rest, so an expression at the beginning of a text is not
the only one that the text begins with. It is the longest: what is left is settled, and a shorter
one would have left a bar. -/

/-- A whole expression is read where nothing continues it. -/
theorem run_settled {rest : List Lexeme} (h : Settled rest) (expr : Node) (line : Nat) :
    run src text (.continuation expr) [] line rest = .ok ⟨expr, rest, line⟩ := by
  cases rest with
  | nil => rfl
  | cons lexeme rest =>
    obtain ⟨hspace, hpipe⟩ := h lexeme rfl
    have hstep : step src text (.continuation expr) [] line lexeme = .ok (.stop expr) := by
      obtain ⟨kind, word, offset⟩ := lexeme
      cases kind with
      | pipe => exact absurd rfl hpipe
      | _ => rfl
    rw [run, if_neg hspace, hstep]

/-- **What is read first is derived**, and the lexemes after it do not continue it: the reader takes
as much as it can. -/
theorem exists_derivation_of_readFirst {reading : Reading}
    (h : readFirst src text line = .ok reading) :
    ∃ (pipeline : Pipeline) (taken : List Lexeme), lexemes text = .ok (taken ++ reading.rest) ∧
      terminals taken = pipeline.terminals ∧ Settled reading.rest ∧
      reading.expr.unlined = pipeline.tree src := by
  unfold readFirst at h
  split at h
  · next row hrow =>
    obtain ⟨pipeline, taken, rest, expr, line', rfl, htaken, hexpr, hsettled, hrun⟩ := splits row h
    rw [run_settled hsettled] at hrun
    obtain rfl := Except.ok.inj hrun
    exact ⟨pipeline, taken, hrow, htaken, hsettled, hexpr⟩
  · cases h

/-- **What is derived is read first**, if the lexemes after it do not continue it. These may be
anything else. -/
theorem exists_readFirst_of_derivation {taken rest : List Lexeme} {pipeline : Pipeline}
    (hlex : lexemes text = .ok (taken ++ rest)) (htaken : terminals taken = pipeline.terminals)
    (hsettled : Settled rest) :
    ∃ reading, readFirst src text line = .ok reading ∧ reading.rest = rest ∧
      reading.expr.unlined = pipeline.tree src := by
  obtain ⟨expr, line', hexpr, htakes⟩ : ∃ expr line', expr.unlined = pipeline.tree src ∧
      Takes src text taken ⟨.operand, [], line⟩ ⟨.continuation expr, [], line'⟩ :=
    pipeline.exists_takes htaken (.inl rfl) [] line
  refine ⟨⟨expr, rest, line'⟩, ?_, rfl, hexpr⟩
  have hrun : run src text .operand [] line (taken ++ rest)
      = run src text (.continuation expr) [] line' rest := htakes rest
  rw [readFirst, hlex]
  exact hrun.trans (run_settled hsettled expr line')

/-! ### Whole texts

A whole text is the case in which nothing is left. What is read then depends on the terminals alone,
which is how spacing and the places of lexemes drop out. -/

/-- **Only expressions are read**, and each as the tree of its derivation. It is the half that says
the reader is right. -/
theorem exists_derives_of_read {expr : Node} (h : read src text line = .ok expr) :
    ∃ pipeline, Derives text pipeline ∧ expr.unlined = pipeline.tree src := by
  unfold read at h
  split at h
  · cases h
  · next reading hreading =>
    split at h
    · next hrest =>
      obtain rfl := Except.ok.inj h
      obtain ⟨pipeline, taken, hlex, htaken, -, hexpr⟩ := exists_derivation_of_readFirst hreading
      rw [hrest, List.append_nil] at hlex
      exact ⟨pipeline, ⟨taken, hlex, htaken⟩, hexpr⟩
    · cases h

/-- **Every expression is read**, as the tree of its derivation. It is the half that says the reader
is complete. -/
theorem exists_read_of_derives {pipeline : Pipeline} (h : Derives text pipeline) (src : String)
    (line : Nat) : ∃ expr, read src text line = .ok expr ∧ expr.unlined = pipeline.tree src := by
  obtain ⟨row, hrow, hterminals⟩ := h
  rw [← List.append_nil row] at hrow
  obtain ⟨⟨expr, rest, line'⟩, hread, hrest, hexpr⟩ :
      ∃ reading, readFirst src text line = .ok reading ∧ reading.rest = [] ∧
        reading.expr.unlined = pipeline.tree src :=
    exists_readFirst_of_derivation hrow hterminals nofun
  obtain rfl : rest = [] := hrest
  exact ⟨expr, by rw [read, hread], hexpr⟩

/-- A text with the terminals of an expression is read as that expression, up to lines. -/
theorem exists_read_of_scan?_eq {other : List Char} {expr : Node} (h : scan? text = scan? other)
    (hread : read src text line = .ok expr) (line' : Nat) :
    ∃ expr', read src other line' = .ok expr' ∧ expr'.unlined = expr.unlined := by
  obtain ⟨pipeline, hderives, hexpr⟩ := exists_derives_of_read hread
  rw [derives_iff_scan?, h, ← derives_iff_scan?] at hderives
  obtain ⟨expr', hread', hexpr'⟩ := exists_read_of_derives hderives src line'
  exact ⟨expr', hread', hexpr'.trans hexpr.symm⟩

/-- What is read, up to lines, depends on the terminals of a text alone. -/
theorem read_unlined_eq_of_scan?_eq {other : List Char} {line' : Nat}
    (h : scan? text = scan? other) :
    (read src text line).toOption.map Node.unlined
      = (read src other line').toOption.map Node.unlined := by
  cases hread : read src text line with
  | ok expr =>
    obtain ⟨expr', hread', hexpr'⟩ := exists_read_of_scan?_eq h hread line'
    rw [hread']
    exact congrArg some hexpr'.symm
  -- were the other text read, this one would be
  | error e =>
    cases hread' : read src other line' with
    | error e' => rfl
    | ok expr' =>
      obtain ⟨expr, hread'', -⟩ := exists_read_of_scan?_eq h.symm hread' line
      rw [hread] at hread''
      cases hread''

/-! ### How expressions begin

By what an expression can begin with it is told that text with one in it is not blank, and in the
next sections that some texts are no expressions, whatever follows. -/

/-- A derivation begins with a literal or with a word, which begins with a dot or a letter. -/
theorem Pipeline.exists_first (pipeline : Pipeline) :
    ∃ t ts, pipeline.terminals = t :: ts ∧
      ((∃ cs, t = .quoted cs) ∨ ∃ c cs, t = .word (c :: cs) ∧ (c = '.' ∨ isLetter c = true)) := by
  obtain ⟨operand, stages⟩ := pipeline
  cases operand with
  | reference path => exact ⟨_, _, rfl, .inr ⟨'.', _, rfl, .inl rfl⟩⟩
  | quoted literal => exact ⟨_, _, rfl, .inl ⟨_, rfl⟩⟩
  | call function args =>
    obtain ⟨c, cs, hname, hc⟩ := exists_letter_of_isIdentifier function.valid
    exact ⟨_, _, rfl, .inr ⟨c, cs, by rw [hname], .inr hc⟩⟩

/-- Quotes, dots and letters are no white space. -/
theorem isWhite_eq_false {c : Char}
    (h : Text.Literal.isQuote c = true ∨ c = '.' ∨ isLetter c = true) : Text.isWhite c = false := by
  rcases h with h | rfl | h
  · simp only [Text.Literal.isQuote, Bool.or_eq_true, beq_iff_eq] at h
    rcases h with rfl | rfl <;> rfl
  · rfl
  · have hbounds : (97 ≤ c.toNat ∧ c.toNat ≤ 122) ∨ (65 ≤ c.toNat ∧ c.toNat ≤ 90) := by
      simpa [isLetter, Char.le_def, UInt32.le_iff_toNat_le] using h
    simp only [Text.isWhite, Bool.or_eq_false_iff, Bool.and_eq_false_iff, decide_eq_false_iff_not,
      beq_eq_false_iff_ne]
    omega

/-- **An expression begins with a quote, a dot or a letter**, spacing apart. -/
theorem first_of_scan? {c : Char} {cs : List Char} {pipeline : Pipeline} {ts : List Terminal}
    (h : scan? (c :: cs) = some (pipeline.terminals ++ ts)) (hspacing : Text.isSpacing c = false) :
    Text.Literal.isQuote c = true ∨ c = '.' ∨ isLetter c = true := by
  obtain ⟨t, us, hterminals, hfirst⟩ := pipeline.exists_first
  rw [hterminals, List.cons_append] at h
  -- a delimiter is no first terminal of a derivation
  have delimiter {u : Terminal} (hu : (scan? cs).map (u :: ·) = some (t :: (us ++ ts)))
      (hquoted : ∀ ds, u ≠ .quoted ds) (hword : ∀ ds, u ≠ .word ds) : False := by
    obtain ⟨vs, -, hvs⟩ := Option.map_eq_some_iff.1 hu
    obtain ⟨rfl, -⟩ := List.cons.inj hvs
    rcases hfirst with ⟨ds, hds⟩ | ⟨d, ds, hds, -⟩
    · exact hquoted ds hds
    · exact hword (d :: ds) hds
  rcases char_cases c with hspace | hquote | (rfl | rfl | rfl | rfl) | hword
  · rw [hspacing] at hspace
    cases hspace
  · exact .inl hquote
  · rw [scan?_cons_openParen] at h
    exact (delimiter h nofun nofun).elim
  · rw [scan?_cons_closeParen] at h
    exact (delimiter h nofun nofun).elim
  · rw [scan?_cons_pipe] at h
    exact (delimiter h nofun nofun).elim
  · rw [scan?_cons_comma] at h
    exact (delimiter h nofun nofun).elim
  · rw [scan?_cons_word hword] at h
    obtain ⟨vs, -, hvs⟩ := Option.map_eq_some_iff.1 h
    obtain ⟨rfl, -⟩ := List.cons.inj hvs
    rcases hfirst with ⟨ds, hds⟩ | ⟨d, ds, hds, hd⟩
    · cases hds
    · cases hds
      exact .inr hd

/-- Text with an expression at its beginning is not blank. -/
theorem isBlank_eq_false_of_scan? {cs : List Char} {pipeline : Pipeline} {ts : List Terminal}
    (h : scan? cs = some (pipeline.terminals ++ ts)) : Text.isBlank cs = false := by
  induction cs with
  | nil =>
    obtain ⟨t, us, hterminals, -⟩ := pipeline.exists_first
    simp [hterminals] at h
  | cons c cs ih =>
    rw [Text.isBlank, List.all_cons, Bool.and_eq_false_iff]
    cases hspacing : Text.isSpacing c with
    | true =>
      rw [scan?_cons_spacing hspacing] at h
      exact .inr (ih h)
    | false => exact .inl (isWhite_eq_false (first_of_scan? h hspacing))

/-! ### On any line

The line that a reader starts from goes into the lines of the nodes and nothing else. Read on
another line, a text has the same derivation, so the trees are the same up to lines. -/

/-- **An expression can be read on any line**, and is the same up to lines, as its terminals are. -/
theorem exists_read_on_line {expr : Node} (h : read src text line = .ok expr) (line' : Nat) :
    ∃ expr', read src text line' = .ok expr' ∧ expr'.unlined = expr.unlined :=
  exists_read_of_scan?_eq rfl h line'

/-- A literal is the same literal on any line. -/
theorem exists_read_literal_on_line {loc : Location} {value : String}
    (h : read src text line = .ok (.literal loc value)) (line' : Nat) :
    ∃ loc', read src text line' = .ok (.literal loc' value) := by
  obtain ⟨expr, hread, hsame⟩ := exists_read_on_line h line'
  cases expr with
  | literal loc' other =>
    obtain rfl : other = value := (Node.literal.inj hsame).2
    exact ⟨loc', hread⟩
  | _ => cases hsame

/-- **An inclusion can be read on any line**, and is the same up to lines. -/
theorem exists_readInclusion_on_line {name : Node} {data : Option Node}
    (h : readInclusion src text line = .ok (name, data)) (line' : Nat) :
    ∃ name' data', readInclusion src text line' = .ok (name', data') ∧
      name'.unlined = name.unlined ∧ data'.map Node.unlined = data.map Node.unlined := by
  obtain ⟨reading, hfirst, rfl, hdata⟩ := exists_reading_of_readInclusion h
  obtain ⟨pipeline, taken, hlex, htaken, hsettled, hname⟩ := exists_derivation_of_readFirst hfirst
  -- the name ends in the same place, so the same text is left for the data
  obtain ⟨again, hagain, hrest, hsame⟩ : ∃ again, readFirst src text line' = .ok again ∧
      again.rest = reading.rest ∧ again.expr.unlined = pipeline.tree src :=
    exists_readFirst_of_derivation hlex htaken hsettled
  have hremainder : again.remainder = reading.remainder := by
    rw [Reading.remainder, hrest, ← Reading.remainder]
  rcases hdata with ⟨hblank, rfl⟩ | ⟨expr, hread, rfl⟩
  · refine ⟨again.expr, none, ?_, hsame.trans hname.symm, rfl⟩
    simp only [readInclusion, hagain, hremainder, hblank, if_true]
  · obtain ⟨expr', hread', hexpr⟩ :=
      exists_read_on_line hread (line' + Text.newlines (upTo text reading.remainder))
    have hblank : Text.isBlank reading.remainder = false := by
      obtain ⟨data, hderives, -⟩ := exists_derives_of_read hread
      rw [derives_iff_scan?, ← List.append_nil data.terminals] at hderives
      exact isBlank_eq_false_of_scan? hderives
    refine ⟨again.expr, some expr', ?_, hsame.trans hname.symm, congrArg some hexpr⟩
    simp only [readInclusion, hagain, hremainder, hblank, hread', Except.map]
    rfl

/-! ### How expressions do not begin -/

/-- **Characters that no expression begins with**, nor spacing before one. Delimiters are among
them, and so are braces and digits. -/
def beginsNothing (c : Char) : Bool :=
  !(Text.isSpacing c || Text.Literal.isQuote c || c == '.' || isLetter c)

section Nothing

variable {c : Char} {cs : List Char}

/-- What begins otherwise is no expression, and none stands at its beginning. -/
theorem exists_readFirst_eq_error (h : beginsNothing c = true) :
    ∃ e, readFirst src (c :: cs) line = .error e := by
  simp only [beginsNothing, Bool.not_eq_true', Bool.or_eq_false_iff, beq_eq_false_iff_ne] at h
  obtain ⟨⟨⟨hspacing, hquote⟩, hdot⟩, hletter⟩ := h
  cases hread : readFirst src (c :: cs) line with
  | error e => exact ⟨e, rfl⟩
  | ok reading =>
    obtain ⟨pipeline, taken, hlex, htaken, -, -⟩ := exists_derivation_of_readFirst hread
    have hscan : scan? (c :: cs) = some (pipeline.terminals ++ terminals reading.rest) := by
      rw [scan?, hlex, ← htaken, ← terminals_append]
      rfl
    rcases first_of_scan? hscan hspacing with h | h | h <;> simp_all

/-- What begins otherwise is not read. -/
theorem exists_read_eq_error (h : beginsNothing c = true) :
    ∃ e, read src (c :: cs) line = .error e := by
  obtain ⟨e, hread⟩ : ∃ e, readFirst src (c :: cs) line = .error e := exists_readFirst_eq_error h
  exact ⟨e, by rw [read, hread]⟩

/-- What begins otherwise is not read as an inclusion. -/
theorem exists_readInclusion_eq_error (h : beginsNothing c = true) :
    ∃ e, readInclusion src (c :: cs) line = .error e := by
  obtain ⟨e, hread⟩ : ∃ e, readFirst src (c :: cs) line = .error e := exists_readFirst_eq_error h
  exact ⟨e, by rw [readInclusion, hread]⟩

end Nothing

/-! ### Calls in two spellings

A function can be called with its argument in parentheses, or have it handed over by a bar. -/

/-- A word is its own terminal. -/
theorem scan?_word {cs : List Char} (hne : cs ≠ []) (h : ∀ c ∈ cs, isWordChar c = true) :
    scan? cs = some [.word cs] := by
  cases cs with
  | nil => exact absurd rfl hne
  | cons c cs =>
    obtain ⟨hc, hcs⟩ := List.forall_mem_cons.1 h
    have htake : (cs ++ []).takeWhile isWordChar = cs ++ [] := List.takeWhile_append_of_pos hcs
    have hdrop : (cs ++ []).dropWhile isWordChar = [] := List.dropWhile_append_of_pos hcs
    rw [List.append_nil] at htake hdrop
    rw [scan?_cons_word hc, htake, hdrop, scan?_nil, Option.map_some]

/-- An identifier is a word. -/
theorem Identifier.isWordChar (function : Identifier) :
    ∀ c ∈ function.name.toList, isWordChar c = true := by
  intro c hc
  exact isWordChar_of_isAlphanumeric (isAlphanumeric_of_mem function.valid hc)

/-- An identifier is its own terminal. -/
theorem Identifier.scan?_name (function : Identifier) :
    scan? function.name.toList = some [.word function.name.toList] := by
  refine scan?_word ?_ function.isWordChar
  obtain ⟨c, cs, hname, -⟩ := exists_letter_of_isIdentifier function.valid
  rw [hname]
  exact List.cons_ne_nil c cs

/-- The pipeline that hands its value to one more function. -/
def Pipeline.handTo : Pipeline → Identifier → Pipeline
  | .mk operand stages, function => .mk operand (stages ++ [function])

theorem Pipeline.terminals_handTo (pipeline : Pipeline) (function : Identifier) :
    (pipeline.handTo function).terminals
      = pipeline.terminals ++ [.pipe, .word function.name.toList] := by
  obtain ⟨operand, stages⟩ := pipeline
  simp [Pipeline.handTo, Pipeline.terminals, stageTerminals]

/-- A pipeline means the call of its last function on what comes before. -/
theorem Pipeline.tree_handTo (pipeline : Pipeline) (function : Identifier) :
    (pipeline.handTo function).tree src = .call ⟨src, 0⟩ function.name [pipeline.tree src] := by
  obtain ⟨operand, stages⟩ := pipeline
  simp [Pipeline.handTo, Pipeline.tree, callStages]

/-- The operand that calls a function on a pipeline. -/
def Pipeline.within (pipeline : Pipeline) (function : Identifier) : Pipeline :=
  .mk (.call function [pipeline]) []

/-- The two spellings mean one tree. -/
theorem Pipeline.tree_within (pipeline : Pipeline) (function : Identifier) :
    (pipeline.within function).tree src = .call ⟨src, 0⟩ function.name [pipeline.tree src] := rfl

/-- An expression, a bar, and a function. -/
theorem Derives.handTo {pipeline : Pipeline} (h : Derives text pipeline) (function : Identifier) :
    Derives (text ++ ([' ', '|', ' '] ++ function.name.toList)) (pipeline.handTo function) := by
  rw [derives_iff_scan?] at h ⊢
  rw [scan?_append h (parts_of_not_isWordChar_head (by rintro d ⟨⟩; rfl)),
    Pipeline.terminals_handTo]
  simp [function.scan?_name]

/-- A function, and arguments in parentheses. -/
theorem scan?_call (function : Identifier) {args : List Pipeline}
    (h : scan? text = some (argumentTerminals args)) :
    scan? (function.name.toList ++ '(' :: (text ++ [')']))
      = some (Operand.call function args).terminals := by
  rw [scan?_append function.scan?_name (parts_of_not_isWordChar_head (by rintro d ⟨⟩; rfl)),
    scan?_cons_openParen, scan?_append h (parts_of_not_isWordChar_head (by rintro d ⟨⟩; rfl))]
  simp [Operand.terminals]

/-- A function, and an expression in parentheses. -/
theorem Derives.within {pipeline : Pipeline} (h : Derives text pipeline) (function : Identifier) :
    Derives (function.name.toList ++ '(' :: (text ++ [')'])) (pipeline.within function) := by
  rw [derives_iff_scan?] at h ⊢
  rw [scan?_call function (show scan? text = some (argumentTerminals [pipeline]) by
    rw [h, argumentTerminals, moreTerminals, List.append_nil])]
  simp [Pipeline.within, Pipeline.terminals, stageTerminals]

/-! ### The reader accepts exactly the grammar -/

/-- **Which texts are read, and as what.** A text is read if and only if its lexemes, spacing apart,
are what a derivation yields. What is read is then, up to lines, the tree of that derivation, and
there is no other derivation. So spacing never matters, and `x | f | g` and `g(f(x))` are read as
the same tree for every expression `x`. -/
theorem read_accepts_exactly_derivations (src : String) (text : List Char) (line : Nat) :
    ((∃ expr, read src text line = .ok expr) ↔
      ∃ row, lexemes text = .ok row ∧
        ∃ pipeline : Pipeline, terminals row = pipeline.terminals) ∧
    (∀ expr, read src text line = .ok expr →
      ∃ pipeline : Pipeline, Derives text pipeline ∧ expr.unlined = pipeline.tree src ∧
        ∀ other, Derives text other → other = pipeline) ∧
    (∀ other line', scan? other = scan? text →
      (read src other line').toOption.map Node.unlined
        = (read src text line).toOption.map Node.unlined) ∧
    (∀ expr, read src text line = .ok expr → ∀ f g : Identifier, ∃ piped nested,
      read src (text ++ ([' ', '|', ' '] ++ f.name.toList) ++ ([' ', '|', ' '] ++ g.name.toList))
        line = .ok piped ∧
      read src (g.name.toList ++ '(' :: (f.name.toList ++ '(' :: (text ++ [')']) ++ [')'])) line
        = .ok nested ∧
      piped.unlined = nested.unlined) := by
  refine ⟨⟨?_, ?_⟩, ?_, ?_, ?_⟩
  · rintro ⟨expr, hread⟩
    obtain ⟨pipeline, ⟨row, hrow, hterminals⟩, -⟩ := exists_derives_of_read hread
    exact ⟨row, hrow, pipeline, hterminals⟩
  · rintro ⟨row, hrow, pipeline, hterminals⟩
    obtain ⟨expr, hread, -⟩ := exists_read_of_derives ⟨row, hrow, hterminals⟩ src line
    exact ⟨expr, hread⟩
  · intro expr hread
    obtain ⟨pipeline, hderives, hexpr⟩ := exists_derives_of_read hread
    refine ⟨pipeline, hderives, hexpr, ?_⟩
    intro other hother
    exact hother.unique hderives
  · intro other line' hscan
    exact read_unlined_eq_of_scan?_eq hscan
  · intro expr hread f g
    obtain ⟨pipeline, hderives, -⟩ := exists_derives_of_read hread
    -- both spellings have derivations, and these mean one tree
    obtain ⟨piped, hpiped, htree⟩ :=
      exists_read_of_derives ((hderives.handTo f).handTo g) src line
    obtain ⟨nested, hnested, htree'⟩ :=
      exists_read_of_derives ((hderives.within f).within g) src line
    refine ⟨piped, nested, hpiped, hnested, ?_⟩
    rw [htree, htree', Pipeline.tree_handTo, Pipeline.tree_handTo, Pipeline.tree_within,
      Pipeline.tree_within]

end Stencil.Expr
