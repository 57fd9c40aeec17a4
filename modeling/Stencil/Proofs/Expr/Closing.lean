import Stencil.Proofs.Expr.Literals
import Stencil.Proofs.Printing.Expression

/-!
# Expressions in directives

An expression may stand between the braces of a directive, whatever it is: its words are chains and
identifiers, so closing braces stand in its literals only (`Expr.closed_of_read`).
-/

namespace Stencil

open Text.Literal (isQuote)

/-! ### Words of expressions

The words of an expression are property chains and identifiers, of which the characters are letters,
digits and dots. So a brace can stand in its literals only; that is shown along a derivation, for
each of its rows of terminals. -/

namespace Expr

/-- There is no brace in a property chain. -/
theorem brace_notMem_pathSource (path : List Identifier) :
    '}' ∉ Node.pathSource (pathNames path) := by
  intro hbrace
  rcases mem_pathSource hbrace with hdot | ⟨property, hmem, hbrace⟩
  · cases hdot
  · exact absurd (isAlphanumeric_of_mem (valid_of_mem_pathNames path property hmem) hbrace)
      (by decide)

theorem Identifier.brace_notMem (function : Identifier) : '}' ∉ function.name.toList :=
  fun hbrace => absurd (isAlphanumeric_of_mem function.valid hbrace) (by decide)

/-- There is no brace in the names of functions behind bars. -/
theorem brace_notMem_of_stageTerminals {stages : List Identifier} {cs : List Char}
    (h : .word cs ∈ stageTerminals stages) : '}' ∉ cs := by
  obtain ⟨function, -, hmem⟩ := List.mem_flatMap.1 h
  obtain rfl : cs = function.name.toList := by simpa using hmem
  exact function.brace_notMem

mutual

/-- There is no brace in the words of an operand. -/
theorem Operand.brace_notMem : ∀ (operand : Operand) {cs : List Char},
    .word cs ∈ operand.terminals → '}' ∉ cs
  | .reference path, cs, h => by
    obtain rfl : cs = Node.pathSource (pathNames path) := by simpa [Operand.terminals] using h
    exact brace_notMem_pathSource path
  | .quoted literal, cs, h => by simp [Operand.terminals] at h
  | .call function args, cs, h => by
    simp only [Operand.terminals, List.mem_cons, List.mem_append, Terminal.word.injEq, reduceCtorEq,
      List.not_mem_nil, false_or, or_false] at h
    rcases h with rfl | h
    · exact function.brace_notMem
    · exact brace_notMem_of_argumentTerminals args h

/-- **There is no brace in the words of an expression**: they are identifiers, and chains of them
with dots. -/
theorem Pipeline.brace_notMem : ∀ (pipeline : Pipeline) {cs : List Char},
    .word cs ∈ pipeline.terminals → '}' ∉ cs
  | .mk operand stages, cs, h => by
    rw [Pipeline.terminals, List.mem_append] at h
    rcases h with h | h
    · exact operand.brace_notMem h
    · exact brace_notMem_of_stageTerminals h

theorem brace_notMem_of_argumentTerminals : ∀ (args : List Pipeline) {cs : List Char},
    .word cs ∈ argumentTerminals args → '}' ∉ cs
  | [], cs, h => by simp [argumentTerminals] at h
  | arg :: args, cs, h => by
    rw [argumentTerminals, List.mem_append] at h
    rcases h with h | h
    · exact arg.brace_notMem h
    · exact brace_notMem_of_moreTerminals args h

theorem brace_notMem_of_moreTerminals : ∀ (args : List Pipeline) {cs : List Char},
    .word cs ∈ moreTerminals args → '}' ∉ cs
  | [], cs, h => by simp [moreTerminals] at h
  | arg :: args, cs, h => by
    simp only [moreTerminals, List.mem_cons, List.mem_append, reduceCtorEq, false_or] at h
    rcases h with h | h
    · exact arg.brace_notMem h
    · exact brace_notMem_of_moreTerminals args h

end

end Expr

/-! ### Closed lexemes

A text is closed if each of its lexemes is, taken one after the other. White space and delimiters
have no braces and no quotes, a literal is closed as a whole, and a word is unless it has a
brace. -/

/-- A whole literal is closed. -/
theorem LiteralBody.closed {q : Char} {body : List Char} (h : LiteralBody q body)
    (hq : isQuote q = true) : Closed (q :: (body ++ [q])) := by
  intro rest
  have hne : ∀ cs, q = '}' → body ++ q :: rest ≠ '}' :: cs := by
    rintro cs rfl
    cases hq
  have happend : q :: (body ++ [q]) ++ rest = q :: (body ++ q :: rest) := by simp
  rw [happend, spanDirective, quoteOpened, if_pos hq,
    spanDirective_of_span (ne_backslash_of_isQuote hq) (h.span_eq hq rest), Option.map_map]
  · rfl
  · exact hne

/-- The first lexeme of a text is closed, unless it is a word with a brace. -/
theorem closed_of_firstLexeme? {c : Char} {cs text rest : List Char} {kind : LexemeKind}
    (h : firstLexeme? c cs = some (kind, text, rest)) (hword : kind = .word → '}' ∉ text) :
    Closed text := by
  rcases char_cases c with hspace | hquote | (rfl | rfl | rfl | rfl) | hc
  · rw [firstLexeme?_spacing hspace] at h
    cases h
    refine closed_of_forall fun d hd => ?_
    have hspacing : Text.isSpacing d = true := by
      rcases List.mem_cons.1 hd with rfl | hd
      · exact hspace
      · exact List.all_eq_true.1 List.all_takeWhile d hd
    refine ⟨isQuote_eq_false_of_isSpacing hspacing, ?_⟩
    rintro rfl
    cases hspacing
  · rw [firstLexeme?_quote hquote] at h
    obtain ⟨⟨literal, ds⟩, hspan, hsome⟩ := Option.map_eq_some_iff.1 h
    cases hsome
    obtain ⟨body, hbody, rfl⟩ := exists_literalBody_of_span hspan
    exact hbody.closed hquote
  · cases h
    exact closed_singleton rfl (by decide)
  · cases h
    exact closed_singleton rfl (by decide)
  · cases h
    exact closed_singleton rfl (by decide)
  · cases h
    exact closed_singleton rfl (by decide)
  · rw [firstLexeme?_word hc] at h
    cases h
    refine closed_of_forall fun d hd => ⟨isQuote_eq_false_of_isWordChar ?_, ?_⟩
    · rcases List.mem_cons.1 hd with rfl | hd
      · exact hc
      · exact List.all_eq_true.1 List.all_takeWhile d hd
    · rintro rfl
      exact hword rfl hd

/-- **A text is closed** if there is no brace in the words among its lexemes. Braces in its literals
are between quotes. -/
theorem closed_of_lexemesFrom {offset : Nat} {cs : List Char} {row : List Lexeme}
    (h : lexemesFrom offset cs = .ok row)
    (hwords : ∀ lexeme ∈ row, lexeme.kind = .word → '}' ∉ lexeme.text) : Closed cs := by
  induction row generalizing offset cs with
  | nil =>
    obtain rfl : [] = cs := lexemesText_of_lexemesFrom h
    exact closed_nil
  | cons lexeme row ih =>
    obtain ⟨c, ds, rest, rfl, hfirst, hrest⟩ := exists_firstLexeme?_eq h
    obtain ⟨hlexeme, hrow⟩ := List.forall_mem_cons.1 hwords
    rw [← append_of_firstLexeme? hfirst]
    exact (closed_of_firstLexeme? hfirst hlexeme).append (ih hrest hrow)

/-- **Whatever is read as an expression can be closed behind**: written into a directive it is the
whole interior. -/
theorem Expr.closed_of_read {src : String} {text : List Char} {line : Nat} {expr : Node}
    (h : Expr.read src text line = .ok expr) : Closed text := by
  obtain ⟨pipeline, ⟨row, hrow, hterminals⟩, -⟩ := Expr.exists_derives_of_read h
  -- each word among the lexemes is a terminal of the derivation
  refine closed_of_lexemesFrom hrow fun lexeme hmem hkind => ?_
  have hterminal : lexeme.terminal? = some (.word lexeme.text) := by
    rw [Lexeme.terminal?, hkind]
  refine pipeline.brace_notMem ?_
  rw [← hterminals]
  exact List.mem_filterMap.2 ⟨lexeme, hmem, hterminal⟩

/-- A directive is complete where the braces behind a closed interior are. -/
theorem Closed.isFirstDirective {inner : List Char} (h : Closed inner) :
    IsFirstDirective (Node.directive inner) := by
  have hspan : spanDirective none (inner ++ ['}', '}'] ++ []) = some (inner ++ ['}', '}'], []) := by
    rw [List.append_nil]
    exact h ['}', '}']
  rw [List.append_nil] at hspan
  exact (spanDirective_eq_some_iff.1 hspan).2

end Stencil
