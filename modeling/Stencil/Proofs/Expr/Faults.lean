import Stencil.Expr.Reader

/-!
# Faults of expressions

What the reader of expressions finds wrong is about lexemes: operands, names, parentheses, literals,
and what is left behind a whole expression. How the directives of a document fit together is none
of its business (`Expr.isFailure_of_read`, `Expr.isFailure_of_readInclusion`).
-/

namespace Stencil

/-- **The faults that an expression can have.** All others are about how directives fit together. -/
def Fault.isOfExpression : Fault → Bool
  | .unterminatedLiteral _ | .missingOperand _ | .unexpectedLexeme .. | .expectedParen ..
  | .missingName _ | .expectedName _ | .malformedReference _ | .unknownEscape ..
  | .danglingBackslash _ | .trailingContent .. => true
  | .nameNotLiteral _ | .redefinition _ | .misplacedDefine | .contentAfterKeyword _ | .missingEnd
  | .expectedEnd _ | .unparsedContent _ => false

namespace Expr

variable {src : String} {text : List Char} {line : Nat}

/-- What cannot begin an operand has such a fault. -/
theorem isOfExpression_of_beginOperand {lexeme : Lexeme} {fault : Fault}
    (h : beginOperand src text line lexeme = .error fault) : fault.isOfExpression = true := by
  unfold beginOperand at h
  split at h
  · split at h <;> cases h
    rfl
  · split at h <;> cases h
    rfl
  · split at h
    · cases h
    · next flaw _ =>
      cases h
      cases flaw <;> rfl
  · cases h
    rfl

/-- **What the reader cannot take** is no operand, or stands where a parenthesis or a name belongs.
Which of the three it is depends on what the reader expects, not on the lexeme. -/
theorem fault_of_step {expecting : Expecting} {calls : List OpenCall} {lexeme : Lexeme}
    {fault : Fault} (h : step src text expecting calls line lexeme = .error fault) :
    beginOperand src text line lexeme = .error fault ∨
      (∃ found, fault = .expectedName found) ∨
      ∃ paren found, fault = .expectedParen paren found := by
  have of_map {f : Expecting → Progress}
      (h : (beginOperand src text line lexeme).map f = .error fault) :
      beginOperand src text line lexeme = .error fault := by
    cases hbegin : beginOperand src text line lexeme with
    | ok next =>
      rw [hbegin] at h
      cases h
    | error other =>
      rw [hbegin] at h
      cases h
      rfl
  unfold step at h
  split at h
  · exact .inl (of_map h)
  · split at h
    · cases h
    · exact .inl (of_map h)
  · split at h <;> cases h
    exact .inr (.inr ⟨_, _, rfl⟩)
  · split at h <;> cases h
    exact .inr (.inl ⟨_, rfl⟩)
  · split at h <;> cases h
    exact .inr (.inr ⟨_, _, rfl⟩)

/-- So has what the reader cannot take. -/
theorem isOfExpression_of_step {expecting : Expecting} {calls : List OpenCall} {lexeme : Lexeme}
    {fault : Fault} (h : step src text expecting calls line lexeme = .error fault) :
    fault.isOfExpression = true := by
  rcases fault_of_step h with hbegin | ⟨found, rfl⟩ | ⟨paren, found, rfl⟩
  · exact isOfExpression_of_beginOperand hbegin
  · rfl
  · rfl

/-- So has an expression that is not whole at its end. -/
theorem isOfExpression_of_finish {calls : List OpenCall} {expecting : Expecting} {fault : Fault}
    (h : finish text calls expecting = .error fault) : fault.isOfExpression = true := by
  unfold finish at h
  split at h
  iterate 4
    · cases h
      rfl
  · split at h <;> cases h
    rfl

/-- **What stops the reader** is a lexeme that it cannot take, or the end of the lexemes. Its error
is that of the one step, on the line that was come to. -/
theorem exists_fault_of_run {row : List Lexeme} {expecting : Expecting} {calls : List OpenCall}
    {e : SourceError} (h : run src text expecting calls line row = .error e) :
    ∃ loc fault, e = .malformed loc fault ∧
      ((∃ calls expecting, finish text calls expecting = .error fault) ∨
        ∃ lexeme ∈ row, ∃ expecting calls line,
          step src text expecting calls line lexeme = .error fault) := by
  -- what is wrong behind a lexeme is wrong in the whole row
  have later {lexeme : Lexeme} {rest : List Lexeme} {fault : Fault}
      (h : (∃ calls expecting, finish text calls expecting = .error fault) ∨
        ∃ lexeme ∈ rest, ∃ expecting calls line,
          step src text expecting calls line lexeme = .error fault) :
      (∃ calls expecting, finish text calls expecting = .error fault) ∨
        ∃ found ∈ lexeme :: rest, ∃ expecting calls line,
          step src text expecting calls line found = .error fault :=
    h.imp_right fun ⟨found, hmem, hstep⟩ => ⟨found, List.mem_cons_of_mem _ hmem, hstep⟩
  fun_induction run src text expecting calls line row with
  | case1 | case5 => cases h
  | case2 expecting calls _ fault hfinish =>
    cases h
    exact ⟨_, fault, rfl, .inl ⟨calls, expecting, hfinish⟩⟩
  | case3 _ _ _ _ _ _ ih =>
    obtain ⟨loc, fault, rfl, hcause⟩ := ih h
    exact ⟨loc, fault, rfl, later hcause⟩
  | case4 _ _ _ _ _ _ _ _ _ ih =>
    obtain ⟨loc, fault, rfl, hcause⟩ := ih h
    exact ⟨loc, fault, rfl, later hcause⟩
  | case6 expecting calls line lexeme _ _ fault hstep =>
    cases h
    exact ⟨_, fault, rfl, .inr ⟨lexeme, List.mem_cons_self, expecting, calls, line, hstep⟩⟩

/-- **An error about an expression.** Every reader below fails with such an error only, and this is
what keeps the faults of expressions apart from those of documents. -/
def IsFailure (e : SourceError) : Prop :=
  ∃ loc fault, e = .malformed loc fault ∧ fault.isOfExpression = true

variable {e : SourceError}

theorem isFailure_of_readFirst (h : readFirst src text line = .error e) : IsFailure e := by
  unfold readFirst at h
  split at h
  · obtain ⟨loc, fault, rfl, ⟨_, _, hfinish⟩ | ⟨_, _, _, _, _, hstep⟩⟩ := exists_fault_of_run h
    · exact ⟨loc, fault, rfl, isOfExpression_of_finish hfinish⟩
    · exact ⟨loc, fault, rfl, isOfExpression_of_step hstep⟩
  · cases h
    exact ⟨_, _, rfl, rfl⟩

/-- **An expression that cannot be read has a fault of its own**, and no other error comes of it. -/
theorem isFailure_of_read (h : read src text line = .error e) : IsFailure e := by
  unfold read at h
  split at h
  · next hfirst =>
    cases h
    exact isFailure_of_readFirst hfirst
  · split at h <;> cases h
    exact ⟨_, _, rfl, rfl⟩

/-- So has what an inclusion should say. -/
theorem isFailure_of_readInclusion (h : readInclusion src text line = .error e) : IsFailure e := by
  unfold readInclusion at h
  split at h
  · next hfirst =>
    cases h
    exact isFailure_of_readFirst hfirst
  · next reading _ =>
    dsimp only at h
    split at h
    · cases h
    · cases hread : read src reading.remainder
          (line + Text.newlines (upTo text reading.remainder)) with
      | ok data =>
        rw [hread] at h
        cases h
      | error other =>
        rw [hread] at h
        cases h
        exact isFailure_of_read hread

end Expr

end Stencil
