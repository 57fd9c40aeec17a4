import Stencil.Proofs.Expr.Grammar

/-!
# The steps of the expression reader

What the reader does on a lexeme, said once for all lexemes but spacing: with what an operand can
begin (`Begins`), and which terminal takes the reader from which state to which (`Steps`). The
reader does that and nothing else (`step_eq_ok_iff`); all that is proved about its runs goes through
this.
-/

namespace Stencil.Expr

variable {src : String} {text : List Char}

/-! ### The beginning of an operand

An operand begins in two of the reader's states, and the lexeme alone decides how. A word with a dot
in front is a chain, any other is the name of a function, and the checks made on them are those of
`Identifier`. -/

/-- **What begins an operand**: a word that is a property chain, a literal that can be read, or the
name of a function. The outcome is the state that the reader comes to. -/
inductive Begins (src : String) (line : Nat) : Terminal → Expecting → Prop
  /-- a chain is a whole operand -/
  | reference (path : List Identifier) :
    Begins src line (.word (Node.pathSource (pathNames path)))
      (.continuation (.reference ⟨src, line⟩ (pathNames path)))
  /-- a literal is a whole operand -/
  | quoted (literal : Quotation) :
    Begins src line (.quoted literal.text)
      (.continuation (.literal ⟨src, line⟩ (String.ofList literal.value)))
  /-- a name needs its arguments -/
  | name (function : Identifier) :
    Begins src line (.word function.name.toList) (.arguments line function.name)

/-- Names of properties, as identifiers. -/
theorem exists_pathNames_eq {path : List String}
    (h : ∀ property ∈ path, isIdentifier property.toList = true) :
    ∃ identifiers, pathNames identifiers = path := by
  induction path with
  | nil => exact ⟨[], rfl⟩
  | cons property path ih =>
    obtain ⟨identifiers, hrest⟩ := ih fun p hp => h p (List.mem_cons_of_mem _ hp)
    refine ⟨⟨property, h property List.mem_cons_self⟩ :: identifiers, ?_⟩
    rw [pathNames, List.map_cons, ← pathNames, hrest]

/-- What begins an operand takes the reader where it says. -/
theorem beginOperand_of_begins {line : Nat} {lexeme : Lexeme} {t : Terminal} {next : Expecting}
    (ht : lexeme.terminal? = some t) (h : Begins src line t next) :
    beginOperand src text line lexeme = .ok next := by
  obtain ⟨kind, word, offset⟩ := lexeme
  cases h with
  | reference path =>
    have hpath := path?_tail_pathSource (valid_of_mem_pathNames path)
    cases kind <;> cases ht
    simp only [Node.pathSource, List.tail_cons] at hpath
    simp only [beginOperand, hpath]
  | quoted literal =>
    cases kind <;> cases ht
    simp only [beginOperand, literal.decodes]
  | name function =>
    cases kind <;> simp only [Lexeme.terminal?, Option.some.injEq, Terminal.word.injEq,
      reduceCtorEq] at ht
    obtain ⟨c, cs, hname, hc⟩ := exists_letter_of_isIdentifier function.valid
    have hdot : c ≠ '.' := by
      rintro rfl
      cases hc
    have hvalid : isIdentifier (c :: cs) = true := hname ▸ function.valid
    have hbegin : beginOperand src text line ⟨.word, c :: cs, offset⟩
        = .ok (.arguments line (String.ofList (c :: cs))) := by
      simp [beginOperand, hdot, hvalid]
    rw [ht, hname, hbegin, ← hname, String.ofList_toList]

/-- An operand begins only with what can begin one. -/
theorem begins_of_beginOperand {line : Nat} {lexeme : Lexeme} {next : Expecting}
    (h : beginOperand src text line lexeme = .ok next) :
    ∃ t, lexeme.terminal? = some t ∧ Begins src line t next := by
  obtain ⟨kind, word, offset⟩ := lexeme
  unfold beginOperand at h
  -- a chain, a name, a literal, or nothing that can begin an operand
  split at h
  · next cs hkind hword =>
    obtain rfl : kind = .word := hkind
    obtain rfl : word = '.' :: cs := hword
    split at h
    · next path hpath =>
      obtain rfl := Except.ok.inj h
      obtain ⟨hcs, hvalid⟩ := eq_pathSource_of_path? hpath
      obtain ⟨identifiers, rfl⟩ := exists_pathNames_eq hvalid
      exact ⟨_, by rw [Lexeme.terminal?, hcs], .reference identifiers⟩
    · cases h
  · next hkind _ =>
    obtain rfl : kind = .word := hkind
    split at h
    · next hvalid =>
      obtain rfl := Except.ok.inj h
      have hname : isIdentifier (String.ofList word).toList = true := by
        rwa [String.toList_ofList]
      refine ⟨_, rfl, ?_⟩
      simpa only [String.toList_ofList] using Begins.name ⟨String.ofList word, hname⟩
    · cases h
  · next hkind =>
    obtain rfl : kind = .quoted := hkind
    split at h
    · next value hvalue =>
      obtain rfl := Except.ok.inj h
      exact ⟨_, rfl, .quoted ⟨word, value, hvalue⟩⟩
    · cases h
  · cases h

/-! ### All steps

One constructor for each thing that the reader can do. It is a relation, so it says nothing of
lexemes that are refused; those are all for which there is no step. -/

/-- **What the reader does on a terminal**, from any of its states. Only between whole expressions
does it stop, and there before everything but a bar. -/
inductive Steps (src : String) (line : Nat) :
    Expecting → List OpenCall → Terminal → Progress → Prop
  /-- an operand where one is expected -/
  | operand {calls : List OpenCall} {t : Terminal} {next : Expecting} :
    Begins src line t next → Steps src line .operand calls t (.go next calls)
  /-- the first argument of a call -/
  | firstArgument {calls : List OpenCall} {t : Terminal} {next : Expecting} :
    Begins src line t next → Steps src line .firstArgument calls t (.go next calls)
  /-- the end of a call without arguments -/
  | noArgument (call : OpenCall) (outer : List OpenCall) :
    Steps src line .firstArgument (call :: outer) .closeParen
      (.go (.continuation (call.close src)) outer)
  /-- the parenthesis behind the name of a call -/
  | arguments (start : Nat) (name : String) (calls : List OpenCall) :
    Steps src line (.arguments start name) calls .openParen
      (.go .firstArgument (⟨start, name, []⟩ :: calls))
  /-- the function behind a bar -/
  | stage (input : Node) (function : Identifier) (calls : List OpenCall) :
    Steps src line (.stage input) calls (.word function.name.toList)
      (.go (.continuation (.call ⟨src, input.loc.line⟩ function.name [input])) calls)
  /-- a bar -/
  | pipe (expr : Node) (calls : List OpenCall) :
    Steps src line (.continuation expr) calls .pipe (.go (.stage expr) calls)
  /-- what does not belong to the expression -/
  | stop (expr : Node) {t : Terminal} :
    t ≠ .pipe → Steps src line (.continuation expr) [] t (.stop expr)
  /-- the comma behind an argument -/
  | comma (expr : Node) (call : OpenCall) (outer : List OpenCall) :
    Steps src line (.continuation expr) (call :: outer) .comma
      (.go .operand ({ call with args := expr :: call.args } :: outer))
  /-- the parenthesis behind the last argument -/
  | closeParen (expr : Node) (call : OpenCall) (outer : List OpenCall) :
    Steps src line (.continuation expr) (call :: outer) .closeParen
      (.go (.continuation ({ call with args := expr :: call.args }.close src)) outer)

/-- But for the end of a call, the first argument is an operand like any other. -/
theorem step_firstArgument {calls : List OpenCall} {line : Nat} {lexeme : Lexeme}
    (h : lexeme.kind ≠ .closeParen) :
    step src text .firstArgument calls line lexeme
      = (beginOperand src text line lexeme).map (.go · calls) := by
  obtain ⟨kind, word, offset⟩ := lexeme
  cases kind <;> first
    | rfl
    | exact absurd rfl h

/-- The reader does what the relation says. -/
theorem step_of_steps {line : Nat} {lexeme : Lexeme} {t : Terminal} {expecting : Expecting}
    {calls : List OpenCall} {progress : Progress} (ht : lexeme.terminal? = some t)
    (h : Steps src line expecting calls t progress) :
    step src text expecting calls line lexeme = .ok progress := by
  cases h with
  | operand hbegins => rw [step, beginOperand_of_begins ht hbegins, Except.map]
  | firstArgument hbegins =>
    have hkind : lexeme.kind ≠ .closeParen := by
      intro hkind
      rw [Lexeme.terminal?, hkind] at ht
      cases ht
      cases hbegins
    rw [step_firstArgument hkind, beginOperand_of_begins ht hbegins, Except.map]
  | stage input function =>
    obtain ⟨kind, word, offset⟩ := lexeme
    cases kind <;> simp only [Lexeme.terminal?, Option.some.injEq, Terminal.word.injEq,
      reduceCtorEq] at ht
    subst ht
    simp [step, function.valid]
  -- every kind of lexeme but a bar stops the reader here
  | stop expr hne =>
    obtain ⟨kind, word, offset⟩ := lexeme
    cases kind <;> cases ht
    case stop.pipe.refl => exact absurd rfl hne
    all_goals rfl
  | _ =>
    obtain ⟨kind, word, offset⟩ := lexeme
    cases kind <;> cases ht
    rfl

/-- A beginning of an operand, taken with the stack as it is. -/
theorem exists_begins_of_map {line : Nat} {lexeme : Lexeme} {t : Terminal}
    {calls : List OpenCall} {progress : Progress} (ht : lexeme.terminal? = some t)
    (h : (beginOperand src text line lexeme).map (.go · calls) = .ok progress) :
    ∃ next, Begins src line t next ∧ progress = .go next calls := by
  cases hbegin : beginOperand src text line lexeme with
  | error fault =>
    rw [hbegin] at h
    cases h
  | ok next =>
    obtain ⟨t', ht', hbegins⟩ := begins_of_beginOperand hbegin
    obtain rfl := Option.some.inj (ht.symm.trans ht')
    rw [hbegin] at h
    exact ⟨next, hbegins, (Except.ok.inj h).symm⟩

/-- The reader does only what the relation says. -/
theorem steps_of_step {line : Nat} {lexeme : Lexeme} {t : Terminal} {expecting : Expecting}
    {calls : List OpenCall} {progress : Progress} (ht : lexeme.terminal? = some t)
    (h : step src text expecting calls line lexeme = .ok progress) :
    Steps src line expecting calls t progress := by
  cases expecting with
  | operand =>
    obtain ⟨next, hbegins, rfl⟩ := exists_begins_of_map ht h
    exact .operand hbegins
  | firstArgument =>
    by_cases hkind : lexeme.kind = .closeParen
    · obtain ⟨kind, word, offset⟩ := lexeme
      obtain rfl : kind = .closeParen := hkind
      cases ht
      cases calls with
      | nil => cases h
      | cons call outer =>
        cases h
        exact .noArgument call outer
    · rw [step_firstArgument hkind] at h
      obtain ⟨next, hbegins, rfl⟩ := exists_begins_of_map ht h
      exact .firstArgument hbegins
  | arguments start name =>
    obtain ⟨kind, word, offset⟩ := lexeme
    cases kind <;> cases ht <;> cases h
    exact .arguments start name calls
  | stage input =>
    obtain ⟨kind, word, offset⟩ := lexeme
    simp only [step] at h
    split at h
    · next hname =>
      obtain ⟨hkind, hvalid⟩ := hname
      obtain rfl : kind = .word := hkind
      cases h
      cases ht
      have hname : isIdentifier (String.ofList word).toList = true := by
        rwa [String.toList_ofList]
      simpa only [String.toList_ofList] using
        (Steps.stage input ⟨String.ofList word, hname⟩ calls : Steps src line _ _ _ _)
    · cases h
  -- with and without an open call, for each kind of lexeme
  | continuation expr =>
    obtain ⟨kind, word, offset⟩ := lexeme
    cases kind <;> cases ht <;> cases calls <;> cases h
    case pipe.refl.nil.refl => exact .pipe expr []
    case pipe.refl.cons.refl => exact .pipe expr _
    case comma.refl.cons.refl => exact .comma expr _ _
    case closeParen.refl.cons.refl => exact .closeParen expr _ _
    all_goals exact .stop expr nofun

/-- **The steps of the reader** on a lexeme that is not spacing. What is proved of readings goes
through this equivalence and never unfolds the reader. -/
theorem step_eq_ok_iff {line : Nat} {lexeme : Lexeme} {t : Terminal} {expecting : Expecting}
    {calls : List OpenCall} {progress : Progress} (ht : lexeme.terminal? = some t) :
    step src text expecting calls line lexeme = .ok progress ↔
      Steps src line expecting calls t progress :=
  ⟨steps_of_step ht, step_of_steps ht⟩

end Stencil.Expr
