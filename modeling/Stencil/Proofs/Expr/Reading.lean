import Stencil.Proofs.Expr.Steps

/-!
# What the expression reader reads

The reader and the grammar agree. On the terminals of a derivation, with any spacing among them, the
reader comes to the tree of that derivation (`Pipeline.exists_takes`); and whenever it reads an
expression, what it has taken is what some derivation yields (`splits`). Calls nest and pipelines
stand in arguments, so both are proved for a reader with any calls around it, and for any lexemes
behind what it takes.
-/

namespace Stencil.Expr

variable {src : String} {text : List Char}

/-! ### Moments

A run goes from one state, stack and line to another. `Takes` is that relation for a row of lexemes,
stated so that it holds whatever follows the row; it is closed under appending, so what a derivation
yields can be taken piece by piece. -/

/-- **A moment of the reader**: all that decides how it goes on, but for the lexemes that come. -/
structure Moment where
  /-- what it expects next -/
  expecting : Expecting
  /-- the calls whose arguments are not complete, innermost first -/
  calls : List OpenCall
  /-- the line it has come to -/
  line : Nat

/-- The reading of a row from a moment on. -/
def Moment.run (src : String) (text : List Char) (moment : Moment) (row : List Lexeme) :
    Except SourceError Reading :=
  Expr.run src text moment.expecting moment.calls moment.line row

/-- **A row takes the reader from one moment to another** if it does so whatever follows. So rows
can be put together, and nothing is said of where a reading ends. -/
def Takes (src : String) (text : List Char) (row : List Lexeme) (before after : Moment) : Prop :=
  ∀ rest, before.run src text (row ++ rest) = after.run src text rest

theorem Takes.refl (moment : Moment) : Takes src text [] moment moment :=
  fun _ => rfl

/-- Rows put one after the other take the reader all the way. -/
theorem Takes.trans {row other : List Lexeme} {a b c : Moment} (h : Takes src text row a b)
    (h' : Takes src text other b c) : Takes src text (row ++ other) a c := by
  intro rest
  rw [List.append_assoc, h, h']

/-- Spacing changes the line only. -/
theorem takes_space {lexeme : Lexeme} (h : lexeme.kind = .space) (expecting : Expecting)
    (calls : List OpenCall) (line : Nat) :
    Takes src text [lexeme] ⟨expecting, calls, line⟩
      ⟨expecting, calls, line + Text.newlines lexeme.text⟩ := by
  intro rest
  rw [Moment.run, List.singleton_append, Expr.run, if_pos h]
  rfl

/-- A row of nothing but spacing changes the line only. -/
theorem exists_takes_spacing {row : List Lexeme} (h : terminals row = []) (line : Nat) :
    ∃ line', ∀ expecting calls,
      Takes src text row ⟨expecting, calls, line⟩ ⟨expecting, calls, line'⟩ := by
  induction row generalizing line with
  | nil => exact ⟨line, fun _ _ => .refl _⟩
  | cons lexeme row ih =>
    have hspace : lexeme.kind = .space :=
      terminal?_eq_none_iff.1 (List.filterMap_eq_nil_iff.1 h lexeme List.mem_cons_self)
    rw [terminals_cons_space hspace] at h
    obtain ⟨line', htakes⟩ := ih h (line + Text.newlines lexeme.text)
    refine ⟨line', ?_⟩
    intro expecting calls
    exact (takes_space hspace expecting calls line).trans (htakes expecting calls)

/-- What is something to the grammar is no spacing. -/
theorem ne_space_of_terminal? {lexeme : Lexeme} {t : Terminal} (ht : lexeme.terminal? = some t) :
    lexeme.kind ≠ .space := by
  intro hspace
  rw [terminal?_eq_none_iff.2 hspace] at ht
  cases ht

/-- A terminal takes the reader where its step says. -/
theorem takes_step {lexeme : Lexeme} {t : Terminal} (ht : lexeme.terminal? = some t) {line : Nat}
    {expecting next : Expecting} {calls after : List OpenCall}
    (h : Steps src line expecting calls t (.go next after)) :
    Takes src text [lexeme] ⟨expecting, calls, line⟩ ⟨next, after, line⟩ := by
  intro rest
  rw [Moment.run, List.singleton_append, Expr.run, if_neg (ne_space_of_terminal? ht),
    (step_eq_ok_iff ht).2 h]
  rfl

/-- The first terminal of a row, with the spacing before it, takes the reader where its step says.
The step is made on the line that the reader has come to by then. -/
theorem exists_takes_terminal {row : List Lexeme} {t : Terminal} {ts : List Terminal}
    (h : terminals row = t :: ts) (line : Nat) :
    ∃ taken rest line', row = taken ++ rest ∧ terminals rest = ts ∧
      ∀ {expecting next calls after}, Steps src line' expecting calls t (.go next after) →
        Takes src text taken ⟨expecting, calls, line⟩ ⟨next, after, line'⟩ := by
  obtain ⟨spacing, lexeme, rest, rfl, hspacing, ht, hrest⟩ := List.filterMap_eq_cons_iff.1 h
  obtain ⟨line', htakes⟩ : ∃ line', ∀ expecting calls,
      Takes src text spacing ⟨expecting, calls, line⟩ ⟨expecting, calls, line'⟩ :=
    exists_takes_spacing (List.filterMap_eq_nil_iff.2 hspacing) line
  refine ⟨spacing ++ [lexeme], rest, line', by simp, hrest, ?_⟩
  intro expecting next calls after hsteps
  exact (htakes expecting calls).trans (takes_step ht hsteps)

/-! ### From derivations to readings

By mutual recursion on derivations. Each lemma is about any open calls, because an operand may stand
in the arguments of any number of them, and about trees up to lines, because the lines depend on the
spacing. -/

/-- The states in which an operand is expected. -/
def ExpectsOperand (expecting : Expecting) : Prop :=
  expecting = .operand ∨ expecting = .firstArgument

/-- What begins an operand is taken wherever one is expected. -/
theorem Begins.steps {line : Nat} {t : Terminal} {expecting next : Expecting}
    (h : Begins src line t next) (hexpects : ExpectsOperand expecting) (calls : List OpenCall) :
    Steps src line expecting calls t (.go next calls) := by
  rcases hexpects with rfl | rfl
  · exact .operand h
  · exact .firstArgument h

/-- A whole operand is taken by its one terminal, with the spacing around it. -/
theorem exists_takes_of_begins {row : List Lexeme} {t : Terminal} (h : terminals row = [t])
    {tree : Node} {expecting : Expecting} (hexpects : ExpectsOperand expecting)
    (hbegins : ∀ line, ∃ expr, expr.unlined = tree ∧ Begins src line t (.continuation expr))
    (calls : List OpenCall) (line : Nat) :
    ∃ expr line', expr.unlined = tree ∧
      Takes src text row ⟨expecting, calls, line⟩ ⟨.continuation expr, calls, line'⟩ := by
  obtain ⟨taken, rest, line₁, rfl, hrest, htakes⟩ := exists_takes_terminal h line
  obtain ⟨line₂, hspacing⟩ := exists_takes_spacing hrest line₁
  obtain ⟨expr, htree, hexpr⟩ := hbegins line₁
  exact ⟨expr, line₂, htree, (htakes (hexpr.steps hexpects calls)).trans (hspacing _ _)⟩

/-- The functions behind the bars are called on what stands before them. -/
theorem exists_takes_stages {stages : List Identifier} {row : List Lexeme}
    (h : terminals row = stageTerminals stages) (input : Node) (calls : List OpenCall)
    (line : Nat) :
    ∃ expr line', expr.unlined = callStages src input.unlined stages ∧
      Takes src text row ⟨.continuation input, calls, line⟩
        ⟨.continuation expr, calls, line'⟩ := by
  induction stages generalizing row input line with
  | nil =>
    obtain ⟨line', hspacing⟩ := exists_takes_spacing h line
    exact ⟨input, line', rfl, hspacing _ _⟩
  | cons function stages ih =>
    obtain ⟨bar, rest, line₁, rfl, hrest, hbar⟩ := exists_takes_terminal h line
    obtain ⟨name, rest, line₂, rfl, hrest, hname⟩ := exists_takes_terminal hrest line₁
    obtain ⟨expr, line₃, htree, hstages⟩ :=
      ih hrest (.call ⟨src, input.loc.line⟩ function.name [input]) line₂
    refine ⟨expr, line₃, ?_, ?_⟩
    · rw [htree, Node.unlined_call]
      rfl
    · exact (hbar (.pipe input calls)).trans ((hname (.stage input function calls)).trans hstages)

mutual

/-- **On the terminals of an operand the reader comes to its tree**, with any calls around it and
whatever follows. -/
theorem Operand.exists_takes : ∀ (operand : Operand) {row : List Lexeme},
    terminals row = operand.terminals → ∀ {expecting : Expecting}, ExpectsOperand expecting →
      ∀ (calls : List OpenCall) (line : Nat), ∃ expr line', expr.unlined = operand.tree src ∧
        Takes src text row ⟨expecting, calls, line⟩ ⟨.continuation expr, calls, line'⟩
  | .reference path, row, h, expecting, hexpects, calls, line => by
    refine exists_takes_of_begins h hexpects (fun line => ?_) calls line
    exact ⟨_, rfl, .reference path⟩
  | .quoted literal, row, h, expecting, hexpects, calls, line => by
    refine exists_takes_of_begins h hexpects (fun line => ?_) calls line
    exact ⟨_, rfl, .quoted literal⟩
  -- the name opens the call, the parenthesis puts it on the stack, and its arguments come next
  | .call function args, row, h, expecting, hexpects, calls, line => by
    obtain ⟨name, rest, line₁, rfl, hrest, hname⟩ := exists_takes_terminal h line
    obtain ⟨paren, rest, line₂, rfl, hrest, hparen⟩ := exists_takes_terminal hrest line₁
    obtain ⟨expr, line₃, htree, hargs⟩ :=
      exists_takes_arguments args hrest line₁ function.name calls line₂
    refine ⟨expr, line₃, htree, ?_⟩
    exact (hname ((Begins.name function).steps hexpects calls)).trans
      ((hparen (.arguments line₁ function.name calls)).trans hargs)

/-- On the terminals of a pipeline the reader comes to its tree. -/
theorem Pipeline.exists_takes : ∀ (pipeline : Pipeline) {row : List Lexeme},
    terminals row = pipeline.terminals → ∀ {expecting : Expecting}, ExpectsOperand expecting →
      ∀ (calls : List OpenCall) (line : Nat), ∃ expr line', expr.unlined = pipeline.tree src ∧
        Takes src text row ⟨expecting, calls, line⟩ ⟨.continuation expr, calls, line'⟩
  | .mk operand stages, row, h, expecting, hexpects, calls, line => by
    -- the row is divided where the terminals of the operand end
    obtain ⟨first, rest, rfl, hfirst, hrest⟩ := List.filterMap_eq_append_iff.1 h
    obtain ⟨input, line₁, htree, hoperand⟩ :=
      Operand.exists_takes operand hfirst hexpects calls line
    obtain ⟨expr, line₂, hexpr, hstages⟩ := exists_takes_stages hrest input calls line₁
    exact ⟨expr, line₂, by rw [hexpr, htree, Pipeline.tree], hoperand.trans hstages⟩

/-- On the terminals of all arguments of a call, and its end, the reader comes to the call. -/
theorem exists_takes_arguments : ∀ (args : List Pipeline) {row : List Lexeme},
    terminals row = argumentTerminals args ++ [.closeParen] →
      ∀ (start : Nat) (name : String) (outer : List OpenCall) (line : Nat),
        ∃ expr line', expr.unlined = Node.call ⟨src, 0⟩ name (treesOf src args) ∧
          Takes src text row ⟨.firstArgument, ⟨start, name, []⟩ :: outer, line⟩
            ⟨.continuation expr, outer, line'⟩
  | [], row, h, start, name, outer, line => by
    obtain ⟨paren, rest, line₁, rfl, hrest, hparen⟩ := exists_takes_terminal h line
    obtain ⟨line₂, hspacing⟩ := exists_takes_spacing hrest line₁
    exact ⟨_, line₂, rfl, (hparen (.noArgument ⟨start, name, []⟩ outer)).trans (hspacing _ _)⟩
  | arg :: args, row, h, start, name, outer, line => by
    rw [argumentTerminals, List.append_assoc] at h
    obtain ⟨first, rest, rfl, hfirst, hrest⟩ := List.filterMap_eq_append_iff.1 h
    obtain ⟨value, line₁, htree, harg⟩ :=
      Pipeline.exists_takes arg hfirst (.inr rfl) (⟨start, name, []⟩ :: outer) line
    obtain ⟨expr, line₂, hexpr, hmore⟩ :=
      exists_takes_more args hrest value ⟨start, name, []⟩ outer line₁
    refine ⟨expr, line₂, ?_, harg.trans hmore⟩
    rw [hexpr, treesOf, ← htree]
    rfl

/-- On the terminals of the arguments that are left, and the end of the call, the reader comes to
the call with all its arguments. -/
theorem exists_takes_more : ∀ (args : List Pipeline) {row : List Lexeme},
    terminals row = moreTerminals args ++ [.closeParen] →
      ∀ (value : Node) (call : OpenCall) (outer : List OpenCall) (line : Nat),
        ∃ expr line', expr.unlined
            = Node.call ⟨src, 0⟩ call.name ((value :: call.args).reverse.map Node.unlined
                ++ treesOf src args) ∧
          Takes src text row ⟨.continuation value, call :: outer, line⟩
            ⟨.continuation expr, outer, line'⟩
  | [], row, h, value, call, outer, line => by
    obtain ⟨paren, rest, line₁, rfl, hrest, hparen⟩ := exists_takes_terminal h line
    obtain ⟨line₂, hspacing⟩ := exists_takes_spacing hrest line₁
    refine ⟨_, line₂, ?_, (hparen (.closeParen value call outer)).trans (hspacing _ _)⟩
    rw [OpenCall.close, Node.unlined_call, treesOf, List.append_nil]
  | arg :: args, row, h, value, call, outer, line => by
    rw [moreTerminals, List.cons_append, List.append_assoc] at h
    obtain ⟨comma, rest, line₁, rfl, hrest, hcomma⟩ := exists_takes_terminal h line
    obtain ⟨first, rest, rfl, hfirst, hrest⟩ := List.filterMap_eq_append_iff.1 hrest
    obtain ⟨next, line₂, htree, harg⟩ := Pipeline.exists_takes arg hfirst (.inl rfl)
      ({ call with args := value :: call.args } :: outer) line₁
    obtain ⟨expr, line₃, hexpr, hmore⟩ := exists_takes_more args hrest next
      { call with args := value :: call.args } outer line₂
    refine ⟨expr, line₃, ?_, (hcomma (.comma value call outer)).trans (harg.trans hmore)⟩
    rw [hexpr, treesOf, ← htree, List.reverse_cons, List.map_append, List.append_assoc]
    rfl

end

/-! ### From readings to derivations

The reader goes from left to right and does not know where an operand ends, so the row is split as
it goes: an operand, then all functions behind bars, then what is settled. `Splits` says that for
one row. It is proved by induction on the length of the row, and the lemmas on calls take it as a
hypothesis for shorter rows. -/

/-- A row on which a reading goes no further: it does not begin with spacing or a bar. -/
def Settled (rest : List Lexeme) : Prop :=
  ∀ lexeme ∈ rest.head?, lexeme.kind ≠ .space ∧ lexeme.kind ≠ .pipe

/-- The spacing at the beginning of a row. -/
theorem exists_spacing (row : List Lexeme) :
    ∃ spacing rest, row = spacing ++ rest ∧ terminals spacing = [] ∧
      ∀ lexeme ∈ rest.head?, lexeme.kind ≠ .space := by
  induction row with
  | nil => exact ⟨[], [], rfl, rfl, nofun⟩
  | cons lexeme row ih =>
    by_cases hspace : lexeme.kind = .space
    · obtain ⟨spacing, rest, rfl, hspacing, hrest⟩ := ih
      exact ⟨lexeme :: spacing, rest, rfl, by rw [terminals_cons_space hspace, hspacing], hrest⟩
    · refine ⟨[], lexeme :: row, rfl, rfl, ?_⟩
      intro other hother
      obtain rfl := Option.some.inj hother
      exact hspace

/-- The reader takes the spacing at the beginning of a row before anything else. -/
theorem exists_run_of_spacing {expecting : Expecting} {calls : List OpenCall} {line : Nat}
    {row : List Lexeme} {reading : Reading}
    (h : run src text expecting calls line row = .ok reading) :
    ∃ spacing rest line', row = spacing ++ rest ∧ terminals spacing = [] ∧
      (∀ lexeme ∈ rest.head?, lexeme.kind ≠ .space) ∧
      run src text expecting calls line' rest = .ok reading := by
  obtain ⟨spacing, rest, rfl, hspacing, hrest⟩ := exists_spacing row
  obtain ⟨line', htakes⟩ := exists_takes_spacing hspacing line
  refine ⟨spacing, rest, line', rfl, hspacing, hrest, ?_⟩
  rw [← h]
  exact (htakes expecting calls rest).symm

/-- A lexeme that is not spacing is something to the grammar. -/
theorem exists_terminal_of_ne_space {lexeme : Lexeme} (h : lexeme.kind ≠ .space) :
    ∃ t, lexeme.terminal? = some t := by
  apply Option.ne_none_iff_exists'.1
  intro hnone
  exact h (terminal?_eq_none_iff.1 hnone)

/-- Only a bar is a bar to the grammar. -/
theorem kind_of_terminal?_eq_pipe {lexeme : Lexeme} (h : lexeme.terminal? = some .pipe) :
    lexeme.kind = .pipe := by
  obtain ⟨kind, word, offset⟩ := lexeme
  cases kind <;> cases h
  rfl

/-- A reading that goes on over a lexeme makes a step on it, or stops there. -/
theorem run_cons_eq_ok {expecting : Expecting} {calls : List OpenCall} {line : Nat}
    {lexeme : Lexeme} {t : Terminal} {rest : List Lexeme} {reading : Reading}
    (ht : lexeme.terminal? = some t)
    (h : run src text expecting calls line (lexeme :: rest) = .ok reading) :
    (∃ next after, Steps src line expecting calls t (.go next after) ∧
        run src text next after line rest = .ok reading) ∨
      ∃ expr, Steps src line expecting calls t (.stop expr) := by
  rw [run, if_neg (ne_space_of_terminal? ht)] at h
  split at h
  · next next after hstep => exact .inl ⟨next, after, (step_eq_ok_iff ht).1 hstep, h⟩
  · next expr hstep => exact .inr ⟨expr, (step_eq_ok_iff ht).1 hstep⟩
  · cases h

/-- The states in which an expression is not whole: the reader neither stops nor may end there. -/
def Incomplete (expecting : Expecting) : Prop :=
  ∀ expr, expecting ≠ .continuation expr

theorem incomplete_operand : Incomplete .operand := fun _ => nofun

theorem incomplete_arguments (start : Nat) (name : String) : Incomplete (.arguments start name) :=
  fun _ => nofun

theorem incomplete_stage (input : Node) : Incomplete (.stage input) := fun _ => nofun

/-- **Where an expression is not whole, the reader makes a step** on the next terminal: there is
one, or the reading would have failed. -/
theorem exists_step_of_incomplete {expecting : Expecting} {calls : List OpenCall} {line : Nat}
    {row : List Lexeme} {reading : Reading} (hincomplete : Incomplete expecting)
    (h : run src text expecting calls line row = .ok reading) :
    ∃ taken rest t line' next after, row = taken ++ rest ∧ terminals taken = [t] ∧
      rest.length < row.length ∧ Steps src line' expecting calls t (.go next after) ∧
      run src text next after line' rest = .ok reading := by
  obtain ⟨spacing, rest, line', rfl, hspacing, hrest, hrun⟩ := exists_run_of_spacing h
  -- at the end of the lexemes the reader would have failed
  cases rest with
  | nil =>
    cases expecting with
    | continuation expr => exact absurd rfl (hincomplete expr)
    | _ => cases hrun
  | cons lexeme rest =>
    obtain ⟨t, ht⟩ := exists_terminal_of_ne_space (hrest lexeme rfl)
    rcases run_cons_eq_ok ht hrun with ⟨next, after, hsteps, hrun⟩ | ⟨expr, hsteps⟩
    · refine ⟨spacing ++ [lexeme], rest, t, line', next, after, by simp, ?_, ?_, hsteps, hrun⟩
      · rw [terminals_append, hspacing, terminals_cons ht, terminals_nil, List.nil_append]
      · simp only [List.length_append, List.length_cons]
        omega
    · cases hsteps
      exact absurd rfl (hincomplete expr)

/-- **A whole operand is handed to all functions that follow it** before anything else is done. Then
no bar comes next. -/
theorem exists_settled {input : Node} {calls : List OpenCall} {line : Nat} {row : List Lexeme}
    {reading : Reading}
    (h : run src text (.continuation input) calls line row = .ok reading) :
    ∃ stages taken rest expr line', row = taken ++ rest ∧
      terminals taken = stageTerminals stages ∧
      expr.unlined = callStages src input.unlined stages ∧ Settled rest ∧
      run src text (.continuation expr) calls line' rest = .ok reading := by
  -- on the length of the row, which each bar and name make shorter
  induction hlength : row.length using Nat.strongRecOn generalizing input line row with
  | ind n ih =>
    subst hlength
    obtain ⟨spacing, rest, line₁, rfl, hspacing, hrest, hrun⟩ := exists_run_of_spacing h
    by_cases hbar : ∃ bar ∈ rest.head?, bar.kind = .pipe
    · obtain ⟨bar, hhead, hkind⟩ := hbar
      obtain ⟨rest, rfl⟩ := List.head?_eq_some_iff.1 hhead
      have ht : bar.terminal? = some .pipe := by rw [Lexeme.terminal?, hkind]
      rcases run_cons_eq_ok ht hrun with ⟨next, after, hsteps, hrun⟩ | ⟨expr, hsteps⟩
      · cases hsteps
        -- a bar has been taken, so the name of a function comes next
        obtain ⟨name, rest, t, line₂, next, after, rfl, hname, -, hsteps, hrun⟩ :=
          exists_step_of_incomplete (incomplete_stage _) hrun
        cases hsteps with
        | stage _ function =>
          obtain ⟨stages, taken, rest, expr, line₃, rfl, htaken, hexpr, hsettled, hrun⟩ :=
            ih rest.length (by simp only [List.length_append, List.length_cons]; omega) hrun rfl
          refine ⟨function :: stages, spacing ++ bar :: name ++ taken, rest, expr, line₃,
            by simp, ?_, ?_, hsettled, hrun⟩
          · rw [terminals_append, terminals_append, hspacing, terminals_cons ht, hname, htaken]
            rfl
          · rw [hexpr, Node.unlined_call]
            rfl
      · cases hsteps with
        | stop _ hne => exact absurd rfl hne
    · refine ⟨[], spacing, rest, input, line₁, rfl, hspacing, rfl, ?_, hrun⟩
      intro lexeme hhead
      refine ⟨hrest lexeme hhead, ?_⟩
      intro hkind
      exact hbar ⟨lexeme, hhead, hkind⟩

/-- **What a reading from an operand on has taken**: the row begins with what some derivation
yields, and the reading goes on with its tree from where that ends. -/
def Splits (src : String) (text : List Char) (row : List Lexeme) : Prop :=
  ∀ {calls : List OpenCall} {line : Nat} {reading : Reading},
    run src text .operand calls line row = .ok reading →
      ∃ (pipeline : Pipeline) (taken rest : List Lexeme) (expr : Node) (line' : Nat),
        row = taken ++ rest ∧ terminals taken = pipeline.terminals ∧
          expr.unlined = pipeline.tree src ∧ Settled rest ∧
          run src text (.continuation expr) calls line' rest = .ok reading

/-- Inside a call, the arguments that are left are read up to the end of the call. -/
theorem exists_more_of_settled {n : Nat}
    (hsplits : ∀ row : List Lexeme, row.length < n → Splits src text row)
    {value : Node} {call : OpenCall} {outer : List OpenCall} {line : Nat} {row : List Lexeme}
    {reading : Reading} (hlength : row.length ≤ n) (hsettled : Settled row)
    (h : run src text (.continuation value) (call :: outer) line row = .ok reading) :
    ∃ args taken rest expr line', row = taken ++ rest ∧
      terminals taken = moreTerminals args ++ [.closeParen] ∧
      expr.unlined = Node.call ⟨src, 0⟩ call.name ((value :: call.args).reverse.map Node.unlined
        ++ treesOf src args) ∧
      run src text (.continuation expr) outer line' rest = .ok reading := by
  -- on the number of lexemes that are left: an argument and its comma are taken off each time
  induction hm : row.length using Nat.strongRecOn generalizing value call line row with
  | ind m ih =>
    subst hm
    cases row with
    | nil => cases h
    | cons lexeme rest =>
      obtain ⟨t, ht⟩ := exists_terminal_of_ne_space (hsettled lexeme rfl).1
      rw [List.length_cons] at hlength
      rcases run_cons_eq_ok ht h with ⟨next, after, hsteps, hrun⟩ | ⟨expr, hsteps⟩
      · cases hsteps with
        | pipe =>
          -- no bar is left behind a settled argument
          have hkind : lexeme.kind = .pipe := kind_of_terminal?_eq_pipe ht
          exact absurd hkind (hsettled lexeme rfl).2
        | comma =>
          obtain ⟨arg, taken, rest, value', line₁, rfl, htaken, hvalue, hsettled', hrun⟩ :=
            hsplits rest hlength hrun
          rw [List.length_append] at hlength
          obtain ⟨args, more, rest, expr, line₂, rfl, hmore, hexpr, hrun⟩ :=
            ih rest.length (by simp only [List.length_cons, List.length_append]; omega)
              (by omega) hsettled' hrun rfl
          refine ⟨arg :: args, lexeme :: taken ++ more, rest, expr, line₂, by simp, ?_, ?_, hrun⟩
          · rw [terminals_append, terminals_cons ht, htaken, hmore, moreTerminals,
              List.cons_append, List.cons_append, List.append_assoc]
          · rw [hexpr, treesOf, ← hvalue, List.reverse_cons, List.map_append, List.append_assoc]
            rfl
        | closeParen =>
          refine ⟨[], [lexeme], rest, _, line, rfl, ?_, ?_, hrun⟩
          · rw [terminals_cons ht]
            rfl
          · rw [OpenCall.close, Node.unlined_call, treesOf, List.append_nil]
      · cases hsteps

/-- Where the first argument of a call is expected, the call may also end; else it is an operand
like any other. -/
theorem run_firstArgument {call : OpenCall} {outer : List OpenCall} {line : Nat}
    {row : List Lexeme} {reading : Reading}
    (h : run src text .firstArgument (call :: outer) line row = .ok reading) :
    (∃ taken rest line', row = taken ++ rest ∧ terminals taken = [.closeParen] ∧
        run src text (.continuation (call.close src)) outer line' rest = .ok reading) ∨
      run src text .operand (call :: outer) line row = .ok reading := by
  induction row generalizing line with
  | nil => cases h
  | cons lexeme row ih =>
    by_cases hspace : lexeme.kind = .space
    · rw [run, if_pos hspace] at h ⊢
      refine (ih h).imp_left ?_
      rintro ⟨taken, rest, line', rfl, htaken, hrun⟩
      exact ⟨lexeme :: taken, rest, line', rfl, by rw [terminals_cons_space hspace, htaken], hrun⟩
    · obtain ⟨t, ht⟩ := exists_terminal_of_ne_space hspace
      rcases run_cons_eq_ok ht h with ⟨next, after, hsteps, hrun⟩ | ⟨expr, hsteps⟩
      · cases hsteps with
        | firstArgument hbegins =>
          refine .inr ?_
          rw [run, if_neg hspace, (step_eq_ok_iff ht).2 (.operand hbegins)]
          exact hrun
        | noArgument =>
          exact .inl ⟨[lexeme], row, line, rfl, by rw [terminals_cons ht, terminals_nil], hrun⟩
      · cases hsteps

/-- Behind its name, a call is read up to its end. -/
theorem exists_arguments {n : Nat}
    (hsplits : ∀ row : List Lexeme, row.length < n → Splits src text row)
    {start : Nat} {name : String} {calls : List OpenCall} {line : Nat} {row : List Lexeme}
    {reading : Reading} (hlength : row.length < n)
    (h : run src text (.arguments start name) calls line row = .ok reading) :
    ∃ args taken rest expr line', row = taken ++ rest ∧
      terminals taken = .openParen :: (argumentTerminals args ++ [.closeParen]) ∧
      expr.unlined = Node.call ⟨src, 0⟩ name (treesOf src args) ∧
      run src text (.continuation expr) calls line' rest = .ok reading := by
  obtain ⟨paren, rest, t, line₁, next, after, rfl, hparen, hlt, hsteps, hrun⟩ :=
    exists_step_of_incomplete (incomplete_arguments start name) h
  rw [List.length_append] at hlength
  cases hsteps
  -- the call ends at once, or its first argument is an operand
  rcases run_firstArgument hrun with ⟨close, rest, line₂, rfl, hclose, hrun⟩ | hrun
  · refine ⟨[], paren ++ close, rest, _, line₂, by simp, ?_, rfl, hrun⟩
    rw [terminals_append, hparen, hclose]
    rfl
  · obtain ⟨arg, taken, rest, value, line₂, rfl, htaken, hvalue, hsettled, hrun⟩ :=
      hsplits rest (by omega) hrun
    rw [List.length_append] at hlength
    obtain ⟨args, more, rest, expr, line₃, rfl, hmore, hexpr, hrun⟩ :=
      exists_more_of_settled hsplits (by omega) hsettled hrun
    refine ⟨arg :: args, paren ++ taken ++ more, rest, expr, line₃, by simp, ?_, ?_, hrun⟩
    · rw [terminals_append, terminals_append, hparen, htaken, hmore, argumentTerminals,
        List.append_assoc, List.append_assoc, List.singleton_append]
    · rw [hexpr, treesOf, ← hvalue]
      rfl

/-- What follows the beginning of an operand completes it. -/
theorem exists_operand {n : Nat}
    (hsplits : ∀ row : List Lexeme, row.length < n → Splits src text row)
    {t : Terminal} {next : Expecting} {calls : List OpenCall} {start line : Nat}
    {row : List Lexeme} {reading : Reading} (hlength : row.length < n)
    (hbegins : Begins src start t next) (h : run src text next calls line row = .ok reading) :
    ∃ (operand : Operand) (taken rest : List Lexeme) (expr : Node) (line' : Nat),
      row = taken ++ rest ∧ t :: terminals taken = operand.terminals ∧
        expr.unlined = operand.tree src ∧
        run src text (.continuation expr) calls line' rest = .ok reading := by
  cases hbegins with
  | reference path => exact ⟨.reference path, [], row, _, line, rfl, rfl, rfl, h⟩
  | quoted literal => exact ⟨.quoted literal, [], row, _, line, rfl, rfl, rfl, h⟩
  | name function =>
    obtain ⟨args, taken, rest, expr, line', rfl, htaken, hexpr, hrun⟩ :=
      exists_arguments hsplits hlength h
    exact ⟨.call function args, taken, rest, expr, line', rfl, by rw [htaken]; rfl, hexpr, hrun⟩

/-- **Every reading begins with a derivation.** The induction is on the length of the row, as an
argument is a reading of its own in a shorter one. -/
theorem splits (row : List Lexeme) : Splits src text row := by
  -- on the length of the row: the arguments of a call stand on shorter rows
  induction hlength : row.length using Nat.strongRecOn generalizing row with
  | ind n ih =>
    subst hlength
    intro calls line reading h
    obtain ⟨first, rest, t, line₁, next, after, rfl, hfirst, hlt, hsteps, hrun⟩ :=
      exists_step_of_incomplete incomplete_operand h
    cases hsteps with
    | operand hbegins =>
      -- the operand is completed, and then handed to all functions behind it
      obtain ⟨operand, taken, rest, input, line₂, rfl, htaken, hinput, hrun⟩ :=
        exists_operand (fun row hrow => ih row.length hrow row rfl) hlt hbegins hrun
      obtain ⟨stages, tail, rest, expr, line₃, rfl, htail, hexpr, hsettled, hrun⟩ :=
        exists_settled hrun
      refine ⟨.mk operand stages, first ++ taken ++ tail, rest, expr, line₃, by simp, ?_, ?_,
        hsettled, hrun⟩
      · rw [terminals_append, terminals_append, hfirst, List.singleton_append, htaken, htail,
          Pipeline.terminals]
      · rw [hexpr, hinput, Pipeline.tree]

end Stencil.Expr
