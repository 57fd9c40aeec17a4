import Stencil.Node.Subtrees
import Stencil.Proofs.Expr.Scanning
import Stencil.Proofs.Expr.Steps

/-!
# Where expressions stand

A row of lexemes, with its spacing, spells out expressions, and every node of them stands somewhere
in it: an operand where its first lexeme is, a function behind a bar where the operand is that it is
handed. `Written` says so, for any way of giving lines to places. The reader spells out what it
reads, with lines that it counts in the spacing only (`exists_written_of_readFirst`). On its way it
keeps to what has been spelled out so far, an expression or the open calls around it (`Holds`).
-/

namespace Stencil.Expr

/-- **A row of lexemes spells out expressions**, with a comma between one and the next; other
lexemes stand before the row. `line` gives the line of the place behind some lexemes. -/
inductive Written (src : String) (line : List Lexeme → Nat) :
    List Lexeme → List Lexeme → List Node → Prop
  /-- no expression -/
  | nil (before : List Lexeme) : Written src line before [] []
  /-- spacing before expressions -/
  | leading {before spacing row : List Lexeme} {nodes : List Node} :
    terminals spacing = [] →
    Written src line (before ++ spacing) row nodes →
    Written src line before (spacing ++ row) nodes
  /-- spacing behind expressions -/
  | trailing {before row spacing : List Lexeme} {nodes : List Node} :
    Written src line before row nodes →
    terminals spacing = [] →
    Written src line before (row ++ spacing) nodes
  /-- a property chain, on the line where it stands -/
  | reference {before : List Lexeme} {word : Lexeme} (path : List Identifier) :
    word.terminal? = some (.word (Node.pathSource (pathNames path))) →
    Written src line before [word] [.reference ⟨src, line before⟩ (pathNames path)]
  /-- a literal, on the line where it stands -/
  | literal {before : List Lexeme} {quoted : Lexeme} (literal : Quotation) :
    quoted.terminal? = some (.quoted literal.text) →
    Written src line before [quoted] [.literal ⟨src, line before⟩ (String.ofList literal.value)]
  /-- a call, on the line where its name stands -/
  | call {before spacing row : List Lexeme} {name opening closing : Lexeme} {args : List Node}
      (function : Identifier) :
    name.terminal? = some (.word function.name.toList) →
    terminals spacing = [] →
    opening.terminal? = some .openParen →
    Written src line (before ++ name :: (spacing ++ [opening])) row args →
    closing.terminal? = some .closeParen →
    Written src line before (name :: (spacing ++ opening :: (row ++ [closing])))
      [.call ⟨src, line before⟩ function.name args]
  /-- an expression handed to a function, on the line of the expression -/
  | stage {before row spacing : List Lexeme} {bar name : Lexeme} {input : Node}
      (function : Identifier) :
    Written src line before row [input] →
    bar.terminal? = some .pipe →
    terminals spacing = [] →
    name.terminal? = some (.word function.name.toList) →
    Written src line before (row ++ bar :: (spacing ++ [name]))
      [.call ⟨src, input.loc.line⟩ function.name [input]]
  /-- an expression, a comma, and more expressions -/
  | more {before row others : List Lexeme} {comma : Lexeme} {node next : Node}
      {nodes : List Node} :
    Written src line before row [node] →
    comma.terminal? = some .comma →
    Written src line (before ++ (row ++ [comma])) others (next :: nodes) →
    Written src line before (row ++ comma :: others) (node :: next :: nodes)

/-- **Lines that are counted in spacing only.** This is all that the proofs about runs ask of the
way in which lines are given to places. -/
structure CountsSpacing (line : List Lexeme → Nat) : Prop where
  /-- spacing has its lines -/
  spacing : ∀ before lexeme, lexeme.kind = .space →
    line (before ++ [lexeme]) = line before + Text.newlines lexeme.text
  /-- nothing else has -/
  other : ∀ before lexeme, lexeme.kind ≠ .space → line (before ++ [lexeme]) = line before

variable {src : String} {text : List Char} {line : List Lexeme → Nat}

/-! ### On the way

In the middle of a run the reader has a stack of calls and perhaps an expression, and `Holds` says
for each of its states which lexemes have spelled these out. It holds at the beginning, spacing and
steps keep it, and at the end it says what is wanted. The arguments of an open call are not spelled
out as such until the call is closed, since an argument may follow; `Continues` stands for them. -/

/-- **Some arguments are spelled out**, with a comma behind each: whatever expressions follow, they
are arguments of the same call. -/
def Continues (src : String) (line : List Lexeme → Nat) (start row : List Lexeme)
    (nodes : List Node) : Prop :=
  ∀ others next more, Written src line (start ++ row) others (next :: more) →
    Written src line start (row ++ others) (nodes ++ next :: more)

/-- No argument is spelled out by nothing. -/
theorem Continues.nil (src : String) (line : List Lexeme → Nat) (start : List Lexeme) :
    Continues src line start [] [] := by
  intro others next more h
  simpa using h

/-- One more argument and its comma. -/
theorem Continues.more {start row argument : List Lexeme} {nodes : List Node} {comma : Lexeme}
    {node : Node} (h : Continues src line start row nodes)
    (hnode : Written src line (start ++ row) argument [node])
    (hcomma : comma.terminal? = some .comma) :
    Continues src line start (row ++ (argument ++ [comma])) (nodes ++ [node]) := by
  intro others next more hothers
  have hrow := h (argument ++ comma :: others) node (next :: more)
    (.more hnode hcomma (by simpa using hothers))
  simpa using hrow

/-- **The open calls of a reader**, innermost first, and all lexemes up to where the next argument
of the innermost begins. -/
inductive Opened (src : String) (line : List Lexeme → Nat) :
    List Lexeme → List OpenCall → Prop
  /-- no call is open, and nothing has been taken -/
  | nil : Opened src line [] []
  /-- a call in an argument of another, or in none -/
  | cons {begun spacing between row : List Lexeme} {name opening : Lexeme} {outer : List OpenCall}
      {args : List Node} (function : Identifier) :
    Opened src line begun outer →
    terminals spacing = [] →
    name.terminal? = some (.word function.name.toList) →
    terminals between = [] →
    opening.terminal? = some .openParen →
    Continues src line (begun ++ spacing ++ name :: (between ++ [opening])) row args →
    (args = [] → row = []) →
    Opened src line (begun ++ spacing ++ name :: (between ++ opening :: row))
      (⟨line (begun ++ spacing), function.name, args.reverse⟩ :: outer)

/-- **What has been spelled out when a reader expects something.** It is the invariant of the
reader: its state on one side, the lexemes it has taken on the other. -/
inductive Holds (src : String) (line : List Lexeme → Nat) :
    List Lexeme → Expecting → List OpenCall → Prop
  /-- an operand: the open calls -/
  | operand {begun spacing : List Lexeme} {calls : List OpenCall} :
    Opened src line begun calls → terminals spacing = [] →
    Holds src line (begun ++ spacing) .operand calls
  /-- a first argument: the open calls, of which the innermost has no arguments -/
  | firstArgument {begun spacing : List Lexeme} {call : OpenCall} {outer : List OpenCall} :
    Opened src line begun (call :: outer) → call.args = [] → terminals spacing = [] →
    Holds src line (begun ++ spacing) .firstArgument (call :: outer)
  /-- the parenthesis of a call: its name -/
  | arguments {begun spacing between : List Lexeme} {name : Lexeme} {calls : List OpenCall}
      (function : Identifier) :
    Opened src line begun calls → terminals spacing = [] →
    name.terminal? = some (.word function.name.toList) → terminals between = [] →
    Holds src line (begun ++ spacing ++ name :: between)
      (.arguments (line (begun ++ spacing)) function.name) calls
  /-- a function: what is handed to it, and the bar -/
  | stage {begun row spacing : List Lexeme} {bar : Lexeme} {input : Node}
      {calls : List OpenCall} :
    Opened src line begun calls → Written src line begun row [input] →
    bar.terminal? = some .pipe → terminals spacing = [] →
    Holds src line (begun ++ (row ++ bar :: spacing)) (.stage input) calls
  /-- nothing certain: an expression -/
  | continuation {begun row : List Lexeme} {expr : Node} {calls : List OpenCall} :
    Opened src line begun calls → Written src line begun row [expr] →
    Holds src line (begun ++ row) (.continuation expr) calls

theorem holds_nil : Holds src line [] .operand [] :=
  .operand .nil rfl

/-- Spacing in a row of terminals is nothing. -/
theorem terminals_append_singleton_space {row : List Lexeme} {lexeme : Lexeme}
    (hrow : terminals row = []) (h : lexeme.kind = .space) :
    terminals (row ++ [lexeme]) = [] := by
  rw [terminals_append, hrow, terminals_cons_space h, terminals_nil, List.nil_append]

/-- **Spacing changes nothing**: it is behind what has been spelled out, and before what will be. -/
theorem Holds.space {done : List Lexeme} {expecting : Expecting} {calls : List OpenCall}
    {lexeme : Lexeme} (h : Holds src line done expecting calls) (hspace : lexeme.kind = .space) :
    Holds src line (done ++ [lexeme]) expecting calls := by
  cases h with
  | operand hopened hspacing =>
    rw [List.append_assoc]
    exact .operand hopened (terminals_append_singleton_space hspacing hspace)
  | firstArgument hopened hargs hspacing =>
    rw [List.append_assoc]
    exact .firstArgument hopened hargs (terminals_append_singleton_space hspacing hspace)
  | arguments function hopened hspacing hname hbetween =>
    rw [List.append_assoc, List.cons_append]
    exact .arguments function hopened hspacing hname
      (terminals_append_singleton_space hbetween hspace)
  | stage hopened hinput hbar hspacing =>
    rw [List.append_assoc, List.append_assoc, List.cons_append]
    exact .stage hopened hinput hbar (terminals_append_singleton_space hspacing hspace)
  | continuation hopened hexpr =>
    rw [List.append_assoc]
    refine .continuation hopened (.trailing hexpr ?_)
    rw [terminals_cons_space hspace, terminals_nil]

/-- **What begins an operand** is spelled out where it stands, behind all that was taken, spacing
included. -/
theorem Holds.begins {begun spacing : List Lexeme} {calls : List OpenCall} {lexeme : Lexeme}
    {t : Terminal} {next : Expecting} (hopened : Opened src line begun calls)
    (hspacing : terminals spacing = []) (ht : lexeme.terminal? = some t)
    (h : Begins src (line (begun ++ spacing)) t next) :
    Holds src line (begun ++ spacing ++ [lexeme]) next calls := by
  cases h with
  | reference path =>
    rw [List.append_assoc]
    exact .continuation hopened (.leading hspacing (.reference path ht))
  | quoted literal =>
    rw [List.append_assoc]
    exact .continuation hopened (.leading hspacing (.literal literal ht))
  | name function => exact .arguments function hopened hspacing ht rfl

/-- A whole call is spelled out where its name stands. -/
theorem Holds.call {begun spacing between row : List Lexeme} {name opening closing : Lexeme}
    {outer : List OpenCall} {args : List Node} {function : Identifier}
    (hopened : Opened src line begun outer) (hspacing : terminals spacing = [])
    (hname : name.terminal? = some (.word function.name.toList))
    (hbetween : terminals between = []) (hopening : opening.terminal? = some .openParen)
    (hargs : Written src line (begun ++ spacing ++ name :: (between ++ [opening])) row args)
    (hclosing : closing.terminal? = some .closeParen) :
    Holds src line (begun ++ spacing ++ name :: (between ++ opening :: (row ++ [closing])))
      (.continuation (.call ⟨src, line (begun ++ spacing)⟩ function.name args)) outer := by
  rw [List.append_assoc]
  exact .continuation hopened
    (.leading hspacing (.call function hname hbetween hopening hargs hclosing))

/-- **A step of the reader keeps to what has been spelled out.** The cases are those of the relation
of steps, and a run follows by induction. -/
theorem Holds.step {done : List Lexeme} {expecting next : Expecting} {calls after : List OpenCall}
    {lexeme : Lexeme} {t : Terminal} (h : Holds src line done expecting calls)
    (ht : lexeme.terminal? = some t)
    (hsteps : Steps src (line done) expecting calls t (.go next after)) :
    Holds src line (done ++ [lexeme]) next after := by
  cases hsteps with
  | operand hbegins =>
    cases h with
    | operand hopened hspacing => exact .begins hopened hspacing ht hbegins
  | firstArgument hbegins =>
    cases h with
    | firstArgument hopened _ hspacing => exact .begins hopened hspacing ht hbegins
  -- no arguments, so no lexemes but spacing between the parentheses
  | noArgument call outer =>
    cases h with
    | @firstArgument _ gap _ _ hopened hargs hgap =>
      cases hopened with
      | @cons begun spacing between row name opening _ args function hopened hspacing hname hbetween
          hopening hcontinues hempty =>
        obtain rfl : args = [] := by simpa using hargs
        obtain rfl := hempty rfl
        have hnone : Written src line (begun ++ spacing ++ name :: (between ++ [opening]))
            (gap ++ []) [] := .leading hgap (.nil _)
        have hcall := Holds.call hopened hspacing hname hbetween hopening hnone ht
        simpa [OpenCall.close] using hcall
  | arguments start name =>
    cases h with
    | @arguments begun spacing between nameLexeme _ function hopened hspacing hname hbetween =>
      have hopened' : Opened src line
          (begun ++ spacing ++ nameLexeme :: (between ++ lexeme :: []))
          (⟨line (begun ++ spacing), function.name, [].reverse⟩ :: calls) :=
        .cons function hopened hspacing hname hbetween ht (.nil src line _) fun _ => rfl
      have hfirst := Holds.firstArgument hopened' rfl terminals_nil
      simpa using hfirst
  | stage input function =>
    cases h with
    | stage hopened hinput hbar hspacing =>
      simpa using Holds.continuation hopened (.stage function hinput hbar hspacing ht)
  | pipe expr =>
    cases h with
    | continuation hopened hexpr =>
      simpa using Holds.stage hopened hexpr ht terminals_nil
  -- the expression is one more argument of the innermost call
  | comma expr call outer =>
    cases h with
    | @continuation _ argument _ _ hopened hexpr =>
      cases hopened with
      | @cons begun spacing between row name opening _ args function hopened hspacing hname hbetween
          hopening hcontinues hempty =>
        have hargs := hcontinues.more (by simpa using hexpr) ht
        have hopened' := Opened.cons function hopened hspacing hname hbetween hopening hargs
          (fun h => by simp at h)
        simpa using Holds.operand hopened' terminals_nil
  -- the expression is the last argument, and with it the call is spelled out
  | closeParen expr call outer =>
    cases h with
    | @continuation _ argument _ _ hopened hexpr =>
      cases hopened with
      | @cons begun spacing between row name opening _ args function hopened hspacing hname hbetween
          hopening hcontinues hempty =>
        have hargs := hcontinues argument expr [] (by simpa using hexpr)
        have hcall := Holds.call hopened hspacing hname hbetween hopening hargs ht
        simpa [OpenCall.close] using hcall

/-! ### Whole runs

By induction on the row, with `Holds` for what has been taken. The line of the reader is the one
that `line` gives to the place behind that, which is where the way of counting lines comes in. -/

/-- Where no call is open, all that has been taken spells out the expression. -/
theorem Holds.written {done : List Lexeme} {expr : Node}
    (h : Holds src line done (.continuation expr) []) : Written src line [] done [expr] := by
  cases h with
  | continuation hopened hexpr =>
    cases hopened
    exact hexpr

/-- Lexemes end only behind an expression. -/
theorem eq_continuation_of_finish {expecting : Expecting} {calls : List OpenCall} {expr : Node}
    (h : finish text calls expecting = .ok expr) : expecting = .continuation expr ∧ calls = [] := by
  unfold finish at h
  split at h
  iterate 4 cases h
  · split at h
    · next hcalls =>
      cases h
      exact ⟨rfl, List.isEmpty_iff.1 hcalls⟩
    · cases h

/-- **A run of the reader spells out what it reads**, from any state that keeps to what was taken
before. -/
theorem exists_written_of_run (hline : CountsSpacing line) {row done : List Lexeme}
    {expecting : Expecting} {calls : List OpenCall} {reading : Reading}
    (hholds : Holds src line done expecting calls)
    (h : run src text expecting calls (line done) row = .ok reading) :
    ∃ taken, row = taken ++ reading.rest ∧
      Written src line [] (done ++ taken) [reading.expr] := by
  induction row generalizing done expecting calls with
  | nil =>
    rw [run] at h
    split at h
    · next expr hfinish =>
      cases h
      obtain ⟨rfl, rfl⟩ := eq_continuation_of_finish hfinish
      exact ⟨[], rfl, by simpa using hholds.written⟩
    · cases h
  | cons lexeme row ih =>
    rw [run] at h
    split at h
    · next hspace =>
      rw [← hline.spacing done lexeme hspace] at h
      obtain ⟨taken, rfl, hwritten⟩ := ih (hholds.space hspace) h
      exact ⟨lexeme :: taken, rfl, by simpa using hwritten⟩
    · next hother =>
      obtain ⟨t, ht⟩ : ∃ t, lexeme.terminal? = some t :=
        Option.ne_none_iff_exists'.1 fun hnone => hother (terminal?_eq_none_iff.1 hnone)
      split at h
      · next next after hstep =>
        rw [← hline.other done lexeme hother] at h
        obtain ⟨taken, rfl, hwritten⟩ := ih (hholds.step ht ((step_eq_ok_iff ht).1 hstep)) h
        exact ⟨lexeme :: taken, rfl, by simpa using hwritten⟩
      · next expr hstep =>
        -- the reader stops with no call open, so all that it took is the expression
        cases h
        obtain ⟨rfl, rfl⟩ : expecting = .continuation expr ∧ calls = [] := by
          cases (step_eq_ok_iff ht).1 hstep
          exact ⟨rfl, rfl⟩
        exact ⟨[], rfl, by simpa using hholds.written⟩
      · cases h

/-! ### Lines

The reader counts the lines of spacing, and a text has all its lines. The difference is that of the
literals, since words and delimiters have no line feeds. -/

/-- **The line of the place behind some lexemes**, of a text that begins on a line: every line feed
counts. -/
def trueLine (start : Nat) (before : List Lexeme) : Nat :=
  start + Text.newlines (lexemesText before)

/-- **The line that the reader counts** behind some lexemes: only spacing has lines for it. -/
def countedLine (start : Nat) (before : List Lexeme) : Nat :=
  start + Text.newlines (lexemesText (before.filter (·.kind = .space)))

/-- **The lines inside literals** of some lexemes. They are what makes the two countings differ. -/
def literalLines (before : List Lexeme) : Nat :=
  Text.newlines (lexemesText (before.filter (·.kind = .quoted)))

theorem countsSpacing_countedLine (start : Nat) : CountsSpacing (countedLine start) where
  spacing before lexeme h := by
    simp [countedLine, h, Nat.add_assoc]
  other before lexeme h := by
    simp [countedLine, h]

/-- Words and delimiters have no lines. -/
theorem newlines_of_firstLexeme? {c : Char} {cs word rest : List Char} {kind : LexemeKind}
    (h : firstLexeme? c cs = some (kind, word, rest)) (hspace : kind ≠ .space)
    (hquoted : kind ≠ .quoted) : Text.newlines word = 0 := by
  rcases char_cases c with hc | hc | (rfl | rfl | rfl | rfl) | hc
  · rw [firstLexeme?_spacing hc] at h
    cases h
    exact absurd rfl hspace
  · rw [firstLexeme?_quote hc] at h
    obtain ⟨_, -, hsome⟩ := Option.map_eq_some_iff.1 h
    cases hsome
    exact absurd rfl hquoted
  · cases h
    rfl
  · cases h
    rfl
  · cases h
    rfl
  · cases h
    rfl
  · rw [firstLexeme?_word hc] at h
    cases h
    have hword : ∀ d ∈ c :: cs.takeWhile isWordChar, isWordChar d = true :=
      List.forall_mem_cons.2 ⟨hc, List.all_eq_true.1 List.all_takeWhile⟩
    exact List.count_eq_zero.2 fun hmem => by cases hword _ hmem

/-- Neither have they among the lexemes of a text. -/
theorem newlines_of_mem_lexemes {offset : Nat} {cs : List Char} {row : List Lexeme}
    {lexeme : Lexeme} (h : lexemesFrom offset cs = .ok row) (hmem : lexeme ∈ row)
    (hspace : lexeme.kind ≠ .space) (hquoted : lexeme.kind ≠ .quoted) :
    Text.newlines lexeme.text = 0 := by
  induction row generalizing offset cs with
  | nil => cases hmem
  | cons first row ih =>
    obtain ⟨c, ds, rest, -, hfirst, hrest⟩ := exists_firstLexeme?_eq h
    rcases List.mem_cons.1 hmem with rfl | hmem
    · exact newlines_of_firstLexeme? hfirst hspace hquoted
    · exact ih hrest hmem

/-- The lines of lexemes are those of spacing and those of literals, if nothing else has lines. -/
theorem newlines_lexemesText {row : List Lexeme}
    (h : ∀ lexeme ∈ row, lexeme.kind ≠ .space → lexeme.kind ≠ .quoted →
      Text.newlines lexeme.text = 0) :
    Text.newlines (lexemesText row)
      = Text.newlines (lexemesText (row.filter (·.kind = .space))) + literalLines row := by
  induction row with
  | nil => rfl
  | cons lexeme row ih =>
    obtain ⟨hlexeme, hrow⟩ := List.forall_mem_cons.1 h
    rw [lexemesText_cons, Text.newlines_append, ih hrow, literalLines, literalLines]
    by_cases hspace : lexeme.kind = .space
    · rw [List.filter_cons_of_pos (by simpa using hspace),
        List.filter_cons_of_neg (by simp [hspace]), lexemesText_cons, Text.newlines_append]
      omega
    by_cases hquoted : lexeme.kind = .quoted
    · rw [List.filter_cons_of_neg (by simpa using hspace),
        List.filter_cons_of_pos (by simpa using hquoted), lexemesText_cons, Text.newlines_append]
      omega
    · rw [List.filter_cons_of_neg (by simpa using hspace),
        List.filter_cons_of_neg (by simpa using hquoted), hlexeme hspace hquoted]
      omega

/-- **What the reader does not count** are the lines inside literals, and it counts all others. -/
theorem trueLine_eq {offset : Nat} {cs : List Char} {row before : List Lexeme}
    (h : lexemesFrom offset cs = .ok row) (hsub : before ⊆ row) (start : Nat) :
    trueLine start before = countedLine start before + literalLines before := by
  have hlines := newlines_lexemesText fun lexeme hmem => newlines_of_mem_lexemes h (hsub hmem)
  rw [trueLine, countedLine, hlines, Nat.add_assoc]

/-- The lines of a lexeme are among those of its row. -/
theorem newlines_le_of_mem {lexeme : Lexeme} {row : List Lexeme} (h : lexeme ∈ row) :
    Text.newlines lexeme.text ≤ Text.newlines (lexemesText row) := by
  obtain ⟨earlier, later, rfl⟩ := List.append_of_mem h
  rw [lexemesText_append, lexemesText_cons, Text.newlines_append, Text.newlines_append]
  omega

theorem literalLines_append (before after : List Lexeme) :
    literalLines (before ++ after) = literalLines before + literalLines after := by
  simp [literalLines]

/-- Where a text stands does not change the lines in its literals. -/
theorem literalLines_eq {offset other : Nat} {cs : List Char} {row row' : List Lexeme}
    (h : lexemesFrom offset cs = .ok row) (h' : lexemesFrom other cs = .ok row') :
    literalLines row = literalLines row' := by
  induction row generalizing offset other cs row' with
  | nil =>
    obtain rfl : [] = cs := lexemesText_of_lexemesFrom h
    rw [lexemesFrom] at h'
    cases h'
    rfl
  | cons first row ih =>
    obtain ⟨c, ds, rest, rfl, hfirst, hrest⟩ := exists_firstLexeme?_eq h
    cases row' with
    | nil => cases lexemesText_of_lexemesFrom h'
    | cons first' row' =>
      obtain ⟨c', ds', rest', heq, hfirst', hrest'⟩ := exists_firstLexeme?_eq h'
      obtain ⟨rfl, rfl⟩ := List.cons.inj heq
      rw [hfirst] at hfirst'
      -- the first lexemes differ in their offsets at most
      obtain ⟨hkind, htext, rfl⟩ : first.kind = first'.kind ∧ first.text = first'.text ∧
          rest = rest' := by
        simpa using hfirst'
      have hfirstLines : literalLines [first] = literalLines [first'] := by
        obtain ⟨kind, word, _⟩ := first
        obtain ⟨kind', word', _⟩ := first'
        obtain rfl : kind = kind' := hkind
        obtain rfl : word = word' := htext
        cases kind <;> rfl
      calc literalLines (first :: row)
        _ = literalLines [first] + literalLines row := literalLines_append [first] row
        _ = literalLines [first'] + literalLines row' := by rw [hfirstLines, ih hrest hrest']
        _ = literalLines (first' :: row') := (literalLines_append [first'] row').symm

/-- What the lexemes that are taken leave over stands behind their text. -/
theorem upTo_lexemesText {taken rest : List Lexeme} (h : lexemes text = .ok (taken ++ rest)) :
    upTo text (lexemesText rest) = lexemesText taken := by
  have htext : lexemesText taken ++ lexemesText rest = text := by
    rw [← lexemesText_of_lexemesFrom h, lexemesText_append]
  rw [upTo, ← htext, List.length_append, Nat.add_sub_cancel, List.take_left]

/-- **What is read first is spelled out** by the lexemes that are taken. -/
theorem exists_written_of_readFirst {start : Nat} {reading : Reading}
    (h : readFirst src text start = .ok reading) :
    ∃ taken, lexemes text = .ok (taken ++ reading.rest) ∧
      Written src (countedLine start) [] taken [reading.expr] := by
  unfold readFirst at h
  split at h
  · next row hrow =>
    have hstart : countedLine start [] = start := rfl
    rw [← hstart] at h
    obtain ⟨taken, rfl, hwritten⟩ :=
      exists_written_of_run (countsSpacing_countedLine start) holds_nil h
    exact ⟨taken, hrow, hwritten⟩
  · cases h

/-- **What is read is spelled out** by the lexemes of the text, with the lines that the reader
counts. -/
theorem exists_written_of_read {start : Nat} {expr : Node}
    (h : read src text start = .ok expr) :
    ∃ row, lexemes text = .ok row ∧ Written src (countedLine start) [] row [expr] := by
  unfold read at h
  split at h
  · cases h
  · next reading hreading =>
    obtain ⟨taken, htaken, hwritten⟩ := exists_written_of_readFirst hreading
    split at h
    · next hrest =>
      cases h
      rw [hrest, List.append_nil] at htaken
      exact ⟨taken, htaken, hwritten⟩
    · cases h

/-! ### Places of nodes

What is used of `Written` in other modules: each node is on the line of a place within the row, and
some nodes can be traced back to their lexemes. -/

section Places

variable {before row : List Lexeme} {nodes : List Node}

/-- **Every node is on the line of a place in the row**, that is, behind some of its lexemes. -/
theorem Written.exists_place (h : Written src line before row nodes) :
    ∀ node ∈ nodes, ∀ sub ∈ node.subtrees,
      ∃ place, before <+: place ∧ place <+: before ++ row ∧ sub.loc = ⟨src, line place⟩ := by
  induction h with
  | nil => nofun
  | leading _ _ ih =>
    intro node hnode sub hsub
    obtain ⟨place, hbefore, hplace, hloc⟩ := ih node hnode sub hsub
    exact ⟨place, (List.prefix_append _ _).trans hbefore, by rwa [← List.append_assoc], hloc⟩
  | trailing _ _ ih =>
    intro node hnode sub hsub
    obtain ⟨place, hbefore, hplace, hloc⟩ := ih node hnode sub hsub
    exact ⟨place, hbefore, hplace.trans (by simp [← List.append_assoc]), hloc⟩
  | @reference before word | @literal before word =>
    rw [List.forall_mem_singleton]
    intro sub hsub
    obtain rfl := List.mem_singleton.1 hsub
    exact ⟨before, List.prefix_rfl, List.prefix_append _ _, rfl⟩
  | @call before spacing row name opening closing args function _ _ _ _ _ ih =>
    rw [List.forall_mem_singleton]
    intro sub hsub
    -- the call itself is where its name is
    rcases Node.mem_subtrees_iff.1 hsub with rfl | ⟨arg, harg, hsub⟩
    · exact ⟨before, List.prefix_rfl, List.prefix_append _ _, rfl⟩
    · obtain ⟨place, hbefore, hplace, hloc⟩ := ih arg harg sub hsub
      exact ⟨place, (List.prefix_append _ _).trans hbefore, hplace.trans ⟨[closing], by simp⟩, hloc⟩
  | @stage before row spacing bar name input function _ _ _ _ ih =>
    rw [List.forall_mem_singleton]
    intro sub hsub
    have hrow : before ++ row <+: before ++ (row ++ bar :: (spacing ++ [name])) := by
      simp [← List.append_assoc]
    rcases Node.mem_subtrees_iff.1 hsub with rfl | ⟨arg, harg, hsub⟩
    · obtain ⟨place, hbefore, hplace, hloc⟩ :=
        ih input List.mem_cons_self input input.mem_subtrees_self
      exact ⟨place, hbefore, hplace.trans hrow, by rw [Node.loc, hloc]⟩
    · obtain ⟨place, hbefore, hplace, hloc⟩ := ih arg harg sub hsub
      exact ⟨place, hbefore, hplace.trans hrow, hloc⟩
  | @more before row others comma node next nodes _ _ _ ih ihmore =>
    intro other hother sub hsub
    rcases List.mem_cons.1 hother with rfl | hother
    · obtain ⟨place, hbefore, hplace, hloc⟩ := ih other List.mem_cons_self sub hsub
      exact ⟨place, hbefore, hplace.trans (by simp [← List.append_assoc]), hloc⟩
    · obtain ⟨place, hbefore, hplace, hloc⟩ := ihmore other hother sub hsub
      exact ⟨place, (List.prefix_append _ _).trans hbefore, hplace.trans (by simp), hloc⟩

/-- Between two expressions stands a comma. -/
theorem Written.exists_comma {node next : Node} {more : List Node}
    (h : Written src line before row (node :: next :: more)) :
    ∃ first comma others, row = first ++ comma :: others ∧
      Written src line before first [node] ∧
      Written src line (before ++ (first ++ [comma])) others (next :: more) := by
  generalize hnodes : node :: next :: more = nodes at h
  induction h with
  | nil => cases hnodes
  | leading hspacing _ ih =>
    obtain ⟨first, comma, others, rfl, hfirst, hothers⟩ := ih hnodes
    exact ⟨_, comma, others, by simp, .leading hspacing hfirst, by simpa using hothers⟩
  | trailing _ hspacing ih =>
    obtain ⟨first, comma, others, rfl, hfirst, hothers⟩ := ih hnodes
    exact ⟨first, comma, _, by simp, hfirst, .trailing hothers hspacing⟩
  | reference | literal | call | stage => cases hnodes
  | more hnode _ hothers =>
    cases hnodes
    exact ⟨_, _, _, rfl, hnode, hothers⟩

/-- The arguments of a call stand in it, unless it is written with a bar. -/
theorem Written.exists_arguments {loc : Location} {name : String} {args : List Node}
    (h : Written src line before row [.call loc name args]) (hargs : args.length ≠ 1) :
    ∃ start inner, start ++ inner <+: before ++ row ∧ Written src line start inner args := by
  generalize hnodes : [Node.call loc name args] = nodes at h
  induction h with
  | leading _ _ ih =>
    obtain ⟨start, inner, hinner, hwritten⟩ := ih hnodes
    exact ⟨start, inner, by rwa [← List.append_assoc], hwritten⟩
  | trailing _ _ ih =>
    obtain ⟨start, inner, hinner, hwritten⟩ := ih hnodes
    exact ⟨start, inner, hinner.trans (by simp [← List.append_assoc]), hwritten⟩
  | @call _ _ _ _ _ closing _ _ _ _ _ hwritten =>
    cases hnodes
    exact ⟨_, _, ⟨[closing], by simp⟩, hwritten⟩
  | stage =>
    cases hnodes
    exact absurd rfl hargs
  | nil | reference | literal | more => cases hnodes

/-- A literal is a lexeme. -/
theorem Written.exists_quoted {loc : Location} {value : String}
    (h : Written src line before row [.literal loc value]) :
    ∃ lexeme ∈ row, lexeme.kind = .quoted := by
  generalize hnodes : [Node.literal loc value] = nodes at h
  induction h with
  | leading _ _ ih =>
    obtain ⟨lexeme, hmem, hkind⟩ := ih hnodes
    exact ⟨lexeme, List.mem_append_right _ hmem, hkind⟩
  | trailing _ _ ih =>
    obtain ⟨lexeme, hmem, hkind⟩ := ih hnodes
    exact ⟨lexeme, List.mem_append_left _ hmem, hkind⟩
  | @literal _ quoted _ hquoted =>
    refine ⟨quoted, List.mem_singleton_self quoted, ?_⟩
    obtain ⟨kind, word, offset⟩ := quoted
    cases kind <;> cases hquoted
    rfl
  | nil | reference | call | stage | more => cases hnodes

/-- Lines that agree at all places of a row are the lines of the same nodes. -/
theorem Written.congr {line' : List Lexeme → Nat} (h : Written src line before row nodes)
    (heq : ∀ place, place <+: before ++ row → line place = line' place) :
    Written src line' before row nodes := by
  induction h with
  | nil before => exact .nil before
  | leading hspacing _ ih =>
    exact .leading hspacing (ih fun place hplace => heq place (by rwa [← List.append_assoc]))
  | trailing _ hspacing ih =>
    refine .trailing (ih fun place hplace => heq place (hplace.trans ?_)) hspacing
    simp [← List.append_assoc]
  | reference path hword =>
    rw [heq _ (List.prefix_append _ _)]
    exact .reference path hword
  | literal literal hquoted =>
    rw [heq _ (List.prefix_append _ _)]
    exact .literal literal hquoted
  | @call before spacing row name opening closing args function hname hspacing hopening _ hclosing
      ih =>
    rw [heq _ (List.prefix_append _ _)]
    refine .call function hname hspacing hopening (ih fun place hplace => ?_) hclosing
    exact heq place (hplace.trans ⟨[closing], by simp⟩)
  | stage function _ hbar hspacing hname ih =>
    refine .stage function (ih fun place hplace => heq place (hplace.trans ?_)) hbar hspacing hname
    simp [← List.append_assoc]
  | more _ hcomma _ ih ihmore =>
    refine .more (ih fun place hplace => heq place (hplace.trans ?_)) hcomma
      (ihmore fun place hplace => heq place (hplace.trans ?_))
    · simp [← List.append_assoc]
    · simp

/-- **Where no literal has lines, the reader counts the lines of all places**, so every node is on
its true line. -/
theorem Written.trueLine {start offset : Nat} {cs : List Char} {row rest : List Lexeme}
    (h : Written src (countedLine start) [] row nodes)
    (hrow : lexemesFrom offset cs = .ok (row ++ rest)) (hlines : literalLines row = 0) :
    Written src (Expr.trueLine start) [] row nodes := by
  refine h.congr ?_
  rintro place ⟨more, rfl⟩
  rw [literalLines_append] at hlines
  have hnone : literalLines place = 0 := Nat.eq_zero_of_add_eq_zero_right hlines
  have hsub : place ⊆ (place ++ more) ++ rest := by simp
  rw [trueLine_eq hrow hsub, hnone, Nat.add_zero]

end Places

end Stencil.Expr
