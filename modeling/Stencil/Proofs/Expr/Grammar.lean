import Stencil.Node.Unlocated
import Stencil.Proofs.Expr.Path

/-!
# The grammar of expressions

What the lexemes of an expression may be, stated apart from any reader. Spacing is left out
(`terminals`), and the rest has to be what some derivation yields:

    pipeline ::= operand (`|` name)*
    operand  ::= reference | literal | name `(` [pipeline (`,` pipeline)*] `)`

A derivation is a tree of its own (`Pipeline`, `Operand`), with the identifiers and literals it uses
known to be such. It yields a row of terminals, and it means a node tree, in which `p | f` is the
call of `f` on `p`. The grammar is unambiguous: a row of terminals has at most one derivation
(`Pipeline.terminals_inj`).
-/

namespace Stencil

/-- **What a lexeme is to the grammar**: its kind, with its text where that says something. Where it
stood is forgotten. -/
inductive Terminal
  /-- a word -/
  | word (text : List Char)
  /-- a literal, its quotes included -/
  | quoted (text : List Char)
  /-- an opening parenthesis -/
  | openParen
  /-- a closing parenthesis -/
  | closeParen
  /-- a vertical bar -/
  | pipe
  /-- a comma -/
  | comma
  deriving DecidableEq, Repr

/-- What a lexeme is to the grammar; spacing is nothing. -/
def Lexeme.terminal? (lexeme : Lexeme) : Option Terminal :=
  match lexeme.kind with
  | .space => none
  | .word => some (.word lexeme.text)
  | .quoted => some (.quoted lexeme.text)
  | .openParen => some .openParen
  | .closeParen => some .closeParen
  | .pipe => some .pipe
  | .comma => some .comma

/-- **The terminals of a row of lexemes**: all but spacing. Texts with the same terminals are the
same to the grammar. -/
def terminals (row : List Lexeme) : List Terminal :=
  row.filterMap Lexeme.terminal?

@[simp] theorem terminals_nil : terminals [] = [] := rfl

@[simp] theorem terminals_append (row other : List Lexeme) :
    terminals (row ++ other) = terminals row ++ terminals other :=
  List.filterMap_append

theorem terminals_cons_space {lexeme : Lexeme} (h : lexeme.kind = .space) (row : List Lexeme) :
    terminals (lexeme :: row) = terminals row :=
  List.filterMap_cons_none (by rw [Lexeme.terminal?, h])

theorem terminals_cons {lexeme : Lexeme} {t : Terminal} (h : lexeme.terminal? = some t)
    (row : List Lexeme) : terminals (lexeme :: row) = t :: terminals row :=
  List.filterMap_cons_some h

/-- Only spacing is nothing to the grammar. -/
theorem terminal?_eq_none_iff {lexeme : Lexeme} :
    lexeme.terminal? = none ↔ lexeme.kind = .space := by
  unfold Lexeme.terminal?
  split <;> simp_all

namespace Expr

/-- **An identifier.** Names in derivations carry the proof that they are one, so no derivation has
a name that cannot be read. -/
structure Identifier where
  /-- its characters -/
  name : String
  /-- a letter, then letters and digits -/
  valid : isIdentifier name.toList = true

/-- Identifiers of one name are one. -/
theorem Identifier.ext {f g : Identifier} (h : f.name = g.name) : f = g := by
  cases f
  cases g
  congr

/-- **A literal that can be read.** The value is a field of its own, but it is determined by the
characters (`Quotation.ext`). -/
structure Quotation where
  /-- its characters, quotes included -/
  text : List Char
  /-- the text it stands for -/
  value : List Char
  /-- what is between the quotes reads as that text -/
  decodes : Text.Literal.decode (Text.Literal.body text) = .ok value

/-- Literals that are written alike are one. -/
theorem Quotation.ext {q r : Quotation} (h : q.text = r.text) : q = r := by
  obtain ⟨text, value, hq⟩ := q
  obtain ⟨text', value', hr⟩ := r
  obtain rfl : text = text' := h
  obtain rfl : value = value' := Except.ok.inj (hq.symm.trans hr)
  rfl

mutual

/-- **A derivation of an operand.** The arguments of a call are derivations themselves. -/
inductive Operand
  /-- a property chain -/
  | reference (path : List Identifier)
  /-- a literal -/
  | quoted (literal : Quotation)
  /-- a name with any number of arguments in parentheses -/
  | call (function : Identifier) (args : List Pipeline)

/-- **A derivation of an expression**: an operand and the functions it is handed to, from left to
right. -/
inductive Pipeline
  /-- an operand with any number of names behind bars -/
  | mk (operand : Operand) (stages : List Identifier)

end

/-- The terminals of the functions that an operand is handed to. -/
def stageTerminals (stages : List Identifier) : List Terminal :=
  stages.flatMap fun function => [.pipe, .word function.name.toList]

/-- The properties of a chain. -/
def pathNames (path : List Identifier) : List String :=
  path.map (·.name)

/-- The properties of a chain are identifiers. -/
theorem valid_of_mem_pathNames (path : List Identifier) :
    ∀ property ∈ pathNames path, isIdentifier property.toList = true := by
  intro property hmem
  obtain ⟨function, -, rfl⟩ := List.mem_map.1 hmem
  exact function.valid

mutual

/-- What the derivation of an operand yields. -/
def Operand.terminals : Operand → List Terminal
  | .reference path => [.word (Node.pathSource (pathNames path))]
  | .quoted literal => [.quoted literal.text]
  | .call function args =>
    .word function.name.toList :: .openParen :: (argumentTerminals args ++ [.closeParen])

/-- **What a derivation yields**, as a row of terminals. Spacing is no part of it, so each
derivation stands for many texts. -/
def Pipeline.terminals : Pipeline → List Terminal
  | .mk operand stages => operand.terminals ++ stageTerminals stages

/-- What the arguments of a call yield. -/
def argumentTerminals : List Pipeline → List Terminal
  | [] => []
  | arg :: args => arg.terminals ++ moreTerminals args

/-- What the arguments after the first yield, a comma before each. -/
def moreTerminals : List Pipeline → List Terminal
  | [] => []
  | arg :: args => .comma :: (arg.terminals ++ moreTerminals args)

end

/-- An expression handed to one function after the other. -/
def callStages (src : String) (expr : Node) (stages : List Identifier) : Node :=
  stages.foldl (fun input function => .call ⟨src, 0⟩ function.name [input]) expr

mutual

/-- The tree that the derivation of an operand means in a source, without its lines. -/
def Operand.tree (src : String) : Operand → Node
  | .reference path => .reference ⟨src, 0⟩ (pathNames path)
  | .quoted literal => .literal ⟨src, 0⟩ (String.ofList literal.value)
  | .call function args => .call ⟨src, 0⟩ function.name (treesOf src args)

/-- **The tree that a derivation means** in a source, without its lines. A function behind a bar
becomes a call on what stands before it. -/
def Pipeline.tree (src : String) : Pipeline → Node
  | .mk operand stages => callStages src (operand.tree src) stages

/-- The trees that a row of derivations mean. -/
def treesOf (src : String) : List Pipeline → List Node
  | [] => []
  | pipeline :: pipelines => pipeline.tree src :: treesOf src pipelines

end

@[simp] theorem treesOf_eq_map (src : String) (pipelines : List Pipeline) :
    treesOf src pipelines = pipelines.map (Pipeline.tree src) := by
  induction pipelines with
  | nil => rfl
  | cons pipeline pipelines ih => rw [treesOf, ih, List.map_cons]

/-! ### A row of terminals has one derivation

Operands end themselves. A pipeline ends where no bar follows, and the arguments of a call at its
closing parenthesis, so each can be told from what comes after it. -/

/-- Whether a pipeline can end before some terminals: it would go on with a bar. The statements
below ask for this on both sides, as otherwise the one pipeline could be a part of the other. -/
def EndsPipeline (rest : List Terminal) : Prop :=
  rest.head? ≠ some .pipe

/-- An operand does not begin with what ends a call. -/
theorem Operand.exists_terminals_eq_cons (operand : Operand) :
    ∃ t ts, operand.terminals = t :: ts ∧ t ≠ .closeParen := by
  cases operand with
  | reference path => exact ⟨_, _, rfl, nofun⟩
  | quoted literal => exact ⟨_, _, rfl, nofun⟩
  | call function args => exact ⟨_, _, rfl, nofun⟩

/-- A pipeline does not begin with what ends a call. -/
theorem Pipeline.exists_terminals_eq_cons (pipeline : Pipeline) :
    ∃ t ts, pipeline.terminals = t :: ts ∧ t ≠ .closeParen := by
  obtain ⟨operand, stages⟩ := pipeline
  obtain ⟨t, ts, hts, ht⟩ := operand.exists_terminals_eq_cons
  exact ⟨t, ts ++ stageTerminals stages, by rw [Pipeline.terminals, hts, List.cons_append], ht⟩

/-- The word of a chain is not the name of a function. -/
theorem pathSource_ne_name (path : List String) (function : Identifier) :
    Node.pathSource path ≠ function.name.toList := by
  intro h
  have hdot : '.' ∈ function.name.toList := h ▸ List.mem_cons_self
  exact dot_notMem_of_isIdentifier function.valid hdot

/-- Chains of one word are one. -/
theorem eq_of_pathSource_pathNames_eq {path other : List Identifier}
    (h : Node.pathSource (pathNames path) = Node.pathSource (pathNames other)) : path = other := by
  exact List.map_inj_right (fun _ _ => Identifier.ext) |>.1
    (pathSource_inj (valid_of_mem_pathNames path) (valid_of_mem_pathNames other) h)

/-- Where arguments are over, no pipeline goes on. -/
theorem endsPipeline_moreTerminals (args : List Pipeline) (rest : List Terminal) :
    EndsPipeline (moreTerminals args ++ .closeParen :: rest) := by
  cases args with
  | nil => exact nofun
  | cons arg args => exact nofun

/-- The functions that an operand is handed to can be told from what follows. -/
theorem stageTerminals_append_inj {stages others : List Identifier} {r s : List Terminal}
    (hr : EndsPipeline r) (hs : EndsPipeline s)
    (h : stageTerminals stages ++ r = stageTerminals others ++ s) : stages = others ∧ r = s := by
  induction stages generalizing others with
  -- no more stages here, so a bar there would have to be in what follows
  | nil =>
    cases others with
    | nil => exact ⟨rfl, h⟩
    | cons other others => exact absurd (congrArg List.head? h) hr
  | cons stage stages ih =>
    cases others with
    | nil => exact absurd (congrArg List.head? h.symm) hs
    | cons other others =>
      simp only [stageTerminals, List.flatMap_cons, List.cons_append, List.nil_append,
        List.cons.injEq, Terminal.word.injEq, true_and] at h
      obtain ⟨hname, htail⟩ := h
      obtain ⟨rfl, hrs⟩ := ih htail
      exact ⟨by rw [Identifier.ext (String.toList_inj.1 hname)], hrs⟩

mutual

/-- An operand can be told from whatever follows it. -/
theorem Operand.terminals_append_inj : ∀ (a b : Operand) {r s : List Terminal},
    a.terminals ++ r = b.terminals ++ s → a = b ∧ r = s
  | .reference path, .reference other, r, s, h => by
    simp only [Operand.terminals, List.singleton_append, List.cons.injEq,
      Terminal.word.injEq] at h
    exact ⟨by rw [eq_of_pathSource_pathNames_eq h.1], h.2⟩
  | .reference path, .quoted literal, r, s, h => by cases h
  | .reference path, .call function args, r, s, h =>
    absurd (Terminal.word.inj (List.cons.inj h).1) (pathSource_ne_name _ _)
  | .quoted literal, .reference path, r, s, h => by cases h
  | .quoted literal, .quoted other, r, s, h => by
    simp only [Operand.terminals, List.singleton_append, List.cons.injEq,
      Terminal.quoted.injEq] at h
    exact ⟨by rw [Quotation.ext h.1], h.2⟩
  | .quoted literal, .call function args, r, s, h => by cases h
  | .call function args, .reference path, r, s, h =>
    absurd (Terminal.word.inj (List.cons.inj h).1).symm (pathSource_ne_name _ _)
  | .call function args, .quoted literal, r, s, h => by cases h
  | .call function args, .call other args', r, s, h => by
    simp only [Operand.terminals, List.cons_append, List.append_assoc, List.nil_append,
      List.cons.injEq, Terminal.word.injEq, true_and] at h
    obtain ⟨hname, hargs⟩ := h
    obtain ⟨rfl, hrs⟩ := argumentTerminals_append_inj args args' hargs
    exact ⟨by rw [Identifier.ext (String.toList_inj.1 hname)], hrs⟩

/-- A pipeline can be told from what follows it if that is no bar. -/
theorem Pipeline.terminals_append_inj : ∀ (p q : Pipeline) {r s : List Terminal},
    EndsPipeline r → EndsPipeline s → p.terminals ++ r = q.terminals ++ s → p = q ∧ r = s
  | .mk operand stages, .mk operand' stages', r, s, hr, hs, h => by
    rw [Pipeline.terminals, Pipeline.terminals, List.append_assoc, List.append_assoc] at h
    obtain ⟨rfl, hstages⟩ := operand.terminals_append_inj operand' h
    obtain ⟨rfl, hrs⟩ := stageTerminals_append_inj hr hs hstages
    exact ⟨rfl, hrs⟩

/-- The arguments of a call can be told from what follows the parenthesis that ends them. -/
theorem argumentTerminals_append_inj : ∀ (args others : List Pipeline) {r s : List Terminal},
    argumentTerminals args ++ .closeParen :: r = argumentTerminals others ++ .closeParen :: s →
      args = others ∧ r = s
  | [], [], r, s, h => ⟨rfl, (List.cons.inj h).2⟩
  | [], other :: others, r, s, h => by
    obtain ⟨t, ts, hts, ht⟩ := other.exists_terminals_eq_cons
    rw [argumentTerminals, argumentTerminals, hts] at h
    exact absurd (List.cons.inj h).1.symm ht
  | arg :: args, [], r, s, h => by
    obtain ⟨t, ts, hts, ht⟩ := arg.exists_terminals_eq_cons
    rw [argumentTerminals, argumentTerminals, hts] at h
    exact absurd (List.cons.inj h).1 ht
  | arg :: args, other :: others, r, s, h => by
    rw [argumentTerminals, argumentTerminals, List.append_assoc, List.append_assoc] at h
    obtain ⟨rfl, hmore⟩ := arg.terminals_append_inj other (endsPipeline_moreTerminals args r)
      (endsPipeline_moreTerminals others s) h
    obtain ⟨rfl, hrs⟩ := moreTerminals_append_inj args others hmore
    exact ⟨rfl, hrs⟩

/-- Arguments with commas before them can be told from what follows the parenthesis that ends
them. -/
theorem moreTerminals_append_inj : ∀ (args others : List Pipeline) {r s : List Terminal},
    moreTerminals args ++ .closeParen :: r = moreTerminals others ++ .closeParen :: s →
      args = others ∧ r = s
  | [], [], r, s, h => ⟨rfl, (List.cons.inj h).2⟩
  | [], _ :: _, r, s, h => by cases h
  | _ :: _, [], r, s, h => by cases h
  | arg :: args, other :: others, r, s, h => by
    simp only [moreTerminals, List.cons_append, List.append_assoc, List.cons.injEq,
      true_and] at h
    obtain ⟨rfl, hmore⟩ := arg.terminals_append_inj other (endsPipeline_moreTerminals args r)
      (endsPipeline_moreTerminals others s) h
    obtain ⟨rfl, hrs⟩ := moreTerminals_append_inj args others hmore
    exact ⟨rfl, hrs⟩

end

/-- **The grammar is unambiguous**: derivations of the same terminals are the same. What is read of
a text can therefore be its only meaning. -/
theorem Pipeline.terminals_inj {p q : Pipeline} (h : p.terminals = q.terminals) : p = q :=
  (p.terminals_append_inj q (r := []) (s := []) nofun nofun (by rw [h])).1

end Expr

end Stencil
