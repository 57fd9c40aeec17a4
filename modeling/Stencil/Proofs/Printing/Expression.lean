import Stencil.Proofs.Expr.Language
import Stencil.Proofs.Segment.Cutting

/-!
# Expressions as they are written

The source form of an expression reads back as that expression, if all its names are identifiers
(`isProper`). It says the terminals of a derivation that means it (`exists_derives_source`), and a
directive can be closed after it (`neat_source`). What it begins with decides whether a
directive that interpolates it is taken for something else: a call that is written with parentheses
begins with its name, and that may be a word that directives begin with (`leadsWithKeyword`).
-/

namespace Stencil

namespace Node

mutual

/-- **A proper expression**: references, calls and literals only, and all names are identifiers.
These are the expressions that can be written: any other name would be read as something else, and
statements have no form inside of an expression. -/
def isProper : Node → Bool
  | .reference _ path => path.all fun property => isIdentifier property.toList
  | .call _ name args => isIdentifier name.toList && areProper args
  | .literal _ _ => true
  | _ => false

/-- Proper expressions in a row. -/
def areProper : List Node → Bool
  | [] => true
  | node :: nodes => node.isProper && areProper nodes

end

theorem areProper_iff {exprs : List Node} :
    areProper exprs = true ↔ ∀ expr ∈ exprs, expr.isProper = true := by
  induction exprs with
  | nil => simp [areProper]
  | cons expr exprs ih => rw [areProper, Bool.and_eq_true, ih, List.forall_mem_cons]

theorem isExpression_of_isProper {expr : Node} (h : expr.isProper = true) :
    expr.isExpression = true := by
  cases expr <;> first | rfl | cases h

/-- **The call that an expression begins with** when it is written. A call of one argument is
written behind that argument, and any other call behind its own name. -/
def leadingCall? : Node → Option String
  | .call _ _ [arg] => arg.leadingCall?
  | .call _ name _ => some name
  | _ => none

/-- Whether a written expression begins with a word that announces a directive of its own. -/
def leadsWithKeyword (expr : Node) : Bool :=
  match expr.leadingCall? with
  | some name => headings.any fun (word, _) => word == name
  | none => false

/-- A tree with all its nodes at the top of a source. The trees of derivations are placed so
(`Pipeline.tree`), as a derivation knows nothing of lines. -/
def placed (src : String) (node : Node) : Node :=
  node.relocate fun _ => ⟨src, 0⟩

theorem placed_call (src : String) (loc : Location) (name : String) (args : List Node) :
    (call loc name args).placed src = call ⟨src, 0⟩ name (args.map (placed src)) := by
  rw [placed, relocate, relocateList_eq_map]
  rfl

/-- Where a tree stands does not matter where locations are forgotten. -/
@[simp] theorem unlocated_placed (src : String) (node : Node) :
    (node.placed src).unlocated = node.unlocated :=
  relocate_relocate _ _ node

end Node

/-- With a separator between any two, and behind the first one before each. -/
theorem flatten_intersperse_cons (sep first : List Char) (others : List (List Char)) :
    (List.intersperse sep (first :: others)).flatten
      = first ++ others.flatMap fun other => sep ++ other := by
  induction others generalizing first with
  | nil => simp
  | cons other others ih =>
    rw [List.intersperse_cons_cons, List.flatten_cons, List.flatten_cons, ih]
    simp

/-- A character of texts with separators belongs to one of them. -/
theorem mem_flatten_intersperse {c : Char} {sep : List Char} {texts : List (List Char)}
    (h : c ∈ (List.intersperse sep texts).flatten) : c ∈ sep ∨ ∃ text ∈ texts, c ∈ text := by
  cases texts with
  | nil => simp at h
  | cons first others =>
    rw [flatten_intersperse_cons, List.mem_append, List.mem_flatMap] at h
    rcases h with h | ⟨other, hother, h⟩
    · exact .inr ⟨first, List.mem_cons_self, h⟩
    · rcases List.mem_append.1 h with h | h
      · exact .inl h
      · exact .inr ⟨other, List.mem_cons_of_mem _ hother, h⟩

/-- A character of a written chain is a dot or belongs to a property. -/
theorem mem_pathSource {c : Char} {path : List String} (h : c ∈ Node.pathSource path) :
    c = '.' ∨ ∃ property ∈ path, c ∈ property.toList := by
  rcases List.mem_cons.1 h with rfl | h
  · exact .inl rfl
  rcases mem_flatten_intersperse h with h | ⟨text, htext, h⟩
  · exact .inl (List.mem_singleton.1 h)
  · obtain ⟨property, hproperty, rfl⟩ := List.mem_map.1 htext
    exact .inr ⟨property, hproperty, h⟩

namespace Expr

open Text (Literal.write)

/-! ### The terminals of what is written

Written expressions are compared with derivations by their terminals (`derives_iff_scan?`), so that
spaces do not matter. A written operand is scanned apart from what follows it whenever that begins
with no character of a word, and this holds of everything that is written behind an operand: a
comma, a closing parenthesis, a space before a pipe. -/

/-- A written literal is one terminal. -/
theorem scan?_write (cs : List Char) :
    scan? (Literal.write cs) = some [.quoted (Literal.write cs)] := by
  have hspan := Text.Literal.span_write cs []
  rw [List.append_nil] at hspan
  have hcons : Literal.write cs = '"' :: (Literal.write cs).tail := rfl
  rw [hcons, scan?_cons_quote rfl hspan, scan?_nil, Option.map_some]

/-- A written literal can be read. -/
def Quotation.ofText (cs : List Char) : Quotation where
  text := Literal.write cs
  value := cs
  decodes := by simpa [Literal.write, Text.Literal.body] using Text.Literal.decode_encode cs

/-- A written chain is one terminal. -/
theorem scan?_pathSource (path : List Identifier) :
    scan? (Node.pathSource (pathNames path)) = some [.word (Node.pathSource (pathNames path))] := by
  apply scan?_word (List.cons_ne_nil _ _)
  intro c hc
  rcases mem_pathSource hc with rfl | ⟨property, hmem, hc⟩
  · rfl
  · exact isWordChar_of_isAlphanumeric
      (isAlphanumeric_of_mem (valid_of_mem_pathNames path property hmem) hc)

/-- Arguments behind commas begin with a comma. -/
theorem parts_of_separated (cs : List Char) (args : List Node) :
    Parts cs (args.flatMap fun arg => [',', ' '] ++ arg.source) := by
  apply parts_of_not_isWordChar_head
  intro c hc
  cases args with
  | nil => cases hc
  | cons arg args =>
    cases hc
    rfl

variable (src : String)

mutual

/-- **What is written for a proper expression is the terminals of a derivation** that means it. The
induction follows how calls are written: without arguments and with two or more they stand in
parentheses, and a call of one argument is one more stage of what its argument is written as. -/
theorem exists_derives_source : ∀ expr : Node, expr.isProper = true →
    ∃ pipeline, Derives expr.source pipeline ∧ pipeline.tree src = expr.placed src
  | .reference loc path, h => by
    obtain ⟨identifiers, rfl⟩ := exists_pathNames_eq fun property hproperty =>
      List.all_eq_true.1 h property hproperty
    refine ⟨.mk (.reference identifiers) [], derives_iff_scan?.2 ?_, rfl⟩
    rw [Node.source, scan?_pathSource]
    rfl
  | .literal loc value, h => by
    refine ⟨.mk (.quoted (.ofText value.toList)) [], derives_iff_scan?.2 ?_, ?_⟩
    · rw [Node.source, scan?_write]
      rfl
    · simp [Pipeline.tree, Operand.tree, callStages, Quotation.ofText, Node.placed, Node.relocate]
  | .call loc name [], h => by
    simp only [Node.isProper, Bool.and_eq_true] at h
    refine ⟨.mk (.call ⟨name, h.1⟩ []) [], derives_iff_scan?.2 ?_, rfl⟩
    rw [Node.source_call (by simp), Pipeline.terminals, stageTerminals, List.flatMap_nil,
      List.append_nil]
    exact scan?_call ⟨name, h.1⟩ scan?_nil
  -- one argument: its pipeline, with one more stage behind
  | .call loc name [arg], h => by
    simp only [Node.isProper, Node.areProper, Bool.and_true, Bool.and_eq_true] at h
    obtain ⟨pipeline, hderives, htree⟩ := exists_derives_source arg h.2
    refine ⟨pipeline.handTo ⟨name, h.1⟩, ?_, ?_⟩
    · rw [Node.source, List.append_assoc]
      exact hderives.handTo ⟨name, h.1⟩
    · rw [Pipeline.tree_handTo, htree, Node.placed_call]
      rfl
  -- more arguments: the first without a comma before it, the others each with one
  | .call loc name (arg :: other :: args), h => by
    simp only [Node.isProper, Bool.and_eq_true] at h
    obtain ⟨hname, hargs⟩ := h
    rw [Node.areProper, Bool.and_eq_true] at hargs
    obtain ⟨pipeline, hderives, htree⟩ := exists_derives_source arg hargs.1
    obtain ⟨pipelines, htrees, hscan⟩ := exists_scan?_separated (other :: args) hargs.2
    refine ⟨.mk (.call ⟨name, hname⟩ (pipeline :: pipelines)) [], derives_iff_scan?.2 ?_, ?_⟩
    · have hargs : scan? (arg.source ++ (other :: args).flatMap fun arg => [',', ' '] ++ arg.source)
          = some (argumentTerminals (pipeline :: pipelines)) := by
        rw [scan?_append (derives_iff_scan?.1 hderives) (parts_of_separated _ _), hscan]
        rfl
      rw [Node.source_call (by simp), Node.sources_eq_map, List.map_cons, flatten_intersperse_cons,
        List.flatMap_map, Pipeline.terminals, stageTerminals, List.flatMap_nil, List.append_nil]
      exact scan?_call ⟨name, hname⟩ hargs
    · rw [Pipeline.tree, Operand.tree, treesOf, htree, htrees, Node.placed_call]
      rfl
  | .text .., h | .interpolation .., h | .inclusion .., h | .block .., h | .list .., h => by
    cases h

/-- What is written for arguments, a comma before each, is the terminals of arguments. It is the
other half of the induction, over the row of arguments behind the first. -/
theorem exists_scan?_separated : ∀ args : List Node, Node.areProper args = true →
    ∃ pipelines, treesOf src pipelines = args.map (Node.placed src) ∧
      scan? (args.flatMap fun arg => [',', ' '] ++ arg.source) = some (moreTerminals pipelines)
  | [], _ => ⟨[], rfl, scan?_nil⟩
  | arg :: args, h => by
    simp only [Node.areProper, Bool.and_eq_true] at h
    obtain ⟨pipeline, hderives, htree⟩ := exists_derives_source arg h.1
    obtain ⟨pipelines, htrees, hscan⟩ := exists_scan?_separated args h.2
    refine ⟨pipeline :: pipelines, by rw [treesOf, htree, htrees, List.map_cons], ?_⟩
    rw [derives_iff_scan?] at hderives
    rw [List.flatMap_cons, List.append_assoc, List.cons_append, List.cons_append, List.nil_append,
      scan?_cons_comma, scan?_cons_space, scan?_append hderives (parts_of_separated _ args), hscan]
    rfl

end

end Expr

end Stencil
