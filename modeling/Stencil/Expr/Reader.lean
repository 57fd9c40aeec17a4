import Stencil.Expr.Lexeme
import Stencil.Node.Basic
import Stencil.Segment.Heading
import Stencil.SourceError
import Stencil.Text.Newline

/-!
# Reading expressions

An expression is a pipeline: an operand, then any number of bars with a function name behind each.
An operand is a property chain, a literal, or a call with pipelines for arguments. Spacing means
nothing but lines. The reader goes through the lexemes once, from left to right, and keeps the
calls whose arguments are not complete on a stack; what may come next is its state (`Expecting`).
It stops at the first lexeme that cannot continue a whole expression, so the same reader serves
where something may follow (`Expr.readFirst`) and where nothing may (`Expr.read`).
-/

namespace Stencil

/-- **A call whose arguments are not complete.** The arguments are kept last first, so that one more
is put in front. -/
structure OpenCall where
  /-- the line of its name -/
  line : Nat
  /-- the function -/
  name : String
  /-- the arguments so far, last first -/
  args : List Node

/-- The call that a parenthesis completes. -/
def OpenCall.close (src : String) (call : OpenCall) : Node :=
  .call ⟨src, call.line⟩ call.name call.args.reverse

/-- **What the reader expects next.** The stack of open calls is kept apart from it: which lexemes
are accepted depends on the state, and what becomes of a whole operand depends on the stack. -/
inductive Expecting
  /-- an operand -/
  | operand
  /-- the first argument of the innermost call, or its end -/
  | firstArgument
  /-- the parenthesis behind the name of a call -/
  | arguments (line : Nat) (name : String)
  /-- the function that a pipeline hands its value to -/
  | stage (input : Node)
  /-- what may follow a whole operand -/
  | continuation (expr : Node)

namespace Expr

/-- The dot-separated parts of a text. There is always one, and an empty part where two dots meet or
one stands at an end. -/
def dotParts : List Char → List (List Char)
  | [] => [[]]
  | c :: cs =>
    if c = '.' then [] :: dotParts cs
    else
      match dotParts cs with
      | [] => [[c]]
      | part :: parts => (c :: part) :: parts

/-- **The path of a reference**, read from what follows its first dot; nothing follows where the
data itself is meant. One part that is not an identifier, an empty one for instance, spoils the
whole path. -/
def path? (cs : List Char) : Option (List String) :=
  if cs.isEmpty then some []
  else if (dotParts cs).all isIdentifier then some ((dotParts cs).map String.ofList)
  else none

/-- Why a literal cannot be read. -/
def literalFault (literal : List Char) : Text.Literal.Flaw → Fault
  | .unknownEscape sequence => .unknownEscape (String.ofList sequence) (String.ofList literal)
  | .danglingBackslash => .danglingBackslash (String.ofList literal)

variable (src : String) (text : List Char)

/-- **The reader's step on a lexeme that begins an operand**: the state after it. A word with a dot
in front is a reference, any other the name of a call whose parenthesis has to follow. -/
def beginOperand (line : Nat) (lexeme : Lexeme) : Except Fault Expecting :=
  match lexeme.kind, lexeme.text with
  | .word, '.' :: cs =>
    match path? cs with
    | some path => .ok (.continuation (.reference ⟨src, line⟩ path))
    | none => .error (.malformedReference (String.ofList lexeme.text))
  | .word, name =>
    if isIdentifier name then .ok (.arguments line (String.ofList name))
    else .error (.expectedName (String.ofList name))
  | .quoted, literal =>
    match Text.Literal.decode (Text.Literal.body literal) with
    | .ok value => .ok (.continuation (.literal ⟨src, line⟩ (String.ofList value)))
    | .error flaw => .error (literalFault literal flaw)
  | _, found => .error (.unexpectedLexeme (String.ofList found) (String.ofList text))

/-- **What a lexeme does to the reader.** Stopping is no failure: what is not taken may be the
second expression of an inclusion. -/
inductive Progress
  /-- it is taken, and this is what comes next -/
  | go (expecting : Expecting) (calls : List OpenCall)
  /-- it is not taken: the expression is whole without it -/
  | stop (expr : Node)

/-- **The reader's step** on a lexeme that is not spacing. Only a whole operand outside all calls
can be left with the lexeme not taken (`Progress.stop`); in every other state a lexeme that does not
fit is a fault. -/
def step (expecting : Expecting) (calls : List OpenCall) (line : Nat) (lexeme : Lexeme) :
    Except Fault Progress :=
  match expecting with
  | .operand => (beginOperand src text line lexeme).map (.go · calls)
  | .firstArgument =>
    match lexeme.kind, calls with
    | .closeParen, call :: outer => .ok (.go (.continuation (call.close src)) outer)
    | _, _ => (beginOperand src text line lexeme).map (.go · calls)
  | .arguments start name =>
    if lexeme.kind = .openParen then .ok (.go .firstArgument (⟨start, name, []⟩ :: calls))
    else .error (.expectedParen '(' (some (String.ofList lexeme.text)))
  | .stage input =>
    if lexeme.kind = .word ∧ isIdentifier lexeme.text then
      let call := Node.call ⟨src, input.loc.line⟩ (String.ofList lexeme.text) [input]
      .ok (.go (.continuation call) calls)
    else .error (.expectedName (String.ofList lexeme.text))
  | .continuation expr =>
    match lexeme.kind, calls with
    | .pipe, _ => .ok (.go (.stage expr) calls)
    | _, [] => .ok (.stop expr)
    | .comma, call :: outer =>
      .ok (.go .operand ({ call with args := expr :: call.args } :: outer))
    | .closeParen, call :: outer =>
      let whole := { call with args := expr :: call.args }
      .ok (.go (.continuation (whole.close src)) outer)
    | _, _ :: _ => .error (.expectedParen ')' (some (String.ofList lexeme.text)))

/-- **The end of the lexemes**: the expression, if it is whole. What is missing is named by the
state, and if it is nothing, by the innermost call that is still open. -/
def finish (calls : List OpenCall) : Expecting → Except Fault Node
  | .operand => .error (.missingOperand (String.ofList text))
  | .firstArgument => .error (.expectedParen ')' none)
  | .arguments _ _ => .error (.expectedParen '(' none)
  | .stage _ => .error (.missingName (String.ofList text))
  | .continuation expr => if calls.isEmpty then .ok expr else .error (.expectedParen ')' none)

/-- **An expression that was read**, and where its reading stopped. -/
structure Reading where
  /-- the expression -/
  expr : Node
  /-- the lexemes after it, from the first that is not spacing -/
  rest : List Lexeme
  /-- the line that was come to -/
  line : Nat

/-- **The reader**, from a state on. Faults are found on the line that has been come to. That line
is moved by spacing only, so the line feeds inside literals are not counted in it. -/
def run (expecting : Expecting) (calls : List OpenCall) (line : Nat) :
    List Lexeme → Except SourceError Reading
  | [] =>
    match finish text calls expecting with
    | .ok expr => .ok ⟨expr, [], line⟩
    | .error fault => .error (.malformed ⟨src, line⟩ fault)
  | lexeme :: rest =>
    if lexeme.kind = .space then
      run expecting calls (line + Text.newlines lexeme.text) rest
    else
      match step src text expecting calls line lexeme with
      | .ok (.go expecting calls) => run expecting calls line rest
      | .ok (.stop expr) => .ok ⟨expr, lexeme :: rest, line⟩
      | .error fault => .error (.malformed ⟨src, line⟩ fault)

/-- **Reads the expression at the beginning of a text** that begins on a line. The whole text is cut
into lexemes before that, so a literal that does not end is found first, wherever it stands. -/
def readFirst (line : Nat) : Except SourceError Reading :=
  match lexemes text with
  | .ok row => run src text .operand [] line row
  | .error rest => .error (.malformed ⟨src, line⟩ (.unterminatedLiteral (String.ofList rest)))

/-- The text that a reading left over. -/
def Reading.remainder (reading : Reading) : List Char :=
  lexemesText reading.rest

/-- The beginning of a text, up to a rest that it ends with: what was read, where that rest is left
over. -/
def upTo (rest : List Char) : List Char :=
  text.take (text.length - rest.length)

/-- **Reads a text that is one expression.** Something left over behind it is an error here, which
only an inclusion allows. -/
def read (line : Nat) : Except SourceError Node :=
  match readFirst src text line with
  | .error e => .error e
  | .ok reading =>
    match reading.rest with
    | [] => .ok reading.expr
    | _ :: _ =>
      let rest := reading.remainder
      let fault :=
        .trailingContent (String.ofList (upTo text rest)) (String.ofList rest)
      .error (.malformed ⟨src, reading.line⟩ fault)

/-- **Reads what an inclusion says**: the name of a template, and behind it an expression for its
data unless all that follows is blank. The line of the data is counted from the text of the name,
with all its line feeds. -/
def readInclusion (line : Nat) : Except SourceError (Node × Option Node) :=
  match readFirst src text line with
  | .error e => .error e
  | .ok reading =>
    let rest := reading.remainder
    if Text.isBlank rest then .ok (reading.expr, none)
    else
      (read src rest (line + Text.newlines (upTo text rest))).map
        fun data => (reading.expr, some data)

variable {src text} in
/-- **How an inclusion is read**: what comes first is its name, and what is left is blank or the
data. -/
theorem exists_reading_of_readInclusion {line : Nat} {name : Node} {data : Option Node}
    (h : readInclusion src text line = .ok (name, data)) :
    ∃ reading, readFirst src text line = .ok reading ∧ reading.expr = name ∧
      ((Text.isBlank reading.remainder = true ∧ data = none) ∨
        ∃ expr, read src reading.remainder (line + Text.newlines (upTo text reading.remainder))
          = .ok expr ∧ data = some expr) := by
  rw [readInclusion] at h
  split at h
  · cases h
  · next reading hreading =>
    refine ⟨reading, hreading, ?_⟩
    dsimp only at h
    split at h
    · next hblank =>
      cases h
      exact ⟨rfl, .inl ⟨hblank, rfl⟩⟩
    · cases hread : read src reading.remainder
          (line + Text.newlines (upTo text reading.remainder)) with
      | error e =>
        rw [hread] at h
        cases h
      | ok expr =>
        rw [hread] at h
        cases h
        exact ⟨rfl, .inr ⟨expr, rfl, rfl⟩⟩

end Expr

end Stencil
