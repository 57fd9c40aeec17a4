import Stencil.Proofs.Bytes.Lexing
import Stencil.Proofs.Expr.Places

/-!
# Expressions by bytes

The reader of expressions takes slices too: the path of a reference, the body of a literal, what it
leaves over, and what it has taken. Here it is with its slices (`Expr.read?`,
`Expr.readInclusion?`); they all stand, for every text, and the reader is the one without
(`Expr.read?_eq`, `Expr.readInclusion?_eq`).
-/

namespace Stencil

namespace Expr

/-! ### Slices of lexemes

A reference slices off its dot and a literal its two quotes. The first byte of each is a character
because of the lexeme's kind; that a literal ends with its quote is what `Sliceable` says of a row,
and lexing gives it. -/

/-- **The path of a reference**, a slice of its word unless the word is a single dot. -/
def referencePath? (word : List Char) : Option (Option (List String)) :=
  if word = ['.'] then some (path? [])
  else (slice? word 1 (byteLength word)).map path?

/-- **The body of a literal**, a slice of it from behind the first byte up to the last. Both are
quotes, of one byte each. -/
def literalBody? (literal : List Char) : Option (List Char) :=
  (minus? (byteLength literal) 1).bind (slice? literal 1)

/-- What is behind the dot of a word is a slice of it. -/
@[simp] theorem referencePath?_eq (cs : List Char) :
    referencePath? ('.' :: cs) = some (path? cs) := by
  rw [referencePath?]
  split
  · next h =>
    obtain rfl : cs = [] := (List.cons.inj h).2
    rfl
  · have hslice := slice?_suffix ['.'] cs
    rw [show byteLength ['.'] = 1 from rfl] at hslice
    rw [← List.singleton_append, hslice, Option.map_some]

/-- What stands between two quotes is a slice. -/
theorem literalBody?_eq {q : Char} (hq : Text.Literal.isQuote q = true) (body : List Char) :
    literalBody? (q :: (body ++ [q])) = some (Text.Literal.body (q :: (body ++ [q]))) := by
  have hone : q.utf8Size = 1 := utf8Size_of_lt (toNat_lt_of_isQuote hq)
  have hlength : byteLength (q :: (body ++ [q])) = byteLength (q :: body) + 1 := by
    rw [← List.cons_append, byteLength_append]
    simp [hone]
  have hslice := slice?_append [q] body [q]
  have hbody : Text.Literal.body (q :: (body ++ [q])) = body := by
    simp [Text.Literal.body]
  rw [show byteLength [q] = 1 by simp [hone]] at hslice
  rw [literalBody?, hlength, minus?_add, Option.bind_some, hbody]
  exact hslice

/-- **Lexemes that can be sliced**: the literals among them are whole. Of other lexemes nothing is
sliced but the dot in front of a reference, which is one byte. -/
def Sliceable (row : List Lexeme) : Prop :=
  ∀ lexeme ∈ row, lexeme.kind = .quoted →
    ∃ q body, Text.Literal.isQuote q = true ∧ lexeme.text = q :: (body ++ [q])

/-- The lexemes of a text can be sliced. -/
theorem sliceable_of_lexemes {text : List Char} {row : List Lexeme}
    (h : lexemes text = .ok row) : Sliceable row := by
  intro lexeme hmem hkind
  obtain ⟨q, body, hq, -, htext⟩ := exists_literalBody_of_mem h hmem hkind
  exact ⟨q, body, hq, htext⟩

/-! ### The reader

The definitions below are those of the reader with its slices put back. Where a step of the reader
takes no slice they call that step itself, so only what slices is written out again. -/

section Reader

variable (src : String) (text : List Char)

/-- **The reader's step on a lexeme that begins an operand**, with its slices. -/
def beginOperand? (line : Nat) (lexeme : Lexeme) : Option (Except Fault Expecting) :=
  match lexeme.kind, lexeme.text with
  | .word, '.' :: cs =>
    (referencePath? ('.' :: cs)).map fun
      | some path => .ok (.continuation (.reference ⟨src, line⟩ path))
      | none => .error (.malformedReference (String.ofList lexeme.text))
  | .quoted, literal =>
    (literalBody? literal).map fun body =>
      match Text.Literal.decode body with
      | .ok value => .ok (.continuation (.literal ⟨src, line⟩ (String.ofList value)))
      | .error flaw => .error (literalFault literal flaw)
  | _, _ => some (beginOperand src text line lexeme)

/-- **The reader's step**, with its slices: there are some only where an operand begins. In all
other states a lexeme is taken as it is. -/
def step? (expecting : Expecting) (calls : List OpenCall) (line : Nat) (lexeme : Lexeme) :
    Option (Except Fault Progress) :=
  match expecting, lexeme.kind, calls with
  | .operand, _, _ => (beginOperand? src text line lexeme).map (·.map (.go · calls))
  | .firstArgument, .closeParen, _ :: _ => some (step src text expecting calls line lexeme)
  | .firstArgument, _, _ => (beginOperand? src text line lexeme).map (·.map (.go · calls))
  | _, _, _ => some (step src text expecting calls line lexeme)

/-- **The reader**, with its slices. -/
def run? (expecting : Expecting) (calls : List OpenCall) (line : Nat) :
    List Lexeme → Option (Except SourceError Reading)
  | [] => some (run src text expecting calls line [])
  | lexeme :: rest =>
    if lexeme.kind = .space then
      run? expecting calls (line + Text.newlines lexeme.text) rest
    else
      match step? src text expecting calls line lexeme with
      | none => none
      | some (.ok (.go expecting calls)) => run? expecting calls line rest
      | some (.ok (.stop expr)) => some (.ok ⟨expr, lexeme :: rest, line⟩)
      | some (.error fault) => some (.error (.malformed ⟨src, line⟩ fault))

/-- **Reads the expression at the beginning of a text**, with all slices. -/
def readFirst? (line : Nat) : Option (Except SourceError Reading) :=
  (lexemes? text).bind fun
    | .ok row => run? src text .operand [] line row
    | .error rest =>
      some (.error (.malformed ⟨src, line⟩ (.unterminatedLiteral (String.ofList rest))))

/-- **The text that a reading left over**, a slice from the offset of its first lexeme on. That
offset was counted by the lexer, in bytes. -/
def remainder? (reading : Reading) : Option (List Char) :=
  match reading.rest with
  | [] => some []
  | lexeme :: _ => slice? text lexeme.offset (byteLength text)

/-- **The beginning of a text, up to a rest**: a slice that is as much shorter as the rest is
long. -/
def upTo? (rest : List Char) : Option (List Char) :=
  (minus? (byteLength text) (byteLength rest)).bind (slice? text 0)

/-- **Reads a text that is one expression**, with all slices. -/
def read? (line : Nat) : Option (Except SourceError Node) :=
  (readFirst? src text line).bind fun
    | .error e => some (.error e)
    | .ok reading =>
      (remainder? text reading).bind fun rest =>
        if rest.isEmpty then some (.ok reading.expr)
        else
          (upTo? text rest).map fun taken =>
            .error (.malformed ⟨src, reading.line⟩
              (.trailingContent (String.ofList taken) (String.ofList rest)))

/-- **Reads what an inclusion says**, with all slices. -/
def readInclusion? (line : Nat) : Option (Except SourceError (Node × Option Node)) :=
  (readFirst? src text line).bind fun
    | .error e => some (.error e)
    | .ok reading =>
      (remainder? text reading).bind fun rest =>
        if Text.isBlank rest then some (.ok (reading.expr, none))
        else
          (upTo? text rest).bind fun taken =>
            (read? src rest (line + Text.newlines taken)).map fun result =>
              result.map fun data => (reading.expr, some data)

end Reader

/-! ### No slice is amiss

Of a row that can be sliced each step succeeds, and steps leave the rest of the row as it was, so
`Sliceable` is all that a run needs. What is left over begins at the offset of a lexeme, which is
the number of bytes in front of it. -/

section Reader

variable {src : String} {text : List Char}

/-- Where an operand begins no slice is amiss. -/
theorem beginOperand?_eq {lexeme : Lexeme} (h : Sliceable [lexeme]) (line : Nat) :
    beginOperand? src text line lexeme = some (beginOperand src text line lexeme) := by
  obtain ⟨kind, word, offset⟩ := lexeme
  cases kind with
  | word =>
    -- of the words only references are sliced, and they begin with a dot
    by_cases hdot : ∃ cs, word = '.' :: cs
    · obtain ⟨cs, rfl⟩ := hdot
      cases hpath : path? cs <;>
        simp only [beginOperand?, beginOperand, referencePath?_eq, Option.map_some, hpath]
    · unfold beginOperand?
      split
      · next cs _ hword => exact absurd ⟨cs, hword⟩ hdot
      · next hkind => cases hkind
      · rfl
  | quoted =>
    obtain ⟨q, body, hq, rfl⟩ := h _ List.mem_cons_self rfl
    cases hdecode : Text.Literal.decode (Text.Literal.body (q :: (body ++ [q]))) <;>
      simp only [beginOperand?, beginOperand, literalBody?_eq hq, Option.map_some, hdecode]
  | _ => rfl

/-- A step of the reader slices well. -/
theorem step?_eq {lexeme : Lexeme} (h : Sliceable [lexeme]) (expecting : Expecting)
    (calls : List OpenCall) (line : Nat) :
    step? src text expecting calls line lexeme
      = some (step src text expecting calls line lexeme) := by
  unfold step?
  split
  · rw [beginOperand?_eq h, Option.map_some]
    rfl
  · rfl
  · next hclose =>
    rw [beginOperand?_eq h, Option.map_some, step]
    exact hclose
  · rfl

/-- So does a run. -/
theorem run?_eq {row : List Lexeme} (h : Sliceable row) (expecting : Expecting)
    (calls : List OpenCall) (line : Nat) :
    run? src text expecting calls line row = some (run src text expecting calls line row) := by
  induction row generalizing expecting calls line with
  | nil => rfl
  | cons lexeme rest ih =>
    have hfirst : Sliceable [lexeme] := by
      intro other hmem
      obtain rfl := List.mem_singleton.1 hmem
      exact h other List.mem_cons_self
    have hrest : Sliceable rest := fun other hmem => h other (List.mem_cons_of_mem lexeme hmem)
    rw [run?, run]
    -- white space is passed without a step
    split
    · exact ih hrest expecting calls _
    · rw [step?_eq hfirst]
      cases step src text expecting calls line lexeme with
      | error fault => rfl
      | ok progress =>
        cases progress with
        | go next after => exact ih hrest next after line
        | stop expr => rfl

/-- **The expression at the beginning of a text is read with all slices.** -/
@[simp] theorem readFirst?_eq (src : String) (text : List Char) (line : Nat) :
    readFirst? src text line = some (readFirst src text line) := by
  rw [readFirst?, readFirst, lexemes?_eq, Option.bind_some]
  cases hrow : lexemes text with
  | error rest => rfl
  | ok row => exact run?_eq (sliceable_of_lexemes hrow) .operand [] line

/-- The offset of a lexeme is the number of bytes in front of it. -/
theorem offset_of_lexemesFrom {offset : Nat} {cs : List Char} {taken rest : List Lexeme}
    {lexeme : Lexeme} (h : lexemesFrom offset cs = .ok (taken ++ lexeme :: rest)) :
    lexeme.offset = offset + byteLength (lexemesText taken) := by
  induction taken generalizing offset cs with
  | nil => exact offset_of_lexemesFrom_cons h
  | cons first taken ih =>
    obtain ⟨c, ds, after, -, -, hrest⟩ := exists_firstLexeme?_eq h
    rw [ih hrest, lexemesText_cons, byteLength_append, Nat.add_assoc]

/-- Lexemes that are left over have text. -/
theorem remainder_ne_nil {line : Nat} {reading : Reading}
    (h : readFirst src text line = .ok reading) (hrest : reading.rest ≠ []) :
    reading.remainder ≠ [] := by
  obtain ⟨taken, hlexemes, -⟩ := exists_written_of_readFirst h
  obtain ⟨offset, hagain⟩ := exists_lexemesFrom_of_append hlexemes
  -- text without characters has no lexemes, and there are some
  intro hnil
  rw [← Reading.remainder, hnil, lexemesFrom] at hagain
  exact hrest (Except.ok.inj hagain).symm

/-- **What is left over is a slice**: the offset of the first lexeme left is the number of bytes of
all that was read. -/
theorem remainder?_eq {line : Nat} {reading : Reading}
    (h : readFirst src text line = .ok reading) :
    remainder? text reading = some reading.remainder := by
  obtain ⟨taken, hlexemes, -⟩ := exists_written_of_readFirst h
  have htext := lexemesText_of_lexemesFrom hlexemes
  rw [remainder?, Reading.remainder]
  -- nothing is left, or the text from the offset of the first lexeme on
  cases hrest : reading.rest with
  | nil => rfl
  | cons lexeme rest =>
    rw [hrest] at hlexemes htext
    rw [lexemesText_append] at htext
    dsimp only
    rw [offset_of_lexemesFrom hlexemes, Nat.zero_add, ← htext, slice?_suffix]

/-- **What is taken is a slice**, since what is left over is the end of the text. -/
theorem upTo?_eq {line : Nat} {reading : Reading}
    (h : readFirst src text line = .ok reading) :
    upTo? text reading.remainder = some (upTo text reading.remainder) := by
  obtain ⟨taken, hlexemes, -⟩ := exists_written_of_readFirst h
  have htext := lexemesText_of_lexemesFrom hlexemes
  rw [Reading.remainder, upTo_lexemesText hlexemes, upTo?]
  rw [lexemesText_append] at htext
  rw [← htext, byteLength_append, minus?_add, Option.bind_some, slice?_prefix]

/-- **Expressions are read with all slices**, those for the text of an error included. -/
@[simp] theorem read?_eq (src : String) (text : List Char) (line : Nat) :
    read? src text line = some (read src text line) := by
  rw [read?, read, readFirst?_eq, Option.bind_some]
  cases hreading : readFirst src text line with
  | error e => rfl
  | ok reading =>
    dsimp only
    rw [remainder?_eq hreading, Option.bind_some, upTo?_eq hreading, Option.map_some]
    cases hrest : reading.rest with
    | nil =>
      rw [Reading.remainder, hrest]
      rfl
    -- lexemes are left, so text is left, and the reader complains about it
    | cons lexeme rest =>
      have hne := remainder_ne_nil hreading (by simp [hrest])
      rw [if_neg (by simpa using hne)]

/-- **Inclusions are read with all slices**: the second expression is itself read from a slice. -/
@[simp] theorem readInclusion?_eq (src : String) (text : List Char) (line : Nat) :
    readInclusion? src text line = some (readInclusion src text line) := by
  rw [readInclusion?, readInclusion, readFirst?_eq, Option.bind_some]
  cases hreading : readFirst src text line with
  | error e => rfl
  | ok reading =>
    dsimp only
    rw [remainder?_eq hreading, Option.bind_some, upTo?_eq hreading, Option.bind_some, read?_eq,
      Option.map_some]
    split <;> rfl

end Reader

end Expr

end Stencil
