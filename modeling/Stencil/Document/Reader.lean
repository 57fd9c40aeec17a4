import Stencil.Document.Body
import Stencil.NameMap

/-!
# Documents

A document is a row of definitions, with blank text between them, and then perhaps the body of a
template that is named from outside. Its reader has a state that outlives a failure: it stays at the
segment to blame and keeps the templates it has, so that it can be asked again. What it has
read is handed out, and given up, only when all segments are taken (`DocumentReader.read`).
-/

namespace Stencil

/-- **A document being read.** Every step is a function from states to an answer and a state, and
gives a state also when it fails: what was read before the failure is kept in it. -/
structure DocumentReader where
  /-- the name of the source -/
  src : String
  /-- the line of the end of the source -/
  endLine : Nat
  /-- the segments not taken yet -/
  rest : List Segment
  /-- the templates that have been read -/
  templates : NameMap Node

namespace DocumentReader

/-- A document before anything is read. -/
def ofSegments (src : String) (segments : List Segment) (endLine : Nat) : DocumentReader :=
  ⟨src, endLine, segments, .empty⟩

/-- The same state with other segments to take. -/
def withRest (reader : DocumentReader) (rest : List Segment) : DocumentReader :=
  { reader with rest }

/-- The error of a fault on a line of the document. -/
def errorAt (reader : DocumentReader) (line : Nat) (fault : Fault) : SourceError :=
  .malformed ⟨reader.src, line⟩ fault

/-- **Reads a body under a name**, for a template announced on a line. The body is read before the
name is found taken, and its segments are then taken although its tree is not kept. -/
def readBody (reader : DocumentReader) (name : String) (line : Nat) :
    Except SourceError Unit × DocumentReader :=
  match Body.read reader.src reader.endLine reader.rest with
  | .error stuck => (.error stuck.error, reader.withRest stuck.rest)
  | .ok (body, rest) =>
    if reader.templates.contains name then
      (.error (reader.errorAt line (.redefinition name)), reader.withRest rest)
    else
      (.ok (), { reader with rest, templates := reader.templates.insert name body })

/-- **Takes the directive that ends a definition.** If it is another one, it is left where it is,
and so it is met again by the next call. -/
def takeEnd (reader : DocumentReader) : Except SourceError Unit × DocumentReader :=
  match reader.rest with
  | [] => (.error (reader.errorAt reader.endLine .missingEnd), reader)
  | segment :: rest =>
    match segment.heading with
    | .close content =>
      if Text.isBlank content then (.ok (), reader.withRest rest)
      else
        (.error (reader.errorAt segment.line
          (.contentAfterKeyword (String.ofList segment.text))), reader)
    | .orElse content =>
      if Text.isBlank content then
        (.error (reader.errorAt segment.line (.expectedEnd (String.ofList segment.text))), reader)
      else
        (.error (reader.errorAt segment.line
          (.contentAfterKeyword (String.ofList segment.text))), reader)
    | _ =>
      (.error (reader.errorAt segment.line (.expectedEnd (String.ofList segment.text))), reader)

/-- **Reads a definition** whose directive is the next segment: `content` is what follows its
keyword, and `rest` the segments after it. The tree is stored before the end of the definition is
looked for. -/
def readDefinition (reader : DocumentReader) (line : Nat) (content : List Char)
    (rest : List Segment) : Except SourceError Unit × DocumentReader :=
  match Expr.read reader.src content line with
  | .error e => (.error e, reader)
  | .ok (.literal _ name) =>
    match (reader.withRest rest).readBody name line with
    | (.error e, reader) => (.error e, reader)
    | (.ok (), reader) => reader.takeEnd
  | .ok expr => (.error (reader.errorAt line (.nameNotLiteral expr.sourceText)), reader)

/-- Reading a body under a name takes nothing back. -/
theorem length_readBody_le {reader after : DocumentReader} {name : String} {line : Nat}
    (h : reader.readBody name line = (.ok (), after)) : after.rest.length ≤ reader.rest.length := by
  unfold readBody at h
  split at h
  · cases h
  · next hread =>
    split at h
    · cases h
    · cases h
      exact Body.length_le_of_run _ _ hread

/-- Taking the end of a definition takes one segment. -/
theorem length_takeEnd_lt {reader after : DocumentReader}
    (h : reader.takeEnd = (.ok (), after)) : after.rest.length < reader.rest.length := by
  unfold takeEnd at h
  split at h
  · cases h
  · next hrest =>
    repeat' split at h
    all_goals cases h
    simp [withRest, hrest]

/-- Reading a definition takes more than its directive: its end at least. This is why
`readDefinitions` comes to an end. -/
theorem length_readDefinition_lt {reader after : DocumentReader} {line : Nat} {content : List Char}
    {rest : List Segment} (h : reader.readDefinition line content rest = (.ok (), after)) :
    after.rest.length < rest.length := by
  unfold readDefinition at h
  split at h
  · cases h
  · split at h
    · cases h
    · next hbody =>
      exact Nat.lt_of_lt_of_le (length_takeEnd_lt h) (length_readBody_le hbody)
  · cases h

/-- **Reads all definitions** at the beginning of a document, and takes the blank text
among them. -/
def readDefinitions (reader : DocumentReader) : Except SourceError Unit × DocumentReader :=
  match hrest : reader.rest with
  | [] => (.ok (), reader)
  | segment :: rest =>
    have hlt : rest.length < reader.rest.length := by simp [hrest]
    if segment.isBlank then (reader.withRest rest).readDefinitions
    else
      match segment.heading with
      | .define content =>
        match hdef : reader.readDefinition segment.line content rest with
        | (.error e, after) => (.error e, after)
        | (.ok (), after) =>
          have := Nat.lt_trans (length_readDefinition_lt hdef) hlt
          after.readDefinitions
      | _ => (.ok (), reader)
termination_by reader.rest.length

/-- **Reads what follows the definitions** as the body of the named template, if there is a name.
Without one it takes nothing, and what is left is an error when the templates are handed out. -/
def readNamed (reader : DocumentReader) (name? : Option String) :
    Except SourceError Unit × DocumentReader :=
  match reader.rest, name? with
  | segment :: _, some name => reader.readBody name segment.line
  | _, _ => (.ok (), reader)

/-- **Hands out the templates**, if no segment is left. They are given up with that, so the next
call has none; if segments are left, the templates stay for it. -/
def handOut (reader : DocumentReader) : Except SourceError (NameMap Node) × DocumentReader :=
  match reader.rest with
  | [] => (.ok reader.templates, { reader with templates := .empty })
  | segment :: _ =>
    let content := String.ofList (segmentsText reader.rest)
    (.error (reader.errorAt segment.line (.unparsedContent content)), reader)

/-- **Reads a document**: its definitions, then the body of the named template if a name
is given, and nothing else. -/
def read (reader : DocumentReader) (name? : Option String) :
    Except SourceError (NameMap Node) × DocumentReader :=
  match reader.readDefinitions with
  | (.error e, reader) => (.error e, reader)
  | (.ok (), reader) =>
    match reader.readNamed name? with
    | (.error e, reader) => (.error e, reader)
    | (.ok (), reader) => reader.handOut

end DocumentReader

end Stencil
