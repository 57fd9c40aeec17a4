import Stencil.Proofs.Document.Grammar

/-!
# What the reader of documents can do

Each part of the reader succeeds or fails in a few ways, and each leaves a state behind. They are
said here once, with the conditions they depend on; what is preserved, where a failure stops, and
what an error is blamed on all follow from them.
-/

namespace Stencil.DocumentReader

variable (reader : DocumentReader)

/-- **A body under a name**: it is not read, or its name is taken, or it is added. In the second
case it is gone: its segments are taken, and nothing is stored. -/
theorem readBody_cases (name : String) (line : Nat) :
    (∃ stuck, Body.read reader.src reader.endLine reader.rest = .error stuck ∧
        reader.readBody name line = (.error stuck.error, reader.withRest stuck.rest)) ∨
      ∃ tree rest, Body.read reader.src reader.endLine reader.rest = .ok (tree, rest) ∧
        ((reader.templates.contains name = true ∧
            reader.readBody name line
              = (.error (reader.errorAt line (.redefinition name)), reader.withRest rest)) ∨
          reader.templates.contains name = false ∧
            reader.readBody name line
              = (.ok (),
                  { reader with rest, templates := reader.templates.insert name tree })) := by
  rw [readBody]
  cases Body.read reader.src reader.endLine reader.rest with
  | error stuck => exact .inl ⟨stuck, rfl, rfl⟩
  | ok found =>
    refine .inr ⟨found.1, found.2, rfl, ?_⟩
    dsimp only
    cases reader.templates.contains name with
    | true => exact .inl ⟨rfl, rfl⟩
    | false => exact .inr ⟨rfl, rfl⟩

/-- **The end of a definition**: it is taken, or it is missing at the end of the segments, or
another segment is there. -/
theorem takeEnd_cases :
    (∃ closing rest, reader.rest = closing :: rest ∧ closing.IsEnd ∧
        reader.takeEnd = (.ok (), reader.withRest rest)) ∨
      (reader.rest = [] ∧
        reader.takeEnd = (.error (reader.errorAt reader.endLine .missingEnd), reader)) ∨
      ∃ segment rest fault, reader.rest = segment :: rest ∧
        (fault = .contentAfterKeyword (String.ofList segment.text) ∨
          fault = .expectedEnd (String.ofList segment.text)) ∧
        reader.takeEnd = (.error (reader.errorAt segment.line fault), reader) := by
  rw [takeEnd]
  cases hrest : reader.rest with
  | nil => exact .inr (.inl ⟨rfl, rfl⟩)
  | cons segment rest =>
    dsimp only
    split
    · next content hheading =>
      split
      · next hblank => exact .inl ⟨segment, rest, rfl, ⟨content, hheading, hblank⟩, rfl⟩
      · exact .inr (.inr ⟨segment, rest, _, rfl, .inl rfl, rfl⟩)
    · split
      · exact .inr (.inr ⟨segment, rest, _, rfl, .inr rfl, rfl⟩)
      · exact .inr (.inr ⟨segment, rest, _, rfl, .inl rfl, rfl⟩)
    · exact .inr (.inr ⟨segment, rest, _, rfl, .inr rfl, rfl⟩)

/-- **A definition**: it has no name, or its body is not added, or it comes to its end, which may
fail with the body added already. -/
theorem readDefinition_cases (line : Nat) (content : List Char) (rest : List Segment) :
    (∃ e, Expr.read reader.src content line = .error e ∧
        reader.readDefinition line content rest = (.error e, reader)) ∨
      (∃ expr, Expr.read reader.src content line = .ok expr ∧
        (∀ loc name, expr ≠ .literal loc name) ∧
        reader.readDefinition line content rest
          = (.error (reader.errorAt line (.nameNotLiteral expr.sourceText)), reader)) ∨
      ∃ loc name, Expr.read reader.src content line = .ok (.literal loc name) ∧
        ((∃ e next, (reader.withRest rest).readBody name line = (.error e, next) ∧
            reader.readDefinition line content rest = (.error e, next)) ∨
          ∃ next, (reader.withRest rest).readBody name line = (.ok (), next) ∧
            reader.readDefinition line content rest = next.takeEnd) := by
  rw [readDefinition]
  split
  · next e hread => exact .inl ⟨e, hread, rfl⟩
  · next loc name hread =>
    refine .inr (.inr ⟨loc, name, hread, ?_⟩)
    cases (reader.withRest rest).readBody name line with
    | mk result next =>
      cases result with
      | error e => exact .inl ⟨e, next, rfl, rfl⟩
      | ok => exact .inr ⟨next, rfl, rfl⟩
  · next expr hliteral hread => exact .inr (.inl ⟨expr, hread, hliteral, rfl⟩)

/-- **What follows the definitions** is read as a body if there is a name for it, and if anything
follows at all. -/
theorem readNamed_cases (name? : Option String) :
    (reader.readNamed name? = (.ok (), reader) ∧ (reader.rest = [] ∨ name? = none)) ∨
      ∃ segment rest name, reader.rest = segment :: rest ∧ name? = some name ∧
        reader.readNamed name? = reader.readBody name segment.line := by
  obtain ⟨src, endLine, rest, templates⟩ := reader
  cases rest with
  | nil => exact .inl ⟨rfl, .inl rfl⟩
  | cons segment rest =>
    cases name? with
    | none => exact .inl ⟨rfl, .inr rfl⟩
    | some name => exact .inr ⟨segment, rest, name, rfl, rfl, rfl⟩

/-- **What is handed out**: all templates, or nothing if a segment is left; in that case they are
kept. -/
theorem handOut_cases :
    (reader.rest = [] ∧
        reader.handOut = (.ok reader.templates, { reader with templates := .empty })) ∨
      ∃ segment rest content, reader.rest = segment :: rest ∧
        reader.handOut = (.error (reader.errorAt segment.line (.unparsedContent content)),
          reader) := by
  rw [handOut]
  cases hrest : reader.rest with
  | nil => exact .inl ⟨rfl, rfl⟩
  | cons segment rest => exact .inr ⟨segment, rest, _, rfl, rfl⟩

/-- **A call**: it fails at the definitions, or at the body that is to be read under a name, or it
comes to handing out. -/
theorem read_cases (name? : Option String) :
    (∃ e next, reader.readDefinitions = (.error e, next) ∧ reader.read name? = (.error e, next)) ∨
      ∃ after, reader.readDefinitions = (.ok (), after) ∧
        ((∃ e next, after.readNamed name? = (.error e, next) ∧
            reader.read name? = (.error e, next)) ∨
          ∃ last, after.readNamed name? = (.ok (), last) ∧ reader.read name? = last.handOut) := by
  rw [read]
  cases reader.readDefinitions with
  | mk result after =>
    cases result with
    | error e => exact .inl ⟨e, after, rfl, rfl⟩
    | ok =>
      refine .inr ⟨after, rfl, ?_⟩
      dsimp only
      cases after.readNamed name? with
      | mk result last =>
        cases result with
        | error e => exact .inl ⟨e, last, rfl, rfl⟩
        | ok => exact .inr ⟨last, rfl, rfl⟩

end Stencil.DocumentReader
