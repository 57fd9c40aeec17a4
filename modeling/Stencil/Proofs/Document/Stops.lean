import Stencil.Proofs.Document.Language
import Stencil.Proofs.Expr.Faults

/-!
# Where a reading stops

A reading of a document that fails stays at the segment to blame, or at the end of the segments if
that is where something is missing. A body is blamed on a segment that it refuses (`Body.Refuses`);
outside bodies little more can be wrong. In the end there are three places to stop at (`StopsAt`):
the end, a definition in the wrong place, and a dead end, which is a segment that no reading ever
takes at the top level (`Segment.IsDeadEnd`).
-/

namespace Stencil

/-! ### Bodies

`Body.Refuses` is what the reader of bodies can fail with, one case for each place in its definition
that raises an error. Later proofs split these cases and not the reader. -/

/-- **What a body is blamed on**: the segment that the reader has come to, with what is wrong there,
or the end of the segments. -/
inductive Body.Refuses (src : String) (endLine : Nat) : Stuck → Prop
  /-- an interpolation without an expression -/
  | interpolation {segment : Segment} {rest : List Segment} {content : List Char}
      {e : SourceError} :
    segment.heading = .interpolation content →
    Expr.read src content segment.line = .error e →
    Refuses src endLine ⟨e, segment :: rest⟩
  /-- an inclusion that does not say of what -/
  | inclusion {segment : Segment} {rest : List Segment} {content : List Char} {e : SourceError} :
    segment.heading = .inclusion content →
    Expr.readInclusion src content segment.line = .error e →
    Refuses src endLine ⟨e, segment :: rest⟩
  /-- a block without an expression -/
  | block {segment : Segment} {rest : List Segment} {kind : BlockKind} {content : List Char}
      {e : SourceError} :
    segment.heading = .block kind content →
    Expr.read src content segment.line = .error e →
    Refuses src endLine ⟨e, segment :: rest⟩
  /-- a definition inside a body -/
  | define {segment : Segment} {rest : List Segment} {content : List Char} :
    segment.heading = .define content →
    Refuses src endLine (stuckAt src segment rest .misplacedDefine)
  /-- an `else` with more than the word -/
  | longElse {segment : Segment} {rest : List Segment} {content : List Char} :
    segment.heading = .orElse content →
    Text.isBlank content = false →
    Refuses src endLine
      (stuckAt src segment rest (.contentAfterKeyword (String.ofList segment.text)))
  /-- the second `else` of a block -/
  | secondElse {segment : Segment} {rest : List Segment} {content : List Char} :
    segment.heading = .orElse content →
    Text.isBlank content = true →
    Refuses src endLine (stuckAt src segment rest (.expectedEnd (String.ofList segment.text)))
  /-- an `end` with more than the word -/
  | longEnd {segment : Segment} {rest : List Segment} {content : List Char} :
    segment.heading = .close content →
    Text.isBlank content = false →
    Refuses src endLine
      (stuckAt src segment rest (.contentAfterKeyword (String.ofList segment.text)))
  /-- the end of the segments inside a block -/
  | atEnd : Refuses src endLine ⟨.malformed ⟨src, endLine⟩ .missingEnd, []⟩

section Reader

variable {src : String} {endLine : Nat}

/-- **The reader of bodies fails at what it refuses**, and has taken what comes before. The rest
begins with the segment to blame. -/
theorem Body.refuses_of_run {segments : List Segment} {draft : Draft} {blocks : List OpenBlock}
    {stuck : Stuck} (h : run src endLine draft blocks segments = .error stuck) :
    Refuses src endLine stuck ∧ stuck.rest <:+ segments := by
  induction segments generalizing draft blocks with
  | nil =>
    cases blocks with
    | nil => cases h
    | cons block outer =>
      cases h
      exact ⟨.atEnd, List.suffix_rfl⟩
  | cons segment rest ih =>
    -- where the reader goes on, what it refuses is behind the segment
    have later {draft : Draft} {blocks : List OpenBlock}
        (h : run src endLine draft blocks rest = .error stuck) :
        Refuses src endLine stuck ∧ stuck.rest <:+ segment :: rest :=
      ⟨(ih h).1, (ih h).2.trans (List.suffix_cons segment rest)⟩
    cases hheading : segment.heading with
    | text content =>
      rw [run_text hheading] at h
      exact later h
    | interpolation content =>
      cases hread : Expr.read src content segment.line with
      | ok expr =>
        rw [run_interpolation hheading hread] at h
        exact later h
      | error e =>
        simp only [run, hheading, hread, Except.error.injEq] at h
        subst h
        exact ⟨.interpolation hheading hread, List.suffix_rfl⟩
    | inclusion content =>
      cases hread : Expr.readInclusion src content segment.line with
      | ok parts =>
        rw [run_inclusion hheading hread] at h
        exact later h
      | error e =>
        simp only [run, hheading, hread, Except.error.injEq] at h
        subst h
        exact ⟨.inclusion hheading hread, List.suffix_rfl⟩
    | define content =>
      simp only [run, hheading, Except.error.injEq] at h
      subst h
      exact ⟨.define hheading, List.suffix_rfl⟩
    | block kind content =>
      cases hread : Expr.read src content segment.line with
      | ok expr =>
        rw [run_block hheading hread] at h
        exact later h
      | error e =>
        simp only [run, hheading, hread, Except.error.injEq] at h
        subst h
        exact ⟨.block hheading hread, List.suffix_rfl⟩
    -- an `else` is refused inside a block only; outside it ends the body
    | orElse content =>
      cases blocks with
      | nil => simp [run, hheading] at h
      | cons block outer =>
        simp only [run, hheading, Bool.not_eq_true'] at h
        split at h
        · next hblank =>
          cases h
          exact ⟨.longElse hheading hblank, List.suffix_rfl⟩
        split at h
        · next hblank _ =>
          cases h
          exact ⟨.secondElse hheading (eq_true_of_ne_false hblank), List.suffix_rfl⟩
        · exact later h
    | close content =>
      cases blocks with
      | nil => simp [run, hheading] at h
      | cons block outer =>
        simp only [run, hheading, Bool.not_eq_true'] at h
        split at h
        · next hblank =>
          cases h
          exact ⟨.longEnd hheading hblank, List.suffix_rfl⟩
        · exact later h

end Reader

/-! ### Dead ends

Whether a reader that has failed can go on depends on the segment that it has stopped at. The reader
of documents skips no segment but blank text, and a dead end is not blank and begins neither a
definition nor a statement. -/

/-- **A segment that no reading takes at the top level**: no definition and no statement begins
with it. -/
inductive Segment.IsDeadEnd (src : String) (segment : Segment) : Prop
  /-- an interpolation without an expression -/
  | interpolation {content : List Char} {e : SourceError} :
    segment.heading = .interpolation content →
    Expr.read src content segment.line = .error e → IsDeadEnd src segment
  /-- an inclusion that does not say of what -/
  | inclusion {content : List Char} {e : SourceError} :
    segment.heading = .inclusion content →
    Expr.readInclusion src content segment.line = .error e → IsDeadEnd src segment
  /-- a block without an expression -/
  | block {kind : BlockKind} {content : List Char} {e : SourceError} :
    segment.heading = .block kind content →
    Expr.read src content segment.line = .error e → IsDeadEnd src segment
  /-- a definition without a name -/
  | define {content : List Char} :
    segment.heading = .define content →
    (∀ loc name, Expr.read src content segment.line ≠ .ok (.literal loc name)) →
    IsDeadEnd src segment
  /-- an `else`, which no block is open for -/
  | orElse {content : List Char} : segment.heading = .orElse content → IsDeadEnd src segment
  /-- an `end`, which nothing is open for -/
  | close {content : List Char} : segment.heading = .close content → IsDeadEnd src segment

/-- **Where a reading that fails with an error has stopped**: what is left of the segments. There
are three such places, and from each it can be told what a further call does. -/
inductive StopsAt (src : String) : SourceError → List Segment → Prop
  /-- the end of the segments -/
  | atEnd {e : SourceError} : StopsAt src e []
  /-- a definition in the wrong place -/
  | misplaced {loc : Location} {segment : Segment} {rest : List Segment} {content : List Char} :
    segment.heading = .define content →
    StopsAt src (.malformed loc .misplacedDefine) (segment :: rest)
  /-- a dead end -/
  | deadEnd {e : SourceError} {segment : Segment} {rest : List Segment} :
    segment.IsDeadEnd src → StopsAt src e (segment :: rest)

section Reader

variable {src : String} {endLine : Nat}

/-- What ends statements is the end of the segments, or a dead end. -/
theorem Body.EndsStatements.stopsAt {rest : List Segment} (h : EndsStatements rest)
    (e : SourceError) : StopsAt src e rest := by
  cases rest with
  | nil => exact .atEnd
  | cons segment rest =>
    rcases h segment rfl with ⟨content, hheading⟩ | ⟨content, hheading⟩
    · exact .deadEnd (.orElse hheading)
    · exact .deadEnd (.close hheading)

/-- A body that fails stops at one of the three places. -/
theorem Body.Refuses.stopsAt {stuck : Stuck} (h : Refuses src endLine stuck) :
    StopsAt src stuck.error stuck.rest := by
  cases h with
  | interpolation hheading hread => exact .deadEnd (.interpolation hheading hread)
  | inclusion hheading hread => exact .deadEnd (.inclusion hheading hread)
  | block hheading hread => exact .deadEnd (.block hheading hread)
  | define hheading => exact .misplaced hheading
  | longElse hheading | secondElse hheading => exact .deadEnd (.orElse hheading)
  | longEnd hheading => exact .deadEnd (.close hheading)
  | atEnd => exact .atEnd

/-- **An error that is about content that no template takes.** That content is left, and a call with
a name may take it. -/
def SourceError.isUnparsed : SourceError → Bool
  | .malformed _ (.unparsedContent _) => true
  | _ => false

/-- Expressions fail for other reasons. -/
theorem Expr.IsFailure.isUnparsed_eq_false {e : SourceError} (h : IsFailure e) :
    e.isUnparsed = false := by
  obtain ⟨loc, fault, rfl, hfault⟩ := h
  cases fault <;> first
    | rfl
    | cases hfault

/-- So do bodies. -/
theorem Body.Refuses.isUnparsed_eq_false {stuck : Stuck} (h : Refuses src endLine stuck) :
    stuck.error.isUnparsed = false := by
  cases h with
  | interpolation _ hread | block _ hread =>
    exact (Expr.isFailure_of_read hread).isUnparsed_eq_false
  | inclusion _ hread => exact (Expr.isFailure_of_readInclusion hread).isUnparsed_eq_false
  | _ => rfl

end Reader

namespace DocumentReader

/-- **A reader stops**: it has failed, and has come to one of the three places. What fails before
all content has had its chance is not the content. -/
structure Stops (e : SourceError) (next : DocumentReader) : Prop where
  /-- where it has stopped -/
  stopsAt : StopsAt next.src e next.rest
  /-- what is wrong is not that something is left -/
  isUnparsed_eq_false : e.isUnparsed = false

variable {reader next : DocumentReader} {e : SourceError} {name : String} {line : Nat}

/-- A body under a name stops where the body does, or behind it if the name is taken. -/
theorem stops_of_readBody (h : reader.readBody name line = (.error e, next)) : Stops e next := by
  obtain ⟨stuck, hread, hfails⟩ | ⟨tree, rest, hread, ⟨-, hfails⟩ | ⟨-, hadds⟩⟩ :=
    readBody_cases reader name line
  · cases hfails.symm.trans h
    obtain ⟨hrefuses, -⟩ := Body.refuses_of_run hread
    exact ⟨hrefuses.stopsAt, hrefuses.isUnparsed_eq_false⟩
  · cases hfails.symm.trans h
    obtain ⟨_, _, -, -, hends, -⟩ := Body.read_eq_ok_iff.1 hread
    exact ⟨hends.stopsAt _, rfl⟩
  · cases hadds.symm.trans h

/-- A body that is added ends where statements end. -/
theorem endsStatements_of_readBody (h : reader.readBody name line = (.ok (), next)) :
    Body.EndsStatements next.rest := by
  obtain ⟨tree, rest, hread, -, rfl⟩ := readBody_eq_ok_iff.1 h
  obtain ⟨_, _, -, -, hends, -⟩ := Body.read_eq_ok_iff.1 hread
  exact hends

/-- Behind a body, the end of a definition is missing where the body ends. -/
theorem stops_of_takeEnd (hends : Body.EndsStatements reader.rest)
    (h : reader.takeEnd = (.error e, next)) : Stops e next := by
  have hstops : ∀ e : SourceError, StopsAt reader.src e reader.rest := hends.stopsAt
  obtain ⟨_, _, -, -, htakes⟩ | ⟨-, hfails⟩ | ⟨_, _, _, -, rfl | rfl, hfails⟩ :=
    takeEnd_cases reader
  · cases htakes.symm.trans h
  all_goals
    cases hfails.symm.trans h
    exact ⟨hstops _, rfl⟩

/-- **Where a definition stops.** -/
theorem stops_of_readDefinition {segment : Segment} {content : List Char} {rest : List Segment}
    (hrest : reader.rest = segment :: rest) (hheading : segment.heading = .define content)
    (h : reader.readDefinition segment.line content rest = (.error e, next)) : Stops e next := by
  -- without a name the directive of the definition is a dead end
  have hdead (hname : ∀ loc name,
      Expr.read reader.src content segment.line ≠ .ok (.literal loc name)) (e : SourceError) :
      StopsAt reader.src e reader.rest := by
    rw [hrest]
    exact .deadEnd (.define hheading hname)
  obtain ⟨e', hread, hfails⟩ | ⟨expr, hread, hliteral, hfails⟩ | ⟨_, name, -, hbody⟩ :=
    readDefinition_cases reader segment.line content rest
  · cases hfails.symm.trans h
    refine ⟨hdead ?_ _, (Expr.isFailure_of_read hread).isUnparsed_eq_false⟩
    rw [hread]
    exact nofun
  · cases hfails.symm.trans h
    refine ⟨hdead ?_ _, rfl⟩
    rw [hread]
    rintro loc name ⟨⟩
    exact hliteral loc name rfl
  · obtain ⟨_, _, hbody, hfails⟩ | ⟨_, hbody, htakes⟩ := hbody
    · cases hfails.symm.trans h
      exact stops_of_readBody hbody
    · exact stops_of_takeEnd (endsStatements_of_readBody hbody) (htakes.symm.trans h)

/-- **Where the definitions stop.** -/
theorem stops_of_readDefinitions (h : reader.readDefinitions = (.error e, next)) :
    Stops e next := by
  fun_induction readDefinitions reader with
  | case1 => cases h
  | case2 _ _ _ _ _ _ ih => exact ih h
  | case3 reader segment rest hrest _ _ content hheading e' after hdef =>
    cases h
    exact stops_of_readDefinition hrest hheading hdef
  | case4 _ _ _ _ _ _ _ _ _ _ _ ih => exact ih h
  | case5 => cases h

end DocumentReader

end Stencil
