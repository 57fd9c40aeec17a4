import Stencil.Proofs.Document.Calls

/-!
# Whether a rejected source stays rejected

A reader that is asked again after a failure goes on from where it has stopped. At a dead end it
stops for good (`DocumentReader.not_leadsOn_of_isDeadEnd`). Not so at the other two places: at the
end of the segments nothing is left to be wrong, though a definition may have lost its `end`, and a
definition that was in the wrong place is in the right one for the next call. Which readers get
through in this way is `DocumentReader.LeadsOn`, and no others ever do
(`DocumentReader.rejection_lasts_iff`).
-/

namespace Stencil

/-! ### At a dead end

Nothing that a call does takes a dead end: not a body, not a definition, not the handing out. So the
reader has the same segment before it after any number of calls, and never comes to an end. -/

namespace Segment.IsDeadEnd

variable {src : String} {segment : Segment}

/-- **A body takes no dead end**: it is refused there, or ends there, and in both cases the segment
is left to the next call. -/
theorem read_body (h : segment.IsDeadEnd src) (endLine : Nat) (rest : List Segment) :
    (∃ e, Body.read src endLine (segment :: rest) = .error ⟨e, segment :: rest⟩) ∨
      ∃ tree, Body.read src endLine (segment :: rest) = .ok (tree, segment :: rest) := by
  cases h with
  | interpolation hheading hread | inclusion hheading hread | block hheading hread =>
    left
    simp [Body.read, Body.run, hheading, hread]
  | define hheading =>
    left
    simp [Body.read, Body.run, hheading, Body.stuckAt]
  | orElse hheading | close hheading =>
    right
    simp [Body.read, Body.run, hheading]

theorem isBlank_eq_false (h : segment.IsDeadEnd src) : segment.isBlank = false := by
  obtain ⟨kind, text, line⟩ := segment
  cases kind with
  | text => cases h <;> contradiction
  | directive => rfl

/-- A definition that is a dead end has no name. -/
theorem read_ne_literal {content : List Char} (h : segment.IsDeadEnd src)
    (hdefine : segment.heading = .define content) (loc : Location) (name : String) :
    Expr.read src content segment.line ≠ .ok (.literal loc name) := by
  cases h with
  | define hheading hread =>
    obtain rfl := Heading.define.inj (hheading.symm.trans hdefine)
    exact hread loc name
  | interpolation hheading | inclusion hheading | block hheading | orElse hheading
  | close hheading => cases hheading.symm.trans hdefine

end Segment.IsDeadEnd

namespace DocumentReader

variable {reader next : DocumentReader} {segment : Segment} {rest : List Segment}
  {name? : Option String} {e : SourceError}

/-- A body under a name takes no dead end either. -/
theorem rest_readBody_of_isDeadEnd (h : segment.IsDeadEnd reader.src)
    (hrest : reader.rest = segment :: rest) (name : String) (line : Nat) :
    (reader.readBody name line).2.rest = segment :: rest := by
  have hbody := h.read_body reader.endLine rest
  rw [← hrest] at hbody ⊢
  obtain ⟨stuck, hread, hfails⟩ | ⟨tree, left, hread, hdone⟩ := readBody_cases reader name line
  · rw [hread] at hbody
    -- it was refused at the dead end, which is where it stands
    obtain ⟨_, ⟨⟩⟩ | ⟨_, ⟨⟩⟩ := hbody
    rw [hfails]
    rfl
  · rw [hread] at hbody
    obtain ⟨_, ⟨⟩⟩ | ⟨_, ⟨⟩⟩ := hbody
    obtain ⟨-, hfails⟩ | ⟨-, hadds⟩ := hdone
    · rw [hfails]
      rfl
    · rw [hadds]

/-- A definition without a name is not taken. -/
theorem exists_readDefinition_error {line : Nat} {content : List Char}
    (h : ∀ loc name, Expr.read reader.src content line ≠ .ok (.literal loc name))
    (rest : List Segment) : ∃ e, reader.readDefinition line content rest = (.error e, reader) := by
  obtain ⟨e, -, hfails⟩ | ⟨_, -, -, hfails⟩ | ⟨loc, name, hread, -⟩ :=
    readDefinition_cases reader line content rest
  · exact ⟨e, hfails⟩
  · exact ⟨_, hfails⟩
  · exact absurd hread (h loc name)

/-- **No definition begins at a dead end**, so reading definitions leaves the reader as it is. -/
theorem readDefinitions_of_isDeadEnd (h : segment.IsDeadEnd reader.src)
    (hrest : reader.rest = segment :: rest) : reader.readDefinitions.2 = reader := by
  -- the segment is not blank and no definition that succeeds, so the loop ends at once
  fun_cases readDefinitions reader with
  | case1 => rfl
  | case2 other others hother _ hblank =>
    obtain ⟨rfl, rfl⟩ := List.cons.inj (hother.symm.trans hrest)
    rw [h.isBlank_eq_false] at hblank
    cases hblank
  | case3 other others hother _ _ content hdefine e after hdef =>
    obtain ⟨rfl, rfl⟩ := List.cons.inj (hother.symm.trans hrest)
    obtain ⟨e', herror⟩ := exists_readDefinition_error (h.read_ne_literal hdefine) others
    cases hdef.symm.trans herror
    rfl
  | case4 other others hother _ _ content hdefine after hdef =>
    obtain ⟨rfl, rfl⟩ := List.cons.inj (hother.symm.trans hrest)
    obtain ⟨e', herror⟩ := exists_readDefinition_error (h.read_ne_literal hdefine) others
    cases hdef.symm.trans herror
  | case5 => rfl

/-- Handing out takes no segment. -/
theorem rest_handOut (reader : DocumentReader) : reader.handOut.2.rest = reader.rest := by
  obtain ⟨-, hout⟩ | ⟨_, _, _, -, hout⟩ := handOut_cases reader
  · rw [hout]
  · rw [hout]

/-- **No call takes a dead end**, under a name or without, so all further calls find it again. -/
theorem rest_read_of_isDeadEnd (h : segment.IsDeadEnd reader.src)
    (hrest : reader.rest = segment :: rest) (name? : Option String) :
    (reader.read name?).2.rest = segment :: rest := by
  have hstays := readDefinitions_of_isDeadEnd h hrest
  have hnamed : (reader.readNamed name?).2.rest = segment :: rest := by
    obtain ⟨hsame, -⟩ | ⟨first, _, name, -, -, hbody⟩ := readNamed_cases reader name?
    · rw [hsame, hrest]
    · rw [hbody, rest_readBody_of_isDeadEnd h hrest]
  obtain ⟨e, next, hdefinitions, hread⟩ | ⟨after, hdefinitions, hcall⟩ := read_cases reader name?
  · rw [hdefinitions] at hstays
    rw [hread, hstays, hrest]
  rw [hdefinitions] at hstays
  obtain rfl : after = reader := hstays
  obtain ⟨e, next, hfails, hread⟩ | ⟨last, hreads, hread⟩ := hcall
  · rw [hfails] at hnamed
    rw [hread, hnamed]
  · rw [hreads] at hnamed
    rw [hread, rest_handOut, hnamed]

/-! ### Getting through

A reader leads on if it can be brought to the end of its segments by calls that are refused for
nothing but a misplaced definition. That this is the exact condition takes two facts: where calls
lead to, the reader led on before (`leadsOn_of_read`), and a call that succeeds has come to the
end. -/

/-- **A reader leads on**: under some name a call comes to the end of the segments, or is refused
for a definition in the wrong place and leads on from there. -/
inductive LeadsOn : DocumentReader → Prop
  /-- a call comes to the end -/
  | atEnd {reader : DocumentReader} {name : String} :
    (reader.read (some name)).2.rest = [] → LeadsOn reader
  /-- a call is refused for a definition -/
  | atDefine {reader : DocumentReader} {name : String} {loc : Location} :
    (reader.read (some name)).1 = .error (.malformed loc .misplacedDefine) →
    LeadsOn (reader.read (some name)).2 → LeadsOn reader

theorem leadsOn_of_rest_eq_nil (h : reader.rest = []) : reader.LeadsOn := by
  have hend : (reader.read (some "")).2.rest = [] := by rw [read_of_rest_eq_nil h, h]
  exact .atEnd hend

/-- **A dead end leads nowhere**: no call gets past its segment, and nothing is handed out while
that is there. -/
theorem not_leadsOn_of_isDeadEnd (h : segment.IsDeadEnd reader.src)
    (hrest : reader.rest = segment :: rest) : ¬ reader.LeadsOn := by
  intro hleads
  induction hleads with
  | @atEnd reader name hend =>
    rw [rest_read_of_isDeadEnd h hrest] at hend
    cases hend
  | @atDefine reader name loc hfails _ ih =>
    refine ih ?_ (rest_read_of_isDeadEnd h hrest _)
    rwa [(goesOn_of_read_error (Prod.ext hfails rfl)).src]

/-- **A call with a name that fails** has stopped at one of the three places. -/
theorem stopsAt_of_read {name : String} (h : reader.read (some name) = (.error e, next)) :
    StopsAt next.src e next.rest := by
  obtain ⟨_, _, hdefinitions, hread⟩ | ⟨after, -, hnamed⟩ := read_cases reader (some name)
  · cases hread.symm.trans h
    exact (stops_of_readDefinitions hdefinitions).stopsAt
  obtain ⟨hsame, hrest | ⟨⟨⟩⟩⟩ | ⟨first, _, _, -, ⟨⟩, hbody⟩ := readNamed_cases after (some name)
  -- nothing is left behind the definitions, so the call does not fail
  · obtain ⟨_, _, hfails, -⟩ | ⟨last, hreads, hread⟩ := hnamed
    · cases hsame.symm.trans hfails
    cases hsame.symm.trans hreads
    obtain ⟨-, hout⟩ | ⟨_, _, _, hleft, -⟩ := handOut_cases after
    · cases (hread.trans hout).symm.trans h
    · cases hleft.symm.trans hrest
  obtain ⟨_, _, hfails, hread⟩ | ⟨last, hreads, hread⟩ := hnamed
  · cases hread.symm.trans h
    exact (stops_of_readBody (hbody.symm.trans hfails)).stopsAt
  -- the body is read, but something is left behind it
  · have hends := endsStatements_of_readBody (hbody.symm.trans hreads)
    obtain ⟨-, hout⟩ | ⟨_, _, _, -, hout⟩ := handOut_cases last
    · cases (hread.trans hout).symm.trans h
    · cases (hread.trans hout).symm.trans h
      exact hends.stopsAt _

/-- **Where a call with a name leads to, the reader led on before.** No call opens a way that was
not there. -/
theorem leadsOn_of_read_some {name : String} (h : (reader.read (some name)).2.LeadsOn) :
    reader.LeadsOn := by
  cases hread : reader.read (some name) with
  | mk answer next =>
    rw [hread] at h
    cases answer with
    | ok templates =>
      obtain ⟨last, -, -, hrest, rfl⟩ := exists_goesOn_of_read_ok hread
      exact .atEnd (by rw [hread]; exact hrest)
    | error e =>
      have hstops := stopsAt_of_read hread
      generalize hrest : next.rest = rest at hstops
      -- at the end and at a misplaced definition the reader led on by what `LeadsOn` says
      cases hstops with
      | atEnd => exact .atEnd (by rw [hread]; exact hrest)
      | misplaced => exact .atDefine (by rw [hread]) (by rwa [hread])
      | deadEnd hdead => exact absurd h (not_leadsOn_of_isDeadEnd hdead hrest)

/-- Behind its definitions a reader leads on as it did before them. -/
theorem leadsOn_of_readDefinitions (hread : reader.readDefinitions = (.ok (), next))
    (h : next.LeadsOn) : reader.LeadsOn := by
  cases h with
  | atEnd hend => exact .atEnd (by rwa [read_of_definitions hread] at hend)
  | atDefine hfails hnext =>
    rw [read_of_definitions hread] at hfails hnext
    exact .atDefine hfails hnext

/-- **Where a call leads to, the reader led on before**, under a name or without. -/
theorem leadsOn_of_read (h : (reader.read name?).2.LeadsOn) : reader.LeadsOn := by
  cases name? with
  | some name => exact leadsOn_of_read_some h
  | none =>
    obtain ⟨_, _, hdefinitions, hread⟩ | ⟨after, hdefinitions, hread⟩ := read_none_cases reader
    -- where the definitions fail, a call with a name fails in the same way
    · rw [hread, ← read_of_readDefinitions_error hdefinitions (some "")] at h
      exact leadsOn_of_read_some h
    refine leadsOn_of_readDefinitions hdefinitions ?_
    obtain ⟨hrest, -⟩ | ⟨_, _, _, -, hout⟩ := handOut_cases after
    · exact leadsOn_of_rest_eq_nil hrest
    · rwa [hread, hout] at h

/-- **Rejection lasts** for a reader, over all calls there are, exactly if it does not lead on. -/
theorem rejection_lasts_iff (reader : DocumentReader) :
    (∀ names, ∀ answer ∈ reader.answers names, ∃ e, answer = .error e) ↔ ¬ reader.LeadsOn := by
  constructor
  · intro hlasts hleads
    induction hleads with
    | @atEnd reader name hend =>
      -- at the end one more call hands out what is there
      obtain ⟨e, he⟩ := hlasts [some name, none] _ (.tail _ (.head _))
      rw [read_of_rest_eq_nil hend] at he
      cases he
    | @atDefine reader name loc hfails _ ih =>
      exact ih fun names answer hanswer => hlasts (some name :: names) answer (.tail _ hanswer)
  · intro hleads names
    -- one call after the other, none of which leads on
    induction names generalizing reader with
    | nil => exact nofun
    | cons name? names ih =>
      have hnext : ¬ (reader.read name?).2.LeadsOn := fun h => hleads (leadsOn_of_read h)
      refine List.forall_mem_cons.2 ⟨?_, ih _ hnext⟩
      cases hread : reader.read name? with
      | mk answer next =>
        cases answer with
        | error e => exact ⟨e, rfl⟩
        | ok templates =>
          obtain ⟨last, -, -, hrest, rfl⟩ := exists_goesOn_of_read_ok hread
          rw [hread] at hnext
          exact (hnext (leadsOn_of_rest_eq_nil hrest)).elim

/-- A definition without an `end`. -/
def openDefinition : List Segment :=
  [⟨.directive, "\x7b\x7bdefine 'a'\x7d\x7d".toList, 1⟩, ⟨.text, "x".toList, 1⟩]

/-- **Not every rejected source stays rejected**: a definition without an `end` is handed out by the
second call. -/
theorem not_all_rejections_last :
    ¬ ∀ (src : String) (segments : List Segment) (endLine : Nat),
      (∀ name?, ∃ e, ((ofSegments src segments endLine).read name?).1 = .error e) →
      ∀ names, ∀ answer ∈ (ofSegments src segments endLine).answers names,
        ∃ e, answer = .error e := by
  intro hall
  have hfails : (ofSegments "m" openDefinition 1).readDefinitions.1.toOption = none := by
    decide +kernel
  have hsecond : ((((ofSegments "m" openDefinition 1).read none).2.read none).1.toOption.map
      (·.entries)) = some [("a", .text ⟨"m", 1⟩ "x")] := by decide +kernel
  have hrejected : ∀ name?, ∃ e,
      ((ofSegments "m" openDefinition 1).read name?).1 = .error e := by
    intro name?
    cases hread : (ofSegments "m" openDefinition 1).readDefinitions with
    | mk answer after =>
      cases answer with
      | error e => exact ⟨e, by rw [read_of_readDefinitions_error hread]⟩
      | ok =>
        rw [hread] at hfails
        cases hfails
  -- so both calls should fail, and the second does not
  obtain ⟨e, he⟩ := hall "m" openDefinition 1 hrejected [none, none] _ (.tail _ (.head _))
  rw [he] at hsecond
  cases hsecond

end DocumentReader

end Stencil
