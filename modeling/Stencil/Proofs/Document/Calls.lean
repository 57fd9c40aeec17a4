import Stencil.Proofs.Document.Stops

/-!
# Calls one after the other

A reader of documents can be asked again, after a failure too. It goes on from where it is: it has
taken the segments before that place for good, and every template that it has keeps its tree until
all are handed out (`DocumentReader.GoesOn`). That holds of each thing that it does, so of calls one
after the other (`DocumentReader.calls_go_on`). A call that leaves content over has only come to
that content; the next call finds it as a fresh reader does (`DocumentReader.read_of_definitions`).
-/

namespace Stencil.DocumentReader

/-! ### Calls -/

/-- **The reader after some calls**, made with one name after the other, or without. Calls that fail
count too: they leave their mark. -/
def afterCalls (reader : DocumentReader) (names : List (Option String)) : DocumentReader :=
  names.foldl (fun reader name? => (reader.read name?).2) reader

/-- **The answers to calls**, made with one name after the other, or without, each by the reader
that the calls before it have left. -/
def answers (reader : DocumentReader) :
    List (Option String) → List (Except SourceError (NameMap Node))
  | [] => []
  | name? :: names => (reader.read name?).1 :: (reader.read name?).2.answers names

/-- Every call has an answer. -/
theorem length_answers (reader : DocumentReader) (names : List (Option String)) :
    (reader.answers names).length = names.length := by
  induction names generalizing reader with
  | nil => rfl
  | cons name? names ih => rw [answers, List.length_cons, ih, List.length_cons]

/-! ### Going on

What every step of the reader has in common, whether it succeeds or fails: it takes segments off the
front and adds templates under new names. Both are kept under composition, so one lemma for each
part of the reader gives the same for all calls. -/

/-- **One state goes on from another**: segments have been taken, and templates may have been added
to those that were there. -/
structure GoesOn (reader next : DocumentReader) : Prop where
  /-- the source is the same -/
  src : next.src = reader.src
  /-- the end of the source is the same -/
  endLine : next.endLine = reader.endLine
  /-- only segments at the beginning are taken -/
  rest : next.rest <:+ reader.rest
  /-- every template keeps its tree -/
  templates : ∀ name tree, reader.templates.find? name = some tree →
    next.templates.find? name = some tree

namespace GoesOn

variable {reader next last : DocumentReader}

theorem refl (reader : DocumentReader) : reader.GoesOn reader where
  src := rfl
  endLine := rfl
  rest := List.suffix_rfl
  templates _ _ h := h

theorem trans (h : reader.GoesOn next) (h' : next.GoesOn last) : reader.GoesOn last where
  src := h'.src.trans h.src
  endLine := h'.endLine.trans h.endLine
  rest := h'.rest.trans h.rest
  templates name tree htree := h'.templates name tree (h.templates name tree htree)

/-- Taking segments changes no template. -/
theorem withRest {rest : List Segment} (h : rest <:+ reader.rest) :
    reader.GoesOn (reader.withRest rest) where
  src := rfl
  endLine := rfl
  rest := h
  templates _ _ h := h

end GoesOn

/-- **A body under a name replaces no other**: if the name is taken, nothing is added, though the
body was read. -/
theorem goesOn_readBody (reader : DocumentReader) (name : String) (line : Nat) :
    reader.GoesOn (reader.readBody name line).2 := by
  obtain ⟨stuck, hread, hfails⟩ | ⟨tree, rest, hread, hdone⟩ := readBody_cases reader name line
  · rw [hfails]
    exact .withRest (Body.refuses_of_run hread).2
  obtain ⟨inside, _, hsegments, -⟩ := Body.read_eq_ok_iff.1 hread
  have hrest : rest <:+ reader.rest := hsegments ▸ List.suffix_append inside rest
  obtain ⟨-, hfails⟩ | ⟨hfresh, hadds⟩ := hdone
  · rw [hfails]
    exact .withRest hrest
  · rw [hadds]
    -- the new name is not the name of a template that was there
    refine ⟨rfl, rfl, hrest, fun other kept hkept => ?_⟩
    rw [NameMap.find?_insert, if_neg, hkept]
    rintro rfl
    rw [NameMap.contains, hkept] at hfresh
    cases hfresh

theorem goesOn_takeEnd (reader : DocumentReader) : reader.GoesOn reader.takeEnd.2 := by
  obtain ⟨closing, rest, hrest, -, htakes⟩ | ⟨-, hfails⟩ | ⟨_, _, _, -, -, hfails⟩ :=
    takeEnd_cases reader
  · rw [htakes]
    exact .withRest (hrest ▸ List.suffix_cons closing rest)
  all_goals
    rw [hfails]
    exact .refl reader

theorem goesOn_readDefinition {reader : DocumentReader} {segment : Segment} {rest : List Segment}
    (hrest : reader.rest = segment :: rest) (line : Nat) (content : List Char) :
    reader.GoesOn (reader.readDefinition line content rest).2 := by
  obtain ⟨_, -, hfails⟩ | ⟨_, -, -, hfails⟩ | ⟨_, name, -, hbody⟩ :=
    readDefinition_cases reader line content rest
  · rw [hfails]
    exact .refl reader
  · rw [hfails]
    exact .refl reader
  have htail : rest <:+ reader.rest := hrest ▸ List.suffix_cons segment rest
  have hgoes := (GoesOn.withRest htail).trans (goesOn_readBody (reader.withRest rest) name line)
  obtain ⟨_, _, hbody, hfails⟩ | ⟨next, hbody, htakes⟩ := hbody
  · rw [hbody] at hgoes
    rwa [hfails]
  · rw [hbody] at hgoes
    rw [htakes]
    exact hgoes.trans (goesOn_takeEnd next)

/-- **The definitions of a document replace no template** that is there before them. -/
theorem goesOn_readDefinitions (reader : DocumentReader) :
    reader.GoesOn reader.readDefinitions.2 := by
  fun_induction readDefinitions reader with
  | case1 reader => exact .refl reader
  | case2 reader segment rest hrest _ _ ih =>
    exact (GoesOn.withRest (hrest ▸ List.suffix_cons segment rest)).trans ih
  | case3 reader segment rest hrest _ _ content _ e after hdef =>
    have hgoes := goesOn_readDefinition hrest segment.line content
    rwa [hdef] at hgoes
  -- a definition was read, and the loop goes on from what it has left
  | case4 reader segment rest hrest _ _ content _ after hdef _ ih =>
    have hgoes := goesOn_readDefinition hrest segment.line content
    rw [hdef] at hgoes
    exact hgoes.trans ih
  | case5 reader => exact .refl reader

theorem goesOn_readNamed (reader : DocumentReader) (name? : Option String) :
    reader.GoesOn (reader.readNamed name?).2 := by
  obtain ⟨hnamed, -⟩ | ⟨segment, _, name, -, -, hnamed⟩ := readNamed_cases reader name?
  · rw [hnamed]
    exact .refl reader
  · rw [hnamed]
    exact goesOn_readBody reader name segment.line

/-! ### Whole calls

A call that fails goes on from the reader before it. A call that succeeds does so up to the moment
when it hands out the templates, and then it has none. -/

variable {reader next last : DocumentReader} {name? : Option String} {e : SourceError}
  {result : Except SourceError Unit}

theorem goesOn_of_readDefinitions (h : reader.readDefinitions = (result, next)) :
    reader.GoesOn next := by
  have hgoes := goesOn_readDefinitions reader
  rwa [h] at hgoes

theorem goesOn_of_readNamed (h : reader.readNamed name? = (result, next)) :
    reader.GoesOn next := by
  have hgoes := goesOn_readNamed reader name?
  rwa [h] at hgoes

/-- Where the definitions fail, every call does, and they all fail alike. -/
theorem read_of_readDefinitions_error (h : reader.readDefinitions = (.error e, next))
    (name? : Option String) : reader.read name? = (.error e, next) := by
  rw [read, h]

/-- **A call that fails keeps all templates**, and may have added some. Only handing them out takes
them away. -/
theorem goesOn_of_read_error (h : reader.read name? = (.error e, next)) : reader.GoesOn next := by
  obtain ⟨e', next', hdefinitions, hread⟩ | ⟨after, hdefinitions, hnamed⟩ := read_cases reader name?
  · cases hread.symm.trans h
    exact goesOn_of_readDefinitions hdefinitions
  refine (goesOn_of_readDefinitions hdefinitions).trans ?_
  obtain ⟨e', next', hnamed, hread⟩ | ⟨last, hnamed, hread⟩ := hnamed
  · cases hread.symm.trans h
    exact goesOn_of_readNamed hnamed
  obtain ⟨-, hout⟩ | ⟨_, _, _, -, hout⟩ := handOut_cases last
  · cases (hread.trans hout).symm.trans h
  · cases (hread.trans hout).symm.trans h
    exact goesOn_of_readNamed hnamed

/-- **A call that succeeds hands out all templates**, those that were there among them, and has by
then taken all segments. -/
theorem exists_goesOn_of_read_ok {templates : NameMap Node}
    (h : reader.read name? = (.ok templates, next)) :
    ∃ last, reader.GoesOn last ∧ templates = last.templates ∧ last.rest = [] ∧
      next = { last with templates := .empty } := by
  obtain ⟨e', next', -, hread⟩ | ⟨after, hdefinitions, hnamed⟩ := read_cases reader name?
  · cases hread.symm.trans h
  obtain ⟨e', next', -, hread⟩ | ⟨last, hnamed, hread⟩ := hnamed
  · cases hread.symm.trans h
  -- handing out succeeds with no segment left only
  obtain ⟨hrest, hout⟩ | ⟨_, _, _, -, hout⟩ := handOut_cases last
  · cases (hread.trans hout).symm.trans h
    exact ⟨last, (goesOn_of_readDefinitions hdefinitions).trans (goesOn_of_readNamed hnamed), rfl,
      hrest, rfl⟩
  · cases (hread.trans hout).symm.trans h

/-- **With no segment left, a call hands out what is there.** -/
theorem read_of_rest_eq_nil (h : reader.rest = []) (name? : Option String) :
    reader.read name? = (.ok reader.templates, { reader with templates := .empty }) := by
  obtain ⟨src, endLine, rest, templates⟩ := reader
  obtain rfl : rest = [] := h
  rw [read, readDefinitions_after afterDefinitions_nil]
  rfl

/-- Afterwards there is nothing left to hand out. -/
theorem answers_of_spent (hrest : reader.rest = []) (htemplates : reader.templates = .empty)
    (names : List (Option String)) : ∀ answer ∈ reader.answers names, answer = .ok .empty := by
  induction names generalizing reader with
  | nil => exact nofun
  | cons name? names ih =>
    rw [answers, read_of_rest_eq_nil hrest, htemplates]
    exact List.forall_mem_cons.2 ⟨rfl, ih hrest rfl⟩

/-- A call takes segments at the beginning only, whether it succeeds or not. -/
theorem rest_read_suffix (reader : DocumentReader) (name? : Option String) :
    (reader.read name?).2.rest <:+ reader.rest := by
  cases hread : reader.read name? with
  | mk answer next =>
    cases answer with
    | error e => exact (goesOn_of_read_error hread).rest
    | ok templates =>
      obtain ⟨last, hlast, -, -, rfl⟩ := exists_goesOn_of_read_ok hread
      exact hlast.rest

/-- **Calls that fail one after the other keep all templates.** -/
theorem goesOn_afterCalls {names : List (Option String)}
    (h : ∀ answer ∈ reader.answers names, ∃ e, answer = .error e) :
    reader.GoesOn (reader.afterCalls names) := by
  induction names generalizing reader with
  | nil => exact .refl reader
  | cons name? names ih =>
    obtain ⟨⟨e, hfirst⟩, hlater⟩ := List.forall_mem_cons.1 h
    exact (goesOn_of_read_error (Prod.ext hfirst rfl)).trans (ih hlater)

/-! ### Counting segments

That only segments at the front are taken is the same as saying how many are taken, as long as no
segment is ever put back; the count of a reader is the number that it started with less those that
are left. -/

/-- **The reader has taken so many** of the segments, and has all others before it. This is the
cursor of the reader: it never goes back. -/
structure HasTaken (reader : DocumentReader) (segments : List Segment) (count : Nat) : Prop where
  /-- it has taken no more than there are -/
  le : count ≤ segments.length
  /-- the others are before it -/
  rest : reader.rest = segments.drop count

/-- Where only segments at the beginning are taken, the count does not fall. -/
theorem HasTaken.exists_of_suffix {segments : List Segment} {count : Nat}
    (h : reader.HasTaken segments count) (hnext : next.rest <:+ reader.rest) :
    ∃ count', count ≤ count' ∧ next.HasTaken segments count' := by
  obtain ⟨taken, htaken⟩ := hnext
  rw [h.rest] at htaken
  refine ⟨count + taken.length, Nat.le_add_right _ _, ?_, ?_⟩
  · have hlength := congrArg List.length htaken
    rw [List.length_append, List.length_drop] at hlength
    have hle := h.le
    omega
  · rw [← List.drop_drop, ← htaken, List.drop_left]

/-- After any calls there is a count. -/
theorem HasTaken.exists_afterCalls {segments : List Segment} {count : Nat}
    (h : reader.HasTaken segments count) (names : List (Option String)) :
    ∃ count', (reader.afterCalls names).HasTaken segments count' := by
  induction names generalizing reader count with
  | nil => exact ⟨count, h⟩
  | cons name? names ih =>
    obtain ⟨count', -, hnext⟩ := h.exists_of_suffix (rest_read_suffix reader name?)
    exact ih hnext

/-! ### Content that is left over

A call without a name stops behind the definitions. Those are taken for good, so a call that follows
finds no more of them and goes on with the content. -/

/-- Definitions are taken until there is none. -/
theorem afterDefinitions_of_readDefinitions (h : reader.readDefinitions = (.ok (), next)) :
    AfterDefinitions next.rest := by
  obtain ⟨_, _, _, _, -, -, hrest, -, rfl⟩ :=
    exists_definitions_of_readDefinitions reader.templates.holds_entries h
  exact hrest

/-- **Behind its definitions a document is read as from its beginning**, as there is no definition
left to be read again. -/
theorem read_of_definitions (h : reader.readDefinitions = (.ok (), next))
    (name? : Option String) : next.read name? = reader.read name? := by
  have hagain : next.readDefinitions = (.ok (), next) :=
    readDefinitions_after (afterDefinitions_of_readDefinitions h)
  rw [read, read, h, hagain]

/-- **Without a name nothing is read behind the definitions.** A call then fails among them, or
hands out what there is, or fails for what is left. -/
theorem read_none_cases (reader : DocumentReader) :
    (∃ e next, reader.readDefinitions = (.error e, next) ∧ reader.read none = (.error e, next)) ∨
      ∃ after, reader.readDefinitions = (.ok (), after) ∧ reader.read none = after.handOut := by
  obtain hfails | ⟨after, hdefinitions, hcall⟩ := read_cases reader none
  · exact .inl hfails
  obtain ⟨hnamed, -⟩ | ⟨_, _, _, -, ⟨⟩, -⟩ := readNamed_cases after none
  rw [hnamed] at hcall
  obtain ⟨_, _, ⟨⟩, -⟩ | ⟨_, ⟨⟩, hread⟩ := hcall
  exact .inr ⟨after, hdefinitions, hread⟩

/-- Without a name a call comes as far as the content behind the definitions. -/
theorem readDefinitions_of_unparsed (h : reader.read none = (.error e, next))
    (hunparsed : e.isUnparsed = true) : reader.readDefinitions = (.ok (), next) := by
  obtain ⟨_, _, hdefinitions, hread⟩ | ⟨after, hdefinitions, hread⟩ := read_none_cases reader
  · cases hread.symm.trans h
    rw [(stops_of_readDefinitions hdefinitions).isUnparsed_eq_false] at hunparsed
    cases hunparsed
  obtain ⟨-, hout⟩ | ⟨_, _, _, -, hout⟩ := handOut_cases after
  · cases (hread.trans hout).symm.trans h
  · cases (hread.trans hout).symm.trans h
    exact hdefinitions

/-- **Calls one after the other**, from the beginning of any segments. Every call has an answer. The
segments that have been taken never grow fewer, nor more than there are. Whatever a reader does, in
the middle of a call too, a template that is there keeps its tree, and so it does over calls that
fail; a call that succeeds hands all of them out, and then no segment and no template is left, and
later calls hand out nothing. Where a call without a name fails on content that is left over, a
following call with a name does what it does from the beginning. -/
theorem calls_go_on (src : String) (segments : List Segment) (endLine : Nat) :
    (∀ names, ((ofSegments src segments endLine).answers names).length = names.length ∧
      ∃ count, ((ofSegments src segments endLine).afterCalls names).HasTaken segments count ∧
        ∀ name?, ∃ count', count ≤ count' ∧
          (((ofSegments src segments endLine).afterCalls names).read name?).2.HasTaken
            segments count') ∧
    (∀ reader : DocumentReader,
      (∀ name line, reader.GoesOn (reader.readBody name line).2) ∧
      reader.GoesOn reader.takeEnd.2 ∧
      (∀ segment rest line content, reader.rest = segment :: rest →
        reader.GoesOn (reader.readDefinition line content rest).2) ∧
      reader.GoesOn reader.readDefinitions.2 ∧
      (∀ name?, reader.GoesOn (reader.readNamed name?).2) ∧
      (∀ names, (∀ answer ∈ reader.answers names, ∃ e, answer = .error e) →
        reader.GoesOn (reader.afterCalls names)) ∧
      (∀ name? templates next, reader.read name? = (.ok templates, next) →
        (∀ name tree, reader.templates.find? name = some tree →
          templates.find? name = some tree) ∧
        next.rest = [] ∧ next.templates = .empty ∧
        ∀ names, ∀ answer ∈ next.answers names, answer = .ok .empty)) ∧
    (∀ loc content, ((ofSegments src segments endLine).read none).1
        = .error (.malformed loc (.unparsedContent content)) →
      ∀ name, ((ofSegments src segments endLine).read none).2.read (some name)
        = (ofSegments src segments endLine).read (some name)) := by
  have hfresh : (ofSegments src segments endLine).HasTaken segments 0 :=
    ⟨Nat.zero_le _, List.drop_zero.symm⟩
  refine ⟨fun names => ⟨length_answers _ names, ?_⟩, fun reader => ?_,
    fun loc content hunparsed name => ?_⟩
  · obtain ⟨count, hcount⟩ := hfresh.exists_afterCalls names
    exact ⟨count, hcount, fun name? => hcount.exists_of_suffix (rest_read_suffix _ name?)⟩
  -- each part of the reader, then calls that fail, then a call that succeeds
  · refine ⟨goesOn_readBody reader, goesOn_takeEnd reader,
      fun segment rest line content hrest => goesOn_readDefinition hrest line content,
      goesOn_readDefinitions reader, goesOn_readNamed reader, fun names => goesOn_afterCalls,
      fun name? templates next hread => ?_⟩
    obtain ⟨last, hlast, rfl, hrest, rfl⟩ := exists_goesOn_of_read_ok hread
    exact ⟨hlast.templates, hrest, rfl, answers_of_spent hrest rfl⟩
  · exact read_of_definitions
      (readDefinitions_of_unparsed (Prod.ext hunparsed rfl) rfl) (some name)

/-- A text is left over by a call without a name, and read by a call with one; then nothing is
left. -/
theorem greeting_is_read_after_failure :
    let reader := ofSegments "m" [⟨.text, "Hi".toList, 1⟩] 1
    reader.GoesOn (reader.afterCalls [none]) ∧
      reader.GoesOn (reader.readDefinition 1 " 'a'".toList []).2 ∧
      (reader.read none).2.read (some "m") = reader.read (some "m") ∧
      ∃ templates next, reader.read (some "m") = (.ok templates, next) ∧
        templates.entries = [("m", .text ⟨"m", 1⟩ "Hi")] ∧
        ∀ answer ∈ next.answers [none, some "m"], answer = .ok .empty := by
  intro reader
  have hfails : (reader.read none).1
      = .error (.malformed ⟨"m", 1⟩ (.unparsedContent "Hi")) := by cbv
  have hreads : (reader.read (some "m")).1.toOption.map (·.entries)
      = some [("m", .text ⟨"m", 1⟩ "Hi")] := by decide +kernel
  obtain ⟨-, hall, hresumed⟩ := calls_go_on "m" [⟨.text, "Hi".toList, 1⟩] 1
  obtain ⟨-, -, hdefinition, -, -, hcalls, hdone⟩ := hall reader
  refine ⟨hcalls [none] (List.forall_mem_singleton.2 ⟨_, hfails⟩), hdefinition _ [] 1 _ rfl,
    hresumed _ _ hfails "m", ?_⟩
  cases hread : reader.read (some "m") with
  | mk answer next =>
    rw [hread] at hreads
    cases answer with
    | error e => cases hreads
    | ok templates =>
      exact ⟨templates, next, rfl, Option.some.inj hreads,
        (hdone _ templates next hread).2.2.2 [none, some "m"]⟩

end Stencil.DocumentReader
