import Stencil.Proofs.Expr.Faults
import Stencil.Proofs.Expr.Language
import Stencil.Proofs.Segment.Directive

/-!
# Literals for two scanners

The search for the end of a directive and the cutting into lexemes both have to know where literals
are. They go by the same texts: a text has lexemes if and only if it is characters and whole
literals in a row (`outside_iff_exists_lexemesFrom`), which is what the inside of a complete
directive is. The literals among the lexemes are then whole, so no backslash in them is without a
character (`decode_ne_danglingBackslash`). What is left of such a text behind some of its lexemes,
or behind a word at its beginning, is such a text again.
-/

namespace Stencil

open Text.Literal (isQuote Flaw)

/-! ### Whole literals

`LiteralBody` and `Text.Literal.span` say the same thing twice: what may stand in a literal, and
what the scanner goes over. The rest of the module is about texts that are put together from such
literals, and no longer about the scanner. -/

theorem ne_backslash_of_isQuote {q : Char} (h : isQuote q = true) : q ≠ '\\' := by
  rintro rfl
  cases h

/-- The search for the closing quote goes over what may stand in a literal, and stops behind it. -/
theorem LiteralBody.span_eq {q : Char} {body : List Char} (h : LiteralBody q body)
    (hq : isQuote q = true) (cs : List Char) :
    Text.Literal.span q (body ++ q :: cs) = some (body ++ [q], cs) := by
  induction h with
  | nil =>
    rw [List.nil_append, Text.Literal.span_cons_of_ne (ne_backslash_of_isQuote hq), if_pos rfl]
    rfl
  | plain hbackslash hne _ ih =>
    rw [List.cons_append, Text.Literal.span_cons hbackslash hne, ih]
    rfl
  | escaped c _ ih =>
    rw [List.cons_append, List.cons_append, Text.Literal.span, ih]
    rfl

/-- What the search for the closing quote goes over may stand in a literal. -/
theorem exists_literalBody_of_span {q : Char} {cs literal rest : List Char}
    (h : Text.Literal.span q cs = some (literal, rest)) :
    ∃ body, LiteralBody q body ∧ literal = body ++ [q] := by
  fun_induction Text.Literal.span q cs generalizing literal rest with
  | case1 => cases h
  | case2 => cases h
  | case3 c cs ih =>
    simp only [Option.map_eq_some_iff, Prod.mk.injEq] at h
    obtain ⟨⟨l, r⟩, hs, rfl, rfl⟩ := h
    obtain ⟨body, hbody, rfl⟩ := ih hs
    exact ⟨_, .escaped c hbody, rfl⟩
  | case4 cs =>
    cases h
    exact ⟨[], .nil, rfl⟩
  -- a plain character; were it a backslash, one of the cases above would have applied
  | case5 c cs hlast hescape hne ih =>
    simp only [Option.map_eq_some_iff, Prod.mk.injEq] at h
    obtain ⟨⟨l, r⟩, hs, rfl, rfl⟩ := h
    obtain ⟨body, hbody, rfl⟩ := ih hs
    have hc : c ≠ '\\' := by
      rintro rfl
      cases cs with
      | nil => exact hlast rfl rfl
      | cons d ds => exact hescape d ds rfl rfl
    exact ⟨_, .plain hc hne hbody, rfl⟩

/-- What a backslash takes along may be followed by the rest of a literal only. -/
theorem LiteralBody.of_escaped {q c : Char} {cs : List Char} (h : LiteralBody q ('\\' :: c :: cs)) :
    LiteralBody q cs := by
  cases h with
  | plain hne => exact absurd rfl hne
  | escaped _ h => exact h

/-- No literal ends behind a backslash. -/
theorem not_literalBody_backslash (q : Char) : ¬ LiteralBody q ['\\'] := by
  intro h
  cases h with
  | plain hne => exact hne rfl

/-- So may any other character. -/
theorem LiteralBody.of_plain {q c : Char} {cs : List Char} (hc : c ≠ '\\')
    (h : LiteralBody q (c :: cs)) : LiteralBody q cs := by
  cases h with
  | plain _ _ h => exact h
  | escaped => exact absurd rfl hc

/-- Hexadecimal digits are no backslashes. -/
theorem ne_backslash_of_hexValue? {c : Char} {n : Nat} (h : Text.Literal.hexValue? c = some n) :
    c ≠ '\\' := by
  rintro rfl
  cases h

/-- **Every backslash in a whole literal has a character to take along**, as the search for its end
went by the same rule. -/
theorem LiteralBody.decode_ne {q : Char} {body : List Char} (h : LiteralBody q body) :
    Text.Literal.decode body ≠ .error .danglingBackslash := by
  -- an error further on is the error of the whole
  have map_ne {f : List Char → List Char} {result : Except Flaw (List Char)}
      (hresult : result ≠ .error .danglingBackslash) :
      result.map f ≠ .error .danglingBackslash := by
    cases result with
    | error flaw => exact hresult
    | ok cs => nofun
  -- along the decoder, which takes several characters at once where a backslash is
  fun_induction Text.Literal.decode body with
  | case1 => nofun
  | case2 high low cs a b hlow hhigh ih =>
    -- the two digits are plain characters of the literal
    have hdigits := h.of_escaped.of_plain (ne_backslash_of_hexValue? hhigh)
    exact map_ne (ih (hdigits.of_plain (ne_backslash_of_hexValue? hlow)))
  | case3 => nofun
  | case4 => nofun
  | case5 => exact absurd h (not_literalBody_backslash q)
  | case6 c cs _ _ d _ ih => exact map_ne (ih h.of_escaped)
  | case7 => nofun
  | case8 c cs _ _ hlast hescape ih =>
    have hc : c ≠ '\\' := by
      rintro rfl
      cases cs with
      | nil => exact hlast rfl rfl
      | cons d ds => exact hescape d ds rfl rfl
    exact map_ne (ih (h.of_plain hc))

/-! ### Characters and whole literals in a row

`Outside` is built from the front, one character or one literal at a time, and a lexeme is one
literal or some characters. So it can be followed through the lexer: the first lexeme can be taken
off such a text and put back. -/

/-- A character that is no quote may be put before such a text, and taken away. -/
theorem outside_cons_iff {c : Char} {cs : List Char} (h : isQuote c = false) :
    Outside (c :: cs) ↔ Outside cs := by
  refine ⟨fun hout => ?_, .plain h⟩
  generalize hds : c :: cs = ds at hout
  cases hout with
  | nil => cases hds
  | plain _ hout =>
    cases hds
    exact hout
  | literal hquote =>
    cases hds
    simp [h] at hquote

/-- So may any number of them. -/
theorem outside_append_iff {cs ds : List Char} (h : ∀ c ∈ cs, isQuote c = false) :
    Outside (cs ++ ds) ↔ Outside ds := by
  induction cs with
  | nil => rfl
  | cons c cs ih =>
    obtain ⟨hc, hcs⟩ := List.forall_mem_cons.1 h
    rw [List.cons_append, outside_cons_iff hc, ih hcs]

/-- A whole literal may be put before such a text, and taken away. -/
theorem outside_literal_iff {q : Char} {body cs : List Char} (hq : isQuote q = true)
    (hbody : LiteralBody q body) : Outside (q :: (body ++ q :: cs)) ↔ Outside cs := by
  refine ⟨fun hout => ?_, .literal hq hbody⟩
  generalize hds : q :: (body ++ q :: cs) = ds at hout
  cases hout with
  | nil => cases hds
  | plain hquote =>
    cases hds
    simp [hq] at hquote
  | literal hq' hbody' hout =>
    obtain ⟨rfl, htail⟩ := List.cons.inj hds
    -- the closing quote is in one place only
    have hspan := hbody.span_eq hq cs
    rw [htail, hbody'.span_eq hq] at hspan
    obtain ⟨-, rfl⟩ := Prod.mk.inj (Option.some.inj hspan)
    exact hout

/-- Spacing is no quote. -/
theorem isQuote_eq_false_of_isSpacing {c : Char} (h : Text.isSpacing c = true) :
    isQuote c = false := by
  simp only [Text.isSpacing, Bool.or_eq_true, beq_iff_eq] at h
  rcases h with ((rfl | rfl) | rfl) | rfl <;> rfl

/-- The characters of words are no quotes. -/
theorem isQuote_eq_false_of_isWordChar {c : Char} (h : isWordChar c = true) :
    isQuote c = false := by
  simp only [isWordChar, Bool.not_eq_true', Bool.or_eq_false_iff] at h
  exact h.1.1.1.1.2

/-- Where the first lexeme of a text is cut off, what is left is such a text if the whole is. -/
theorem outside_iff_of_firstLexeme? {c : Char} {cs text rest : List Char} {kind : LexemeKind}
    (h : firstLexeme? c cs = some (kind, text, rest)) : Outside (c :: cs) ↔ Outside rest := by
  -- a run of a class without quotes
  have run {p : Char → Bool} (hp : ∀ d, p d = true → isQuote d = false) (hc : isQuote c = false) :
      Outside (c :: cs) ↔ Outside (cs.dropWhile p) := by
    have htake : ∀ d ∈ cs.takeWhile p, isQuote d = false := fun d hd =>
      hp d (List.all_eq_true.1 List.all_takeWhile d hd)
    calc Outside (c :: cs)
      _ ↔ Outside (cs.takeWhile p ++ cs.dropWhile p) := by
        rw [outside_cons_iff hc, List.takeWhile_append_dropWhile]
      _ ↔ Outside (cs.dropWhile p) := outside_append_iff htake
  rcases char_cases c with hspace | hquote | (rfl | rfl | rfl | rfl) | hword
  · rw [firstLexeme?_spacing hspace] at h
    cases h
    exact run (fun _ => isQuote_eq_false_of_isSpacing) (isQuote_eq_false_of_isSpacing hspace)
  · rw [firstLexeme?_quote hquote] at h
    obtain ⟨⟨literal, ds⟩, hspan, hsome⟩ := Option.map_eq_some_iff.1 h
    cases hsome
    obtain ⟨body, hbody, rfl⟩ := exists_literalBody_of_span hspan
    have hcs : body ++ c :: rest = cs := by
      simpa using Text.Literal.append_of_span hspan
    rw [← hcs, outside_literal_iff hquote hbody]
  · cases h
    exact outside_cons_iff rfl
  · cases h
    exact outside_cons_iff rfl
  · cases h
    exact outside_cons_iff rfl
  · cases h
    exact outside_cons_iff rfl
  · rw [firstLexeme?_word hword] at h
    cases h
    exact run (fun _ => isQuote_eq_false_of_isWordChar) (isQuote_eq_false_of_isWordChar hword)

/-- Such a text has a first lexeme. -/
theorem Outside.firstLexeme?_ne_none {c : Char} {cs : List Char} (h : Outside (c :: cs)) :
    firstLexeme? c cs ≠ none := by
  rcases char_cases c with hspace | hquote | (rfl | rfl | rfl | rfl) | hword
  · rw [firstLexeme?_spacing hspace]
    nofun
  · rw [firstLexeme?_quote hquote]
    cases h with
    | plain hnot => simp [hquote] at hnot
    | literal _ hbody =>
      rw [hbody.span_eq hquote]
      nofun
  · nofun
  · nofun
  · nofun
  · nofun
  · rw [firstLexeme?_word hword]
    nofun

/-- **A text has lexemes if and only if it is characters and whole literals in a row.** The splitter
cuts by the same notion, and so the two never disagree. -/
theorem outside_iff_exists_lexemesFrom (offset : Nat) (cs : List Char) :
    Outside cs ↔ ∃ row, lexemesFrom offset cs = .ok row := by
  -- on the length of the text: behind the first lexeme less of it is left
  induction hn : cs.length using Nat.strongRecOn generalizing offset cs with
  | ind n ih =>
    subst hn
    cases cs with
    | nil =>
      rw [lexemesFrom]
      exact ⟨fun _ => ⟨[], rfl⟩, fun _ => .nil⟩
    | cons c cs =>
      cases hfirst : firstLexeme? c cs with
      | none =>
        rw [lexemesFrom_cons_of_none hfirst]
        refine ⟨fun h => absurd hfirst h.firstLexeme?_ne_none, ?_⟩
        rintro ⟨row, hrow⟩
        cases hrow
      | some first =>
        obtain ⟨kind, text, rest⟩ := first
        rw [lexemesFrom_cons hfirst, outside_iff_of_firstLexeme? hfirst,
          ih rest.length (Nat.lt_succ_of_le (length_le_of_firstLexeme? hfirst))
            (offset + byteLength text) rest rfl]
        cases lexemesFrom (offset + byteLength text) rest <;> simp [Except.map]

/-! ### The literals among the lexemes -/

/-- A first lexeme that is a literal is a whole one. -/
theorem exists_literalBody_of_firstLexeme? {c : Char} {cs text rest : List Char}
    (h : firstLexeme? c cs = some (.quoted, text, rest)) :
    ∃ body, isQuote c = true ∧ LiteralBody c body ∧ text = c :: (body ++ [c]) := by
  rcases char_cases c with hspace | hquote | (rfl | rfl | rfl | rfl) | hword
  · rw [firstLexeme?_spacing hspace] at h
    cases h
  · rw [firstLexeme?_quote hquote] at h
    obtain ⟨⟨literal, ds⟩, hspan, hsome⟩ := Option.map_eq_some_iff.1 h
    cases hsome
    obtain ⟨body, hbody, rfl⟩ := exists_literalBody_of_span hspan
    exact ⟨body, hquote, hbody, rfl⟩
  · cases h
  · cases h
  · cases h
  · cases h
  · rw [firstLexeme?_word hword] at h
    cases h

/-- **The literals among the lexemes of a text are whole**: opened and closed by one kind of quote,
with a body between. -/
theorem exists_literalBody_of_mem {offset : Nat} {cs : List Char} {row : List Lexeme}
    {lexeme : Lexeme} (h : lexemesFrom offset cs = .ok row) (hmem : lexeme ∈ row)
    (hkind : lexeme.kind = .quoted) :
    ∃ q body, isQuote q = true ∧ LiteralBody q body ∧ lexeme.text = q :: (body ++ [q]) := by
  induction row generalizing offset cs with
  | nil => cases hmem
  | cons first row ih =>
    obtain ⟨c, ds, rest, rfl, hfirst, hrest⟩ := exists_firstLexeme?_eq h
    rcases List.mem_cons.1 hmem with rfl | hmem
    · rw [hkind] at hfirst
      exact ⟨c, exists_literalBody_of_firstLexeme? hfirst⟩
    · exact ih hrest hmem

/-- **No literal among the lexemes of a text ends in a backslash** that takes nothing along. -/
theorem decode_ne_danglingBackslash {offset : Nat} {cs : List Char} {row : List Lexeme}
    {lexeme : Lexeme} (h : lexemesFrom offset cs = .ok row) (hmem : lexeme ∈ row)
    (hkind : lexeme.kind = .quoted) :
    Text.Literal.decode (Text.Literal.body lexeme.text) ≠ .error .danglingBackslash := by
  obtain ⟨q, body, -, hbody, htext⟩ := exists_literalBody_of_mem h hmem hkind
  have hinside : Text.Literal.body lexeme.text = body := by
    simp [Text.Literal.body, htext]
  rw [hinside]
  exact hbody.decode_ne

/-! ### The parts of a directive

Of the interior of a directive different texts are cut into lexemes, according to what it announces
and what has been read of it. All of them are cut off at a place between lexemes, or behind a word
without quotes. -/

/-- **The texts in a directive that are cut into lexemes**: its interior, what a word of the table
leaves of that, and what the reading of an expression at its beginning leaves of either. -/
inductive IsPart (interior : List Char) : List Char → Prop
  /-- all of it -/
  | whole : IsPart interior interior
  /-- what follows the word that it begins with -/
  | afterWord {entry : String × (List Char → Heading)} {rest : List Char} :
    entry ∈ headings → afterWord? entry.1 interior = some rest → IsPart interior rest
  /-- what follows an expression -/
  | remainder {part : List Char} {src : String} {line : Nat} {reading : Expr.Reading} :
    IsPart interior part → Expr.readFirst src part line = .ok reading →
    IsPart interior reading.remainder

/-- Words are without quotes. -/
theorem isQuote_eq_false_of_mem_headings {entry : String × (List Char → Heading)}
    (h : entry ∈ headings) : ∀ c ∈ entry.1.toList, isQuote c = false := by
  have hwords : ∀ entry ∈ headings, entry.1.toList.all (!isQuote ·) = true := by
    simp [headings, isQuote]
  simpa using hwords entry h

/-- **All parts of a directive are characters and whole literals in a row**, as its interior is. A
part is cut off behind a word or behind an expression, never inside a literal. -/
theorem IsPart.outside {interior part : List Char} (hpart : IsPart interior part)
    (h : Outside interior) : Outside part := by
  induction hpart with
  | whole => exact h
  | afterWord hentry hafter =>
    rw [← append_of_afterWord? hafter] at h
    exact (outside_append_iff (isQuote_eq_false_of_mem_headings hentry)).1 h
  | remainder _ hreading _ =>
    obtain ⟨_, taken, hrow, -⟩ := Expr.exists_derivation_of_readFirst hreading
    obtain ⟨offset, hrest⟩ := exists_lexemesFrom_of_append hrow
    exact (outside_iff_exists_lexemesFrom offset _).2 ⟨_, hrest⟩

/-- The interior of a complete directive is characters and whole literals in a row. -/
theorem IsDirective.outside_interior {segment : Segment} (h : IsDirective segment.text)
    (hkind : segment.kind = .directive) : Outside segment.interior := by
  obtain ⟨kind, text, line⟩ := segment
  obtain rfl : kind = .directive := hkind
  obtain ⟨inner, hinner, rfl⟩ := h
  have hinterior : (Segment.mk .directive (Node.directive inner) line).interior = inner := by
    simpa [Node.directive] using Segment.interior_directive inner line
  rwa [hinterior]

/-! ### Faults of expressions

Two faults of the reader are about literals that do not end. Each is raised for a lexeme, or for a
text without lexemes, so neither is possible where the text has lexemes and the literals among them
are whole. -/

/-- The faults of literals that do not end. -/
def Fault.isOpenLiteral : Fault → Bool
  | .unterminatedLiteral _ | .danglingBackslash _ => true
  | _ => false

namespace Expr

variable {src : String} {text : List Char} {line : Nat}

/-- A literal that a backslash leaves open. -/
def Dangles (lexeme : Lexeme) : Prop :=
  lexeme.kind = .quoted ∧
    Text.Literal.decode (Text.Literal.body lexeme.text) = .error .danglingBackslash

/-- An operand has such a fault only if it is such a literal. -/
theorem dangles_of_beginOperand {lexeme : Lexeme} {fault : Fault}
    (h : beginOperand src text line lexeme = .error fault) (hopen : fault.isOpenLiteral = true) :
    Dangles lexeme := by
  unfold beginOperand at h
  split at h
  · split at h <;> cases h
    cases hopen
  · split at h <;> cases h
    cases hopen
  · next hkind =>
    split at h
    · cases h
    · next flaw hdecode =>
      cases h
      cases flaw with
      | unknownEscape => cases hopen
      | danglingBackslash => exact ⟨hkind, hdecode⟩
  · cases h
    cases hopen

/-- So does any step of the reader. -/
theorem dangles_of_step {expecting : Expecting} {calls : List OpenCall} {lexeme : Lexeme}
    {fault : Fault} (h : step src text expecting calls line lexeme = .error fault)
    (hopen : fault.isOpenLiteral = true) : Dangles lexeme := by
  rcases fault_of_step h with hbegin | ⟨found, rfl⟩ | ⟨paren, found, rfl⟩
  · exact dangles_of_beginOperand hbegin hopen
  -- all other faults are about parentheses and names
  · cases hopen
  · cases hopen

/-- The end of the lexemes leaves no literal open. -/
theorem isOpenLiteral_of_finish {calls : List OpenCall} {expecting : Expecting} {fault : Fault}
    (h : finish text calls expecting = .error fault) : fault.isOpenLiteral = false := by
  unfold finish at h
  split at h
  iterate 4
    · cases h
      rfl
  · split at h <;> cases h
    rfl

/-- **A reading has such a fault only if such a literal is among its lexemes.** The fault then is
the literal's own. -/
theorem exists_dangles_of_run {row : List Lexeme} {expecting : Expecting} {calls : List OpenCall}
    {e : SourceError} (h : run src text expecting calls line row = .error e) :
    ∃ loc fault, e = .malformed loc fault ∧
      (fault.isOpenLiteral = true → ∃ lexeme ∈ row, Dangles lexeme) := by
  obtain ⟨loc, fault, rfl, ⟨_, _, hfinish⟩ | ⟨lexeme, hmem, _, _, _, hstep⟩⟩ :=
    exists_fault_of_run h
  · refine ⟨loc, fault, rfl, fun hopen => ?_⟩
    rw [isOpenLiteral_of_finish hfinish] at hopen
    cases hopen
  · exact ⟨loc, fault, rfl, fun hopen => ⟨lexeme, hmem, dangles_of_step hstep hopen⟩⟩

/-- **An error of the reader that leaves no literal open.** It may be about a literal, for an escape
that means nothing. -/
def ClosesLiterals (e : SourceError) : Prop :=
  ∃ loc fault, e = .malformed loc fault ∧ fault.isOpenLiteral = false

/-- So fails the reading of an expression at the beginning of characters and whole literals. -/
theorem closesLiterals_of_readFirst {e : SourceError} (hout : Outside text)
    (h : readFirst src text line = .error e) : ClosesLiterals e := by
  obtain ⟨row, hrow⟩ := (outside_iff_exists_lexemesFrom 0 text).1 hout
  rw [readFirst, lexemes, hrow] at h
  obtain ⟨loc, fault, rfl, hdangles⟩ := exists_dangles_of_run h
  refine ⟨loc, fault, rfl, Bool.eq_false_iff.2 fun hopen => ?_⟩
  -- the literal to blame would end in a backslash, and none among the lexemes does
  obtain ⟨lexeme, hmem, hkind, hdecode⟩ := hdangles hopen
  exact decode_ne_danglingBackslash hrow hmem hkind hdecode

/-- So fails their reading as one expression. -/
theorem closesLiterals_of_read {e : SourceError} (hout : Outside text)
    (h : read src text line = .error e) : ClosesLiterals e := by
  unfold read at h
  split at h
  · next hfirst =>
    cases h
    exact closesLiterals_of_readFirst hout hfirst
  · split at h <;> cases h
    exact ⟨_, _, rfl, rfl⟩

/-- So fails their reading as an inclusion. -/
theorem closesLiterals_of_readInclusion {e : SourceError} (hout : Outside text)
    (h : readInclusion src text line = .error e) : ClosesLiterals e := by
  unfold readInclusion at h
  split at h
  · next hfirst =>
    cases h
    exact closesLiterals_of_readFirst hout hfirst
  · next reading hreading =>
    have hremainder : Outside reading.remainder :=
      (IsPart.remainder .whole hreading).outside hout
    dsimp only at h
    split at h
    · cases h
    · cases hread : read src reading.remainder
          (line + Text.newlines (upTo text reading.remainder)) with
      | ok data =>
        rw [hread] at h
        cases h
      | error other =>
        rw [hread] at h
        cases h
        exact closesLiterals_of_read hremainder hread

end Expr

end Stencil
