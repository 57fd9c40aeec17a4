import Stencil.Proofs.Bytes.Encoding
import Stencil.Proofs.Expr.Literals

/-!
# Cutting into lexemes is exact

How a text falls into lexemes, said without a lexer (`CutsInto`): whole literals, delimiters, and
runs of spacing and of word characters that are as long as they can be, with nothing lost between
them, each behind as many bytes as stand before it. A text falls into lexemes in no other way than
the lexer's, and what is left of it at any lexeme falls into those that are left. A text does not
fall into lexemes if and only if there is a quote outside its literals that no quote closes, and
then the lexer hands out the text from there (`lexemes_are_exact`).
-/

namespace Stencil

open Text.Literal (isQuote)

/-! ### One lexeme

A lexeme is of a kind that its text admits, and a run goes as far as it can. That determines it: the
first character tells the kind, and the kind tells the end. -/

/-- **The characters of the runs of a kind.** Other kinds have no runs: a delimiter is one
character, and a literal ends by its quote. -/
def LexemeKind.runs : LexemeKind → Char → Bool
  | .word, c => isWordChar c
  | .space, c => Text.isSpacing c
  | _, _ => false

/-- **The texts of a kind.** For words and spacing the text has to be a whole run besides, which
depends on what comes behind it. -/
def LexemeKind.Admits : LexemeKind → List Char → Prop
  | .word, text => ∀ c ∈ text, isWordChar c = true
  | .space, text => ∀ c ∈ text, Text.isSpacing c = true
  | .openParen, text => text = ['(']
  | .closeParen, text => text = [')']
  | .pipe, text => text = ['|']
  | .comma, text => text = [',']
  | .quoted, text => ∃ q body, isQuote q = true ∧ LiteralBody q body ∧ text = q :: (body ++ [q])

/-- **The first lexeme of a text**: it is of its kind, and if it is a run, it ends as late as it
can. -/
theorem firstLexeme?_eq_some_iff {c : Char} {cs text rest : List Char} {kind : LexemeKind} :
    firstLexeme? c cs = some (kind, text, rest) ↔
      text ++ rest = c :: cs ∧ text ≠ [] ∧ kind.Admits text ∧
        ∀ d ∈ rest.head?, kind.runs d = false := by
  constructor
  · intro h
    refine ⟨append_of_firstLexeme? h, ?_⟩
    rcases char_cases c with hspace | hquote | (rfl | rfl | rfl | rfl) | hword
    · rw [firstLexeme?_spacing hspace] at h
      cases h
      have hall := List.all_eq_true.1 (List.all_takeWhile (p := Text.isSpacing) (l := cs))
      exact ⟨List.cons_ne_nil _ _, List.forall_mem_cons.2 ⟨hspace, hall⟩,
        fun d => eq_false_of_mem_head?_dropWhile⟩
    · rw [firstLexeme?_quote hquote] at h
      obtain ⟨⟨literal, ds⟩, hspan, hsome⟩ := Option.map_eq_some_iff.1 h
      cases hsome
      obtain ⟨body, hbody, rfl⟩ := exists_literalBody_of_span hspan
      exact ⟨List.cons_ne_nil _ _, ⟨c, body, hquote, hbody, rfl⟩, fun _ _ => rfl⟩
    · cases h
      exact ⟨List.cons_ne_nil _ _, rfl, fun _ _ => rfl⟩
    · cases h
      exact ⟨List.cons_ne_nil _ _, rfl, fun _ _ => rfl⟩
    · cases h
      exact ⟨List.cons_ne_nil _ _, rfl, fun _ _ => rfl⟩
    · cases h
      exact ⟨List.cons_ne_nil _ _, rfl, fun _ _ => rfl⟩
    · rw [firstLexeme?_word hword] at h
      cases h
      have hall := List.all_eq_true.1 (List.all_takeWhile (p := isWordChar) (l := cs))
      exact ⟨List.cons_ne_nil _ _, List.forall_mem_cons.2 ⟨hword, hall⟩,
        fun d => eq_false_of_mem_head?_dropWhile⟩
  · rintro ⟨happend, hne, hadmits, hrest⟩
    obtain ⟨first, tail, rfl⟩ := List.exists_cons_of_ne_nil hne
    rw [List.cons_append] at happend
    obtain ⟨rfl, rfl⟩ := List.cons.inj happend
    -- the kind tells how the first character goes on, and that is where the text ends
    cases kind with
    | word =>
      obtain ⟨hfirst, htail⟩ := List.forall_mem_cons.1 hadmits
      obtain ⟨htake, hdrop⟩ := takeWhile_dropWhile_run htail hrest
      rw [firstLexeme?_word hfirst, htake, hdrop]
    | space =>
      obtain ⟨hfirst, htail⟩ := List.forall_mem_cons.1 hadmits
      obtain ⟨htake, hdrop⟩ := takeWhile_dropWhile_run htail hrest
      rw [firstLexeme?_spacing hfirst, htake, hdrop]
    | quoted =>
      obtain ⟨q, body, hquote, hbody, htext⟩ := hadmits
      obtain ⟨rfl, rfl⟩ := List.cons.inj htext
      rw [firstLexeme?_quote hquote, List.append_assoc, List.singleton_append,
        hbody.span_eq hquote]
      rfl
    | openParen | closeParen | pipe | comma =>
      obtain ⟨rfl, rfl⟩ := List.cons.inj hadmits
      rfl

/-- **There is no first lexeme** if and only if a literal begins and no quote closes it. No other
character is refused. -/
theorem firstLexeme?_eq_none_iff {c : Char} {cs : List Char} :
    firstLexeme? c cs = none ↔
      isQuote c = true ∧ ∀ body rest, LiteralBody c body → cs ≠ body ++ c :: rest := by
  constructor
  · intro h
    rcases char_cases c with hspace | hquote | (rfl | rfl | rfl | rfl) | hword
    · rw [firstLexeme?_spacing hspace] at h
      cases h
    · refine ⟨hquote, ?_⟩
      rintro body rest hbody rfl
      rw [firstLexeme?_quote hquote, hbody.span_eq hquote] at h
      cases h
    · cases h
    · cases h
    · cases h
    · cases h
    · rw [firstLexeme?_word hword] at h
      cases h
  · rintro ⟨hquote, hnever⟩
    rw [firstLexeme?_quote hquote, Option.map_eq_none_iff, Option.eq_none_iff_forall_ne_some]
    rintro ⟨literal, rest⟩ hspan
    obtain ⟨body, hbody, rfl⟩ := exists_literalBody_of_span hspan
    refine hnever body rest hbody ?_
    rw [← Text.Literal.append_of_span hspan, List.append_assoc, List.singleton_append]

/-! ### All lexemes

As with segments, a row of lexemes is built and taken apart at its front, by `CutsInto.cons` and
`CutsInto.tail`. That no run follows a run of its kind is the same as saying that each ends as late
as it can, since what follows begins with a character of another kind. -/

/-- **A text that some bytes stand before falls into lexemes.** It says what the lexemes have to be,
with no word of how they are found. -/
structure CutsInto (start : Nat) (cs : List Char) (row : List Lexeme) : Prop where
  /-- nothing is lost -/
  text_eq : lexemesText row = cs
  /-- no lexeme is empty -/
  ne_nil : ∀ lexeme ∈ row, lexeme.text ≠ []
  /-- every lexeme is of its kind -/
  admits : ∀ lexeme ∈ row, lexeme.kind.Admits lexeme.text
  /-- no word follows a word, and no spacing follows spacing -/
  apart : ∀ before lexeme next after, row = before ++ lexeme :: next :: after →
    lexeme.kind = .word ∨ lexeme.kind = .space → next.kind ≠ lexeme.kind
  /-- a lexeme is behind the bytes of the lexemes before it -/
  offset_eq : ∀ before lexeme after, row = before ++ lexeme :: after →
    lexeme.offset = start + byteLength (lexemesText before)

/-- Only words and spacing are runs. -/
theorem LexemeKind.eq_word_or_space_of_runs {kind : LexemeKind} {c : Char}
    (h : kind.runs c = true) : kind = .word ∨ kind = .space := by
  cases kind with
  | word => exact .inl rfl
  | space => exact .inr rfl
  | _ => cases h

/-- A run begins with a character of the run. -/
theorem LexemeKind.Admits.runs_head {kind : LexemeKind} {c : Char} {cs : List Char}
    (h : kind.Admits (c :: cs)) (hkind : kind = .word ∨ kind = .space) : kind.runs c = true := by
  rcases hkind with rfl | rfl
  · exact h c List.mem_cons_self
  · exact h c List.mem_cons_self

/-- A character of a run begins no lexeme of another kind. -/
theorem LexemeKind.Admits.eq_of_runs {kind run : LexemeKind} {c : Char} {cs : List Char}
    (h : kind.Admits (c :: cs)) (hc : run.runs c = true) : kind = run := by
  have hfirst : firstLexeme? c cs = some (kind, c :: cs, []) :=
    firstLexeme?_eq_some_iff.2 ⟨List.append_nil _, List.cons_ne_nil _ _, h, nofun⟩
  rcases LexemeKind.eq_word_or_space_of_runs hc with rfl | rfl
  · rw [firstLexeme?_word hc] at hfirst
    exact (congrArg Prod.fst (Option.some.inj hfirst)).symm
  · rw [firstLexeme?_spacing hc] at hfirst
    exact (congrArg Prod.fst (Option.some.inj hfirst)).symm

namespace CutsInto

variable {start : Nat} {cs text rest : List Char} {kind : LexemeKind} {lexeme : Lexeme}
  {row : List Lexeme}

/-- Nothing falls into no lexemes. -/
theorem nil (start : Nat) : CutsInto start [] [] where
  text_eq := rfl
  ne_nil := nofun
  admits := nofun
  apart := by simp
  offset_eq := by simp

/-- One more lexeme in front. -/
theorem cons (h : CutsInto (start + byteLength text) rest row) (hne : text ≠ [])
    (hadmits : kind.Admits text) (hrest : ∀ d ∈ rest.head?, kind.runs d = false) :
    CutsInto start (text ++ rest) (⟨kind, text, start⟩ :: row) where
  text_eq := by rw [lexemesText_cons, h.text_eq]
  ne_nil := List.forall_mem_cons.2 ⟨hne, h.ne_nil⟩
  admits := List.forall_mem_cons.2 ⟨hadmits, h.admits⟩
  apart := by
    rintro (- | ⟨first, before⟩) lexeme next after heq hrun hkind
    · obtain ⟨rfl, rfl⟩ := List.cons.inj heq
      -- the next lexeme would go on with the run
      obtain ⟨d, tail, htext⟩ := List.exists_cons_of_ne_nil (h.ne_nil next List.mem_cons_self)
      have hnext := h.admits next List.mem_cons_self
      have hd := hrest d (by rw [← h.text_eq, lexemesText_cons, htext]; rfl)
      rw [htext, hkind] at hnext
      rw [hnext.runs_head hrun] at hd
      cases hd
    · obtain ⟨-, rfl⟩ := List.cons.inj heq
      exact h.apart before lexeme next after rfl hrun hkind
  offset_eq := by
    rintro (- | ⟨first, before⟩) lexeme after heq
    · obtain ⟨rfl, -⟩ := List.cons.inj heq
      rfl
    · obtain ⟨rfl, rfl⟩ := List.cons.inj heq
      rw [h.offset_eq before lexeme after rfl, lexemesText_cons, byteLength_append, Nat.add_assoc]

/-- What is behind the first lexeme falls into the others. -/
theorem tail (h : CutsInto start cs (lexeme :: row)) :
    CutsInto (start + byteLength lexeme.text) (lexemesText row) row where
  text_eq := rfl
  ne_nil := (List.forall_mem_cons.1 h.ne_nil).2
  admits := (List.forall_mem_cons.1 h.admits).2
  apart before other next after heq := h.apart (lexeme :: before) other next after (by simp [heq])
  offset_eq before other after heq := by
    rw [h.offset_eq (lexeme :: before) other after (by simp [heq]), lexemesText_cons,
      byteLength_append, Nat.add_assoc]

/-- The first lexeme is behind what stands before the text. -/
theorem offset_head (h : CutsInto start cs (lexeme :: row)) : lexeme.offset = start := by
  rw [h.offset_eq [] lexeme row rfl, lexemesText_nil, byteLength_nil, Nat.add_zero]

/-- What is behind the first lexeme does not go on with it. -/
theorem runs_eq_false (h : CutsInto start cs (lexeme :: row)) :
    ∀ d ∈ (lexemesText row).head?, lexeme.kind.runs d = false := by
  intro d hd
  cases row with
  | nil => cases hd
  | cons next row =>
    obtain ⟨c, tail, htext⟩ := List.exists_cons_of_ne_nil (h.tail.ne_nil next List.mem_cons_self)
    have hnext := h.tail.admits next List.mem_cons_self
    rw [htext] at hnext
    rw [lexemesText_cons, htext] at hd
    cases hd
    rw [Bool.eq_false_iff]
    intro hruns
    exact h.apart [] lexeme next row rfl (LexemeKind.eq_word_or_space_of_runs hruns)
      (hnext.eq_of_runs hruns)

end CutsInto

/-- **A text falls into its lexemes, and into no others.** What the lexer answers is so the only row
with these properties. -/
theorem lexemesFrom_eq_ok_iff {start : Nat} {cs : List Char} {row : List Lexeme} :
    lexemesFrom start cs = .ok row ↔ CutsInto start cs row := by
  constructor
  · intro h
    induction row generalizing start cs with
    | nil =>
      obtain rfl : [] = cs := lexemesText_of_lexemesFrom h
      exact .nil start
    | cons lexeme row ih =>
      obtain rfl := offset_of_lexemesFrom_cons h
      obtain ⟨c, ds, rest, rfl, hfirst, hrest⟩ := exists_firstLexeme?_eq h
      obtain ⟨happend, hne, hadmits, hruns⟩ := firstLexeme?_eq_some_iff.1 hfirst
      rw [← happend]
      exact (ih hrest).cons hne hadmits hruns
  · intro h
    induction row generalizing start cs with
    | nil =>
      obtain rfl : [] = cs := h.text_eq
      rw [lexemesFrom]
    | cons lexeme row ih =>
      obtain ⟨c, tail, htext⟩ := List.exists_cons_of_ne_nil (h.ne_nil lexeme List.mem_cons_self)
      -- the lexer takes the first lexeme, as it is one that the text can begin with
      have hfirst : firstLexeme? c (tail ++ lexemesText row)
          = some (lexeme.kind, lexeme.text, lexemesText row) := by
        refine firstLexeme?_eq_some_iff.2 ⟨?_, h.ne_nil lexeme List.mem_cons_self,
          h.admits lexeme List.mem_cons_self, h.runs_eq_false⟩
        rw [htext, List.cons_append]
      rw [← h.text_eq, lexemesText_cons, htext, List.cons_append, lexemesFrom_cons hfirst,
        ih h.tail, ← h.offset_head]
      rfl

/-! ### Literals that never end

Where the lexer fails is said by the text in front: characters and whole literals, and then a quote
that is never closed. There is one such place at most, because no row of characters and whole
literals contains such a quote. -/

/-- **A quote that no quote closes**, with all behind it. A quote of the other kind closes nothing,
and neither does one behind a backslash. -/
def NeverCloses (stuck : List Char) : Prop :=
  ∃ q after, stuck = q :: after ∧ isQuote q = true ∧
    ∀ body rest, LiteralBody q body → after ≠ body ++ q :: rest

/-- Characters and whole literals may be put before such a text, and taken away. -/
theorem Outside.append_iff {before cs : List Char} (h : Outside before) :
    Outside (before ++ cs) ↔ Outside cs := by
  induction h with
  | nil => rfl
  | plain hquote _ ih => rw [List.cons_append, outside_cons_iff hquote, ih]
  | literal hquote hbody _ ih =>
    rw [List.cons_append, List.append_assoc, List.cons_append, outside_literal_iff hquote hbody, ih]

/-- A quote that no quote closes is in no row of characters and whole literals. -/
theorem NeverCloses.not_outside {stuck more : List Char} (h : NeverCloses (stuck ++ more))
    (hne : stuck ≠ []) : ¬ Outside stuck := by
  obtain ⟨q, after, heq, hquote, hnever⟩ := h
  intro hout
  cases hout with
  | nil => exact hne rfl
  | plain hplain =>
    obtain ⟨rfl, -⟩ := List.cons.inj heq
    rw [hquote] at hplain
    cases hplain
  | literal _ hbody =>
    obtain ⟨rfl, rfl⟩ := List.cons.inj heq
    exact hnever _ _ hbody (by simp; rfl)

/-- A text is stuck where it first is: no characters and whole literals go further. -/
theorem NeverCloses.eq_nil_of_outside {before middle rest : List Char}
    (h : NeverCloses (middle ++ rest)) (hbefore : Outside before)
    (hboth : Outside (before ++ middle)) : middle = [] := by
  by_cases hne : middle = []
  · exact hne
  · exact absurd (hbefore.append_iff.1 hboth) (h.not_outside hne)

/-- **A text is stuck in one place at most**, so what the lexer hands out with its failure is
decided by the text. -/
theorem NeverCloses.unique {before before' stuck stuck' : List Char} (h : NeverCloses stuck)
    (hbefore : Outside before) (h' : NeverCloses stuck') (hbefore' : Outside before')
    (heq : before ++ stuck = before' ++ stuck') : stuck = stuck' := by
  rcases List.append_eq_append_iff.1 heq with ⟨middle, rfl, rfl⟩ | ⟨middle, rfl, rfl⟩
  · rw [h.eq_nil_of_outside hbefore hbefore', List.nil_append]
  · rw [h'.eq_nil_of_outside hbefore' hbefore, List.nil_append]

/-- What the lexer hands out when it fails is such a quote, behind characters and whole literals. -/
theorem neverCloses_of_lexemesFrom {start : Nat} {cs stuck : List Char}
    (h : lexemesFrom start cs = .error stuck) :
    NeverCloses stuck ∧ ∃ before, Outside before ∧ before ++ stuck = cs := by
  -- on the length of the text, since the lexer goes on behind its first lexeme
  induction hn : cs.length using Nat.strongRecOn generalizing start cs with
  | ind n ih =>
    subst hn
    cases cs with
    | nil =>
      rw [lexemesFrom] at h
      cases h
    | cons c cs =>
      cases hfirst : firstLexeme? c cs with
      | none =>
        rw [lexemesFrom_cons_of_none hfirst] at h
        cases h
        exact ⟨⟨c, cs, rfl, firstLexeme?_eq_none_iff.1 hfirst⟩, [], .nil, rfl⟩
      | some first =>
        obtain ⟨kind, text, rest⟩ := first
        rw [lexemesFrom_cons hfirst] at h
        cases hrest : lexemesFrom (start + byteLength text) rest with
        | ok row =>
          rw [hrest] at h
          cases h
        | error other =>
          rw [hrest] at h
          cases h
          obtain ⟨hstuck, before, hbefore, rfl⟩ :=
            ih rest.length (Nat.lt_succ_of_le (length_le_of_firstLexeme? hfirst)) hrest rfl
          -- the first lexeme is the same where the text ends in front of the quote
          obtain ⟨tail, -, rfl, hcut⟩ := exists_tail_of_firstLexeme? hfirst
          have hfirst' := hcut before (List.prefix_append before stuck)
          exact ⟨hstuck, c :: (tail ++ before),
            (outside_iff_of_firstLexeme? hfirst').2 hbefore, by simp⟩

/-- **The lexer fails where a quote outside literals is never closed**, and nowhere else, and hands
out the text from there on. -/
theorem lexemesFrom_eq_error_iff {start : Nat} {cs stuck : List Char} :
    lexemesFrom start cs = .error stuck ↔
      NeverCloses stuck ∧ ∃ before, Outside before ∧ before ++ stuck = cs := by
  refine ⟨neverCloses_of_lexemesFrom, ?_⟩
  rintro ⟨hstuck, before, hbefore, rfl⟩
  cases hrow : lexemesFrom start (before ++ stuck) with
  -- with lexemes for the whole text, the quote would be closed
  | ok row =>
    have hout := (outside_iff_exists_lexemesFrom start _).2 ⟨row, hrow⟩
    obtain ⟨q, after, rfl, -⟩ := id hstuck
    have hwhole : NeverCloses (q :: after ++ []) := by rwa [List.append_nil]
    exact absurd (hbefore.append_iff.1 hout) (hwhole.not_outside (List.cons_ne_nil q after))
  | error other =>
    obtain ⟨hother, before', hbefore', heq⟩ := neverCloses_of_lexemesFrom hrow
    rw [hother.unique hbefore' hstuck hbefore heq]

/-! ### From a lexeme on

The lexer has no state but its offset, so the lexemes from one of them on are those of the rest of
the text, with other offsets. -/

/-- What is left of a text behind some of its lexemes falls into those that are left. -/
theorem CutsInto.drop {start : Nat} {cs : List Char} {before after : List Lexeme}
    (h : CutsInto start cs (before ++ after)) :
    CutsInto (start + byteLength (lexemesText before)) (lexemesText after) after := by
  induction before generalizing start cs with
  | nil =>
    rw [List.nil_append] at h
    rw [h.text_eq]
    exact h
  | cons lexeme before ih =>
    rw [lexemesText_cons, byteLength_append, ← Nat.add_assoc]
    exact ih h.tail

/-- **From any lexeme on the lexemes are the same**, behind fewer bytes. The place of the lexeme is
one where the text can be sliced. -/
theorem exists_slice?_of_lexemes {cs : List Char} {before after : List Lexeme} {lexeme : Lexeme}
    (h : lexemes cs = .ok (before ++ lexeme :: after)) :
    ∃ rest row, slice? cs lexeme.offset (byteLength cs) = some rest ∧
      lexemes rest = .ok row ∧ row.map (Lexeme.behind lexeme.offset) = lexeme :: after := by
  have hcut : CutsInto 0 cs (before ++ lexeme :: after) := lexemesFrom_eq_ok_iff.1 h
  have hoffset := hcut.offset_eq before lexeme after rfl
  have hrest := lexemesFrom_eq_ok_iff.2 hcut.drop
  rw [← hoffset, lexemesFrom_eq] at hrest
  cases hrow : lexemes (lexemesText (lexeme :: after)) with
  | error stuck =>
    rw [hrow] at hrest
    cases hrest
  | ok row =>
    rw [hrow] at hrest
    refine ⟨lexemesText (lexeme :: after), row, ?_, hrow, Except.ok.inj hrest⟩
    rw [hoffset, Nat.zero_add, ← hcut.text_eq, lexemesText_append, slice?_suffix]

/-- **Cutting into lexemes is exact.** A row of lexemes is the lexer's if and only if the text falls
into it; the lexer fails if and only if some quote outside literals is never closed, and hands out
the text from that quote on; and the lexemes from any of them on are those of the text that is left
there. -/
theorem lexemes_are_exact (cs : List Char) :
    (∀ row, lexemes cs = .ok row ↔ CutsInto 0 cs row) ∧
    (∀ stuck, lexemes cs = .error stuck ↔
      NeverCloses stuck ∧ ∃ before, Outside before ∧ before ++ stuck = cs) ∧
    ∀ before lexeme after, lexemes cs = .ok (before ++ lexeme :: after) →
      ∃ rest row, slice? cs lexeme.offset (byteLength cs) = some rest ∧
        lexemes rest = .ok row ∧ row.map (Lexeme.behind lexeme.offset) = lexeme :: after :=
  ⟨fun _ => lexemesFrom_eq_ok_iff, fun _ => lexemesFrom_eq_error_iff,
    fun _ _ _ => exists_slice?_of_lexemes⟩

/-- A bar behind a character of two bytes and a space is three bytes into its text, and the first
lexeme of what is left there. -/
theorem bar_behind_three_bytes_is_first :
    let before : List Lexeme := [⟨.word, ['é'], 0⟩, ⟨.space, [' '], 2⟩]
    let after : List Lexeme := [⟨.word, ['f'], 4⟩]
    lexemes ['é', ' ', '|', 'f'] = .ok (before ++ ⟨.pipe, ['|'], 3⟩ :: after) ∧
      slice? ['é', ' ', '|', 'f'] 3 5 = some ['|', 'f'] ∧
      ∃ row, lexemes ['|', 'f'] = .ok row ∧
        row.map (Lexeme.behind 3) = ⟨.pipe, ['|'], 3⟩ :: after := by
  intro before after
  have h : lexemes ['é', ' ', '|', 'f'] = .ok (before ++ ⟨.pipe, ['|'], 3⟩ :: after) :=
    toOption_eq_some_iff.1 (by decide +kernel)
  obtain ⟨-, -, hagain⟩ := lexemes_are_exact ['é', ' ', '|', 'f']
  obtain ⟨rest, row, hslice, hrow, hbehind⟩ := hagain before ⟨.pipe, ['|'], 3⟩ after h
  have hrest : slice? ['é', ' ', '|', 'f'] 3 5 = some ['|', 'f'] := by decide
  obtain rfl : rest = ['|', 'f'] := Option.some.inj (hslice.symm.trans hrest)
  exact ⟨h, hrest, row, hrow, hbehind⟩

end Stencil
