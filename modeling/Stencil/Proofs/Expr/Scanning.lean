import Stencil.Proofs.Expr.Grammar

/-!
# From characters to terminals

What the lexemes of a text are to the grammar does not depend on where in a source the text stands.
So `scan?` goes from the characters of a text to its terminals, with one equation for each kind of
character. It goes piece by piece over texts put one after the other, as long as no word straddles
the place where they meet (`scan?_append`).
-/

namespace Stencil

/-- What an answer is as an option is what it succeeds with. -/
theorem toOption_eq_some_iff {ε α : Type} {answer : Except ε α} {a : α} :
    answer.toOption = some a ↔ answer = .ok a := by
  cases answer with
  | error e => simp [Except.toOption]
  | ok b => simp [Except.toOption]

/-- **The terminals of a text**, if all its literals end. With it a text can be put together from
pieces, with no regard to offsets. -/
def scan? (cs : List Char) : Option (List Terminal) :=
  (lexemes cs).toOption.map terminals

theorem scan?_eq_some_iff {cs : List Char} {ts : List Terminal} :
    scan? cs = some ts ↔ ∃ row, lexemes cs = .ok row ∧ terminals row = ts := by
  simp only [scan?, Option.map_eq_some_iff, toOption_eq_some_iff]

/-- The lexemes of a text, by its first one. -/
theorem lexemesFrom_cons {offset : Nat} {c : Char} {cs text rest : List Char} {kind : LexemeKind}
    (h : firstLexeme? c cs = some (kind, text, rest)) :
    lexemesFrom offset (c :: cs)
      = (lexemesFrom (offset + byteLength text) rest).map (⟨kind, text, offset⟩ :: ·) := by
  rw [lexemesFrom]
  split
  · next hnone =>
    rw [h] at hnone
    cases hnone
  · next hsome =>
    rw [h] at hsome
    cases hsome
    rfl

/-- A text whose first lexeme does not end has no lexemes. -/
theorem lexemesFrom_cons_of_none {offset : Nat} {c : Char} {cs : List Char}
    (h : firstLexeme? c cs = none) : lexemesFrom offset (c :: cs) = .error (c :: cs) := by
  rw [lexemesFrom]
  split
  · rfl
  · next hsome =>
    rw [h] at hsome
    cases hsome

/-- A lexeme that some bytes more stand before. -/
def Lexeme.behind (n : Nat) (lexeme : Lexeme) : Lexeme :=
  { lexeme with offset := n + lexeme.offset }

/-- **Lexemes go with their text**: bytes before it only count in their offsets, and add up. -/
theorem lexemesFrom_add (n offset : Nat) (cs : List Char) :
    lexemesFrom (n + offset) cs = (lexemesFrom offset cs).map (List.map (Lexeme.behind n)) := by
  induction hn : cs.length using Nat.strongRecOn generalizing offset cs with
  | ind length ih =>
    cases cs with
    | nil =>
      rw [lexemesFrom, lexemesFrom]
      rfl
    | cons c cs =>
      cases hfirst : firstLexeme? c cs with
      | none =>
        rw [lexemesFrom_cons_of_none hfirst, lexemesFrom_cons_of_none hfirst]
        rfl
      | some first =>
        obtain ⟨kind, text, rest⟩ := first
        have hlt : rest.length < length := hn ▸ Nat.lt_succ_of_le (length_le_of_firstLexeme? hfirst)
        rw [lexemesFrom_cons hfirst, lexemesFrom_cons hfirst, Nat.add_assoc,
          ih rest.length hlt (offset + byteLength text) rest rfl]
        cases lexemesFrom (offset + byteLength text) rest <;> rfl

/-- The lexemes of a text behind some bytes are those of the text. -/
theorem lexemesFrom_eq (n : Nat) (cs : List Char) :
    lexemesFrom n cs = (lexemes cs).map (List.map (Lexeme.behind n)) :=
  lexemesFrom_add n 0 cs

theorem terminals_map_behind (n : Nat) (row : List Lexeme) :
    terminals (row.map (Lexeme.behind n)) = terminals row := by
  rw [terminals, List.filterMap_map]
  rfl

/-- The terminals of a text are the same wherever the text stands. -/
theorem map_terminals_lexemesFrom (n : Nat) (cs : List Char) :
    (lexemesFrom n cs).toOption.map terminals = scan? cs := by
  rw [lexemesFrom_eq, scan?]
  cases lexemes cs with
  | error e => rfl
  | ok row => exact congrArg some (terminals_map_behind n row)

/-! ### One kind of character after the other

The lexer tells by the first character of a text what its first lexeme is. Here is one equation for
each answer, so that the definition of the lexer need not be opened again. -/

/-- **Every character is of one of four kinds**, and its kind decides what lexeme it begins. -/
theorem char_cases (c : Char) :
    Text.isSpacing c = true ∨ Text.Literal.isQuote c = true ∨
      (c = '(' ∨ c = ')' ∨ c = '|' ∨ c = ',') ∨ isWordChar c = true := by
  unfold isWordChar
  by_cases hs : Text.isSpacing c = true
  · exact .inl hs
  by_cases hq : Text.Literal.isQuote c = true
  · exact .inr (.inl hq)
  by_cases hd : c = '(' ∨ c = ')' ∨ c = '|' ∨ c = ','
  · exact .inr (.inr (.inl hd))
  · refine .inr (.inr (.inr ?_))
    simp_all

theorem firstLexeme?_spacing {c : Char} (h : Text.isSpacing c = true) (cs : List Char) :
    firstLexeme? c cs
      = some (.space, c :: cs.takeWhile Text.isSpacing, cs.dropWhile Text.isSpacing) := by
  simp only [Text.isSpacing, Bool.or_eq_true, beq_iff_eq] at h
  rcases h with ((rfl | rfl) | rfl) | rfl <;> rfl

theorem firstLexeme?_quote {q : Char} (h : Text.Literal.isQuote q = true) (cs : List Char) :
    firstLexeme? q cs
      = (Text.Literal.span q cs).map fun (literal, rest) => (.quoted, q :: literal, rest) := by
  simp only [Text.Literal.isQuote, Bool.or_eq_true, beq_iff_eq] at h
  rcases h with rfl | rfl <;> rfl

theorem firstLexeme?_word {c : Char} (h : isWordChar c = true) (cs : List Char) :
    firstLexeme? c cs = some (.word, c :: cs.takeWhile isWordChar, cs.dropWhile isWordChar) := by
  simp only [isWordChar, Bool.not_eq_true', Bool.or_eq_false_iff, beq_eq_false_iff_ne] at h
  simp [firstLexeme?, h]

@[simp] theorem scan?_nil : scan? [] = some [] := by
  rw [scan?, lexemes, lexemesFrom]
  rfl

/-- The terminals of a text, by its first lexeme. -/
theorem scan?_cons {c : Char} {cs text rest : List Char} {kind : LexemeKind}
    (h : firstLexeme? c cs = some (kind, text, rest)) :
    scan? (c :: cs) = (scan? rest).map ((Lexeme.mk kind text 0).terminal?.toList ++ ·) := by
  rw [scan?, lexemes, lexemesFrom_cons h, ← map_terminals_lexemesFrom (0 + byteLength text) rest]
  cases lexemesFrom (0 + byteLength text) rest with
  | error e => rfl
  | ok row =>
    simp only [Except.map, Except.toOption, Option.map_some, terminals, List.filterMap_cons]
    cases (Lexeme.mk kind text 0).terminal? <;> rfl

/-- Spacing before a text is nothing. -/
theorem scan?_cons_spacing {c : Char} (h : Text.isSpacing c = true) (cs : List Char) :
    scan? (c :: cs) = scan? cs := by
  have skip (d : Char) (ds : List Char) (hd : Text.isSpacing d = true) :
      scan? (d :: ds) = scan? (ds.dropWhile Text.isSpacing) := by
    rw [scan?_cons (firstLexeme?_spacing hd ds)]
    exact Option.map_id'
  rw [skip c cs h]
  cases cs with
  | nil => rfl
  | cons d ds =>
    by_cases hd : Text.isSpacing d = true
    · rw [List.dropWhile_cons_of_pos hd, skip d ds hd]
    · rw [List.dropWhile_cons_of_neg hd]

theorem scan?_spacing_append {spacing : List Char} (h : ∀ c ∈ spacing, Text.isSpacing c = true)
    (cs : List Char) : scan? (spacing ++ cs) = scan? cs := by
  induction spacing with
  | nil => rfl
  | cons c spacing ih =>
    obtain ⟨hc, hspacing⟩ := List.forall_mem_cons.1 h
    rw [List.cons_append, scan?_cons_spacing hc, ih hspacing]

@[simp] theorem scan?_cons_space (cs : List Char) : scan? (' ' :: cs) = scan? cs :=
  scan?_cons_spacing rfl cs

@[simp] theorem scan?_cons_openParen (cs : List Char) :
    scan? ('(' :: cs) = (scan? cs).map (.openParen :: ·) :=
  scan?_cons (show firstLexeme? '(' cs = some (.openParen, ['('], cs) from rfl)

@[simp] theorem scan?_cons_closeParen (cs : List Char) :
    scan? (')' :: cs) = (scan? cs).map (.closeParen :: ·) :=
  scan?_cons (show firstLexeme? ')' cs = some (.closeParen, [')'], cs) from rfl)

@[simp] theorem scan?_cons_pipe (cs : List Char) :
    scan? ('|' :: cs) = (scan? cs).map (.pipe :: ·) :=
  scan?_cons (show firstLexeme? '|' cs = some (.pipe, ['|'], cs) from rfl)

@[simp] theorem scan?_cons_comma (cs : List Char) :
    scan? (',' :: cs) = (scan? cs).map (.comma :: ·) :=
  scan?_cons (show firstLexeme? ',' cs = some (.comma, [','], cs) from rfl)

/-- A literal is one terminal. -/
theorem scan?_cons_quote {q : Char} {cs literal rest : List Char}
    (hq : Text.Literal.isQuote q = true) (h : Text.Literal.span q cs = some (literal, rest)) :
    scan? (q :: cs) = (scan? rest).map (.quoted (q :: literal) :: ·) := by
  have hfirst : firstLexeme? q cs = some (.quoted, q :: literal, rest) := by
    rw [firstLexeme?_quote hq, h, Option.map_some]
  exact scan?_cons hfirst

/-- Nothing is read where a literal does not end. -/
theorem scan?_cons_quote_of_none {q : Char} {cs : List Char}
    (hq : Text.Literal.isQuote q = true) (h : Text.Literal.span q cs = none) :
    scan? (q :: cs) = none := by
  have hfirst : firstLexeme? q cs = none := by
    rw [firstLexeme?_quote hq, h, Option.map_none]
  rw [scan?, lexemes, lexemesFrom_cons_of_none hfirst]
  rfl

/-- A word is one terminal. -/
theorem scan?_cons_word {c : Char} (hc : isWordChar c = true) (cs : List Char) :
    scan? (c :: cs)
      = (scan? (cs.dropWhile isWordChar)).map (.word (c :: cs.takeWhile isWordChar) :: ·) :=
  scan?_cons (firstLexeme?_word hc cs)

/-! ### Texts one after the other

Two texts have the lexemes of both if none is made longer where they meet. Literals and delimiters
end by themselves, and spacing is nothing to the grammar, so only a word can be; `Parts` excludes
that. -/

/-- **No word straddles the place where two texts meet.** Then the lexemes of both together are
those of each, behind one another. -/
def Parts (cs rest : List Char) : Prop :=
  ∀ c ∈ cs.getLast?, ∀ d ∈ rest.head?, isWordChar c = true → isWordChar d = false

/-- Where a text meets another, only its end matters. -/
theorem Parts.of_suffix {cs ds rest : List Char} (h : Parts cs rest) (hsuffix : ds <:+ cs) :
    Parts ds rest := by
  obtain ⟨before, rfl⟩ := hsuffix
  intro c hc
  refine h c ?_
  rw [Option.mem_def] at hc
  rw [List.getLast?_append, hc]
  rfl

theorem Parts.tail {c : Char} {cs rest : List Char} (h : Parts (c :: cs) rest) : Parts cs rest :=
  h.of_suffix (List.suffix_cons c cs)

/-- Before a delimiter every word has ended. -/
theorem parts_of_not_isWordChar_head {cs rest : List Char}
    (h : ∀ d ∈ rest.head?, isWordChar d = false) : Parts cs rest := by
  intro c _ d hd _
  exact h d hd

/-- Before spacing every word has ended. -/
theorem parts_of_isSpacing_head {cs rest : List Char}
    (h : ∀ d ∈ rest.head?, Text.isSpacing d = true) : Parts cs rest := by
  refine parts_of_not_isWordChar_head fun d hd => ?_
  simp [isWordChar, h d hd]

/-- A run of characters of a class is not made longer by what follows it, unless all of the text is
of that class and what follows begins with it. -/
theorem takeWhile_dropWhile_append {p : Char → Bool} {cs rest : List Char}
    (h : cs.dropWhile p ≠ [] ∨ ∀ d ∈ rest.head?, p d = false) :
    (cs ++ rest).takeWhile p = cs.takeWhile p ∧
      (cs ++ rest).dropWhile p = cs.dropWhile p ++ rest := by
  -- on the first text: its first character outside the class ends the run
  induction cs with
  | nil =>
    cases rest with
    | nil => exact ⟨rfl, rfl⟩
    | cons d ds =>
      have hd : p d = false := by simpa using h
      simp [hd]
  | cons c cs ih =>
    by_cases hc : p c = true
    · rw [List.dropWhile_cons_of_pos hc] at h
      obtain ⟨htake, hdrop⟩ := ih h
      simp [hc, htake, hdrop]
    · simp [hc]

/-- A run of characters of a class ends where what follows it is not of the class. -/
theorem takeWhile_dropWhile_run {p : Char → Bool} {run rest : List Char}
    (hrun : ∀ c ∈ run, p c = true) (hrest : ∀ d ∈ rest.head?, p d = false) :
    (run ++ rest).takeWhile p = run ∧ (run ++ rest).dropWhile p = rest := by
  rw [List.takeWhile_append_of_pos hrun, List.dropWhile_append_of_pos hrun]
  cases rest with
  | nil => simp
  | cons d rest => simp [hrest d rfl]

/-- What is left behind a run does not go on with it. -/
theorem eq_false_of_mem_head?_dropWhile {p : Char → Bool} {cs : List Char} {d : Char}
    (h : d ∈ (cs.dropWhile p).head?) : p d = false := by
  have hnot := List.head?_dropWhile_not p cs
  rw [Option.mem_def.1 h] at hnot
  simpa using hnot

/-- A text of one class ends with a character of that class. -/
theorem of_dropWhile_eq_nil {p : Char → Bool} {c d : Char} {cs : List Char} (hc : p c = true)
    (h : cs.dropWhile p = []) (hd : d ∈ (c :: cs).getLast?) : p d = true := by
  rcases List.mem_cons.1 (List.mem_of_getLast? hd) with rfl | hmem
  · exact hc
  · have hcs : cs.takeWhile p = cs := by
      rw [← List.append_nil (cs.takeWhile p), ← h, List.takeWhile_append_dropWhile]
    rw [← hcs] at hmem
    exact List.all_eq_true.1 List.all_takeWhile d hmem

/-- **The terminals of two texts** that no word straddles are those of one and then those of the
other. -/
theorem scan?_append {cs rest : List Char} {ts : List Terminal} (h : scan? cs = some ts)
    (hparts : Parts cs rest) : scan? (cs ++ rest) = (scan? rest).map (ts ++ ·) := by
  -- on the length of the first text; a word or a literal takes off many characters of it
  induction hn : cs.length using Nat.strongRecOn generalizing cs ts with
  | ind n ih =>
    subst hn
    cases cs with
    | nil =>
      obtain rfl : [] = ts := by simpa using h
      simp
    | cons c cs =>
      -- what follows the first lexeme is shorter, and meets the other text in the same way
      have go {ds : List Char} {t : Terminal} (hsuffix : ds <:+ cs)
          (hds : (scan? ds).map (t :: ·) = some ts) :
          (scan? (ds ++ rest)).map (t :: ·) = (scan? rest).map (ts ++ ·) := by
        obtain ⟨us, hus, rfl⟩ := Option.map_eq_some_iff.1 hds
        rw [ih ds.length (Nat.lt_succ_of_le hsuffix.length_le) hus (hparts.tail.of_suffix hsuffix)
          rfl, Option.map_map]
        rfl
      rcases char_cases c with hspace | hquote | (rfl | rfl | rfl | rfl) | hword
      · rw [scan?_cons_spacing hspace] at h
        rw [List.cons_append, scan?_cons_spacing hspace]
        exact ih cs.length (Nat.lt_succ_self _) h hparts.tail rfl
      · cases hspan : Text.Literal.span c cs with
        | none =>
          rw [scan?_cons_quote_of_none hquote hspan] at h
          cases h
        | some found =>
          obtain ⟨literal, ds⟩ := found
          rw [scan?_cons_quote hquote hspan] at h
          -- a literal ends where it did before there was more text
          rw [List.cons_append, scan?_cons_quote hquote (Text.Literal.span_append hspan rest)]
          exact go ⟨literal, Text.Literal.append_of_span hspan⟩ h
      · rw [scan?_cons_openParen] at h
        rw [List.cons_append, scan?_cons_openParen]
        exact go List.suffix_rfl h
      · rw [scan?_cons_closeParen] at h
        rw [List.cons_append, scan?_cons_closeParen]
        exact go List.suffix_rfl h
      · rw [scan?_cons_pipe] at h
        rw [List.cons_append, scan?_cons_pipe]
        exact go List.suffix_rfl h
      · rw [scan?_cons_comma] at h
        rw [List.cons_append, scan?_cons_comma]
        exact go List.suffix_rfl h
      -- the word ends inside the first text, or where the texts meet
      · have hrun : cs.dropWhile isWordChar ≠ [] ∨ ∀ d ∈ rest.head?, isWordChar d = false := by
          by_cases hnil : cs.dropWhile isWordChar = []
          · refine .inr ?_
            intro d hd
            obtain ⟨e, he⟩ : ∃ e, (c :: cs).getLast? = some e := by simp [List.getLast?_cons]
            exact hparts e he d hd (of_dropWhile_eq_nil hword hnil he)
          · exact .inl hnil
        obtain ⟨htake, hdrop⟩ := takeWhile_dropWhile_append hrun
        rw [scan?_cons_word hword] at h
        rw [List.cons_append, scan?_cons_word hword, htake, hdrop]
        exact go (List.dropWhile_suffix _) h

/-! ### Lexemes as text

The lexemes of a text give the text back, and some first of them are the lexemes of the text that
they give. A reader can so be followed on the lexemes that it has taken, as if the text had ended
there. -/

/-- **A lexeme ends where it does**: it begins with the first character of the text, nothing is lost
where it is cut off, and it is cut off in the same place if less of the text follows. -/
theorem exists_tail_of_firstLexeme? {c : Char} {cs text rest : List Char} {kind : LexemeKind}
    (h : firstLexeme? c cs = some (kind, text, rest)) :
    ∃ tail, text = c :: tail ∧ cs = tail ++ rest ∧
      ∀ other, other <+: rest → firstLexeme? c (tail ++ other) = some (kind, text, other) := by
  -- a run ends where the class of its characters does, or the text
  have run {p : Char → Bool} {other : List Char} (hother : other <+: cs.dropWhile p) :
      (cs.takeWhile p ++ other).takeWhile p = cs.takeWhile p ∧
        (cs.takeWhile p ++ other).dropWhile p = other := by
    refine takeWhile_dropWhile_run (List.all_eq_true.1 List.all_takeWhile) fun d hd => ?_
    obtain ⟨more, hmore⟩ := hother
    have hhead : d ∈ (cs.dropWhile p).head? := by
      rw [← hmore, Option.mem_def, List.head?_append, Option.mem_def.1 hd]
      rfl
    exact eq_false_of_mem_head?_dropWhile hhead
  rcases char_cases c with hspace | hquote | (rfl | rfl | rfl | rfl) | hword
  · rw [firstLexeme?_spacing hspace] at h
    cases h
    refine ⟨_, rfl, List.takeWhile_append_dropWhile.symm, ?_⟩
    intro other hother
    obtain ⟨htake, hdrop⟩ := run hother
    rw [firstLexeme?_spacing hspace, htake, hdrop]
  · rw [firstLexeme?_quote hquote] at h
    obtain ⟨⟨literal, ds⟩, hspan, hsome⟩ := Option.map_eq_some_iff.1 h
    cases hsome
    refine ⟨literal, rfl, (Text.Literal.append_of_span hspan).symm, ?_⟩
    intro other _
    rw [firstLexeme?_quote hquote, Text.Literal.span_literal hspan]
    rfl
  · cases h
    exact ⟨[], rfl, rfl, fun other _ => rfl⟩
  · cases h
    exact ⟨[], rfl, rfl, fun other _ => rfl⟩
  · cases h
    exact ⟨[], rfl, rfl, fun other _ => rfl⟩
  · cases h
    exact ⟨[], rfl, rfl, fun other _ => rfl⟩
  · rw [firstLexeme?_word hword] at h
    cases h
    refine ⟨_, rfl, List.takeWhile_append_dropWhile.symm, ?_⟩
    intro other hother
    obtain ⟨htake, hdrop⟩ := run hother
    rw [firstLexeme?_word hword, htake, hdrop]

/-- Nothing is lost where a lexeme is cut off. -/
theorem append_of_firstLexeme? {c : Char} {cs text rest : List Char} {kind : LexemeKind}
    (h : firstLexeme? c cs = some (kind, text, rest)) : text ++ rest = c :: cs := by
  obtain ⟨tail, rfl, rfl, -⟩ := exists_tail_of_firstLexeme? h
  rfl

/-- **The first of the lexemes of a text** is the text's first lexeme, and the others are those of
the text after it. -/
theorem exists_firstLexeme?_eq {offset : Nat} {cs : List Char} {lexeme : Lexeme}
    {row : List Lexeme} (h : lexemesFrom offset cs = .ok (lexeme :: row)) :
    ∃ c ds rest, cs = c :: ds ∧ firstLexeme? c ds = some (lexeme.kind, lexeme.text, rest) ∧
      lexemesFrom (offset + byteLength lexeme.text) rest = .ok row := by
  cases cs with
  | nil =>
    rw [lexemesFrom] at h
    cases h
  | cons c cs =>
    cases hfirst : firstLexeme? c cs with
    | none =>
      rw [lexemesFrom_cons_of_none hfirst] at h
      cases h
    | some first =>
      obtain ⟨kind, text, rest⟩ := first
      rw [lexemesFrom_cons hfirst] at h
      cases hrest : lexemesFrom (offset + byteLength text) rest with
      | error e =>
        rw [hrest] at h
        cases h
      | ok others =>
        rw [hrest] at h
        cases h
        exact ⟨c, cs, rest, rfl, hfirst, hrest⟩

/-- The first lexeme is where the text begins. -/
theorem offset_of_lexemesFrom_cons {offset : Nat} {cs : List Char} {row : List Lexeme}
    {lexeme : Lexeme} (h : lexemesFrom offset cs = .ok (lexeme :: row)) :
    lexeme.offset = offset := by
  obtain ⟨c, ds, rest, rfl, hfirst, hrest⟩ := exists_firstLexeme?_eq h
  rw [lexemesFrom_cons hfirst, hrest] at h
  exact (congrArg Lexeme.offset (List.cons.inj (Except.ok.inj h)).1).symm

/-- The first lexeme of a text, and the text after it. -/
theorem exists_firstLexeme?_of_lexemesFrom {offset : Nat} {cs : List Char} {lexeme : Lexeme}
    {row : List Lexeme} (h : lexemesFrom offset cs = .ok (lexeme :: row)) :
    ∃ offset' rest, lexeme.text ++ rest = cs ∧ lexemesFrom offset' rest = .ok row := by
  obtain ⟨c, ds, rest, rfl, hfirst, hrest⟩ := exists_firstLexeme?_eq h
  exact ⟨_, rest, append_of_firstLexeme? hfirst, hrest⟩

/-- Lexemes are all of a text. -/
theorem lexemesText_of_lexemesFrom {offset : Nat} {cs : List Char} {row : List Lexeme}
    (h : lexemesFrom offset cs = .ok row) : lexemesText row = cs := by
  induction row generalizing offset cs with
  | nil =>
    cases cs with
    | nil => rfl
    | cons c cs =>
      cases hfirst : firstLexeme? c cs with
      | none =>
        rw [lexemesFrom_cons_of_none hfirst] at h
        cases h
      | some first =>
        rw [lexemesFrom_cons hfirst] at h
        cases hrest : lexemesFrom (offset + byteLength first.2.1) first.2.2 <;>
          rw [hrest] at h <;> cases h
  | cons lexeme row ih =>
    obtain ⟨offset', rest, rfl, hrest⟩ := exists_firstLexeme?_of_lexemesFrom h
    rw [lexemesText_cons, ih hrest]

/-- **The first lexemes of a text are the lexemes of the text they take up**: what came behind them
did not make them what they are. -/
theorem lexemesFrom_lexemesText {offset : Nat} {cs : List Char} {taken rest : List Lexeme}
    (h : lexemesFrom offset cs = .ok (taken ++ rest)) :
    lexemesFrom offset (lexemesText taken) = .ok taken := by
  induction taken generalizing offset cs with
  | nil =>
    rw [lexemesText_nil, lexemesFrom]
  | cons lexeme taken ih =>
    obtain ⟨c, ds, others, rfl, hfirst, hothers⟩ := exists_firstLexeme?_eq h
    obtain ⟨tail, htext, rfl, hcut⟩ := exists_tail_of_firstLexeme? hfirst
    -- the text of the other lexemes is a beginning of what followed the first, so the first ends as
    -- before
    have hprefix : lexemesText taken <+: others := by
      rw [← lexemesText_of_lexemesFrom hothers]
      exact ⟨_, (lexemesText_append taken rest).symm⟩
    have hoffset : lexeme.offset = offset := offset_of_lexemesFrom_cons h
    rw [lexemesText_cons, htext, List.cons_append, lexemesFrom_cons (hcut _ hprefix), ih hothers,
      ← hoffset]
    rfl

/-- The lexemes that are left of a text are the lexemes of the text that is left. -/
theorem exists_lexemesFrom_of_append {offset : Nat} {cs : List Char} {taken rest : List Lexeme}
    (h : lexemesFrom offset cs = .ok (taken ++ rest)) :
    ∃ offset', lexemesFrom offset' (lexemesText rest) = .ok rest := by
  induction taken generalizing offset cs with
  | nil =>
    rw [List.nil_append] at h
    refine ⟨offset, ?_⟩
    rwa [lexemesText_of_lexemesFrom h]
  | cons lexeme taken ih =>
    obtain ⟨offset', rest, -, hrest⟩ := exists_firstLexeme?_of_lexemesFrom h
    exact ih hrest

/-- The text that is left has the terminals that are left. -/
theorem scan?_lexemesText {cs : List Char} {taken rest : List Lexeme}
    (h : lexemes cs = .ok (taken ++ rest)) :
    scan? (lexemesText rest) = some (terminals rest) := by
  obtain ⟨offset, hrest⟩ := exists_lexemesFrom_of_append h
  rw [← map_terminals_lexemesFrom offset, hrest]
  rfl

end Stencil
