import Stencil.Proofs.Segment.Cutting

/-!
# Complete directives

What a directive is, said without a search for its end: pairs of braces around characters and whole
literals (`IsDirective`). Closing braces may stand among the characters, so a directive may have
others in front of its end; the one that is cut off a source is the first of them, and if none is
found there is none (`spanDirective_eq_some_iff`, `spanDirective_eq_none_iff`).
-/

namespace Stencil

open Text.Literal (isQuote)

/-- **What stands between the quotes of a literal**: characters other than the quote and the
backslash, and any characters that a backslash takes along. -/
inductive LiteralBody (q : Char) : List Char → Prop
  /-- nothing -/
  | nil : LiteralBody q []
  /-- a character for itself -/
  | plain {c : Char} {cs : List Char} :
    c ≠ '\\' → c ≠ q → LiteralBody q cs → LiteralBody q (c :: cs)
  /-- a character that a backslash takes along -/
  | escaped (c : Char) {cs : List Char} : LiteralBody q cs → LiteralBody q ('\\' :: c :: cs)

/-- **Characters and whole literals in a row**: every quote opens a literal or closes one. The end
of such a text is outside all literals, hence the name. -/
inductive Outside : List Char → Prop
  /-- nothing -/
  | nil : Outside []
  /-- a character that is no quote -/
  | plain {c : Char} {cs : List Char} : isQuote c = false → Outside cs → Outside (c :: cs)
  /-- a whole literal -/
  | literal {q : Char} {body cs : List Char} :
    isQuote q = true → LiteralBody q body → Outside cs → Outside (q :: (body ++ q :: cs))

/-- **A complete directive**: two braces, characters and whole literals, two braces. It may have
closing braces inside it, so it need not be the first one. -/
def IsDirective (cs : List Char) : Prop :=
  ∃ inner, Outside inner ∧ cs = Node.directive inner

/-- **A directive that is complete at its end for the first time**. Other closing braces may follow
in the source, and may even complete it again, but the splitter does not get there. -/
structure IsFirstDirective (cs : List Char) : Prop where
  /-- it is complete -/
  complete : IsDirective cs
  /-- it has not been complete before -/
  first : ∀ before, before <+: cs → IsDirective before → before = cs

/-! ### On the way to the end of a directive

The search passes through places that are inside a literal and places that are not, and remembers no
more than which quote is open. `Closes` says for each such state what the rest of a complete
directive looks like; the lemmas below give one equivalence for each step that `spanDirective` can
take. -/

/-- **What is left of a complete directive** behind its opening braces, or from some point on where
a literal of the given quote is open. It is the invariant of the search for the end. -/
def Closes : Option Char → List Char → Prop
  | none, cs => ∃ inner, Outside inner ∧ cs = inner ++ ['}', '}']
  | some q, cs => ∃ body inner, LiteralBody q body ∧ Outside inner ∧
      cs = body ++ q :: (inner ++ ['}', '}'])

theorem isDirective_iff_closes (cs : List Char) :
    IsDirective ('{' :: '{' :: cs) ↔ Closes none cs := by
  simp [IsDirective, Closes, Node.directive]

/-- A complete directive is all that its opening braces need. -/
theorem IsDirective.exists_closes {cs : List Char} (h : IsDirective cs) :
    ∃ inside, cs = '{' :: '{' :: inside ∧ Closes none inside := by
  obtain ⟨inner, hinner, rfl⟩ := h
  exact ⟨inner ++ ['}', '}'], rfl, inner, hinner, rfl⟩

theorem not_closes_nil (quote : Option Char) : ¬ Closes quote [] := by
  cases quote <;> simp [Closes]

theorem not_closes_backslash {q : Char} (hq : isQuote q = true) : ¬ Closes (some q) ['\\'] := by
  rintro ⟨body, inner, hbody, -, h⟩
  cases hbody with
  | nil =>
    obtain rfl : q = '\\' := (List.cons.inj h).1.symm
    cases hq
  | plain => simp at h
  | escaped => simp at h

/-- Outside literals a character is the first of the closing braces, or the rest closes. Both can be
the case, as a brace is an ordinary character of an interior too. -/
theorem closes_none_cons_iff {c : Char} {cs : List Char} :
    Closes none (c :: cs) ↔ (c = '}' ∧ cs = ['}']) ∨ Closes (quoteOpened c) cs := by
  constructor
  · rintro ⟨inner, hinner, h⟩
    cases hinner with
    | nil => exact .inl (by simpa using h)
    | plain hquote hinner =>
      obtain ⟨rfl, rfl⟩ := List.cons.inj h
      refine .inr ?_
      rw [quoteOpened, if_neg (by simp [hquote])]
      exact ⟨_, hinner, rfl⟩
    | literal hquote hbody hinner =>
      obtain ⟨rfl, rfl⟩ := List.cons.inj h
      refine .inr ?_
      rw [quoteOpened, if_pos hquote]
      exact ⟨_, _, hbody, hinner, by simp⟩
  · rintro (⟨rfl, rfl⟩ | h)
    · exact ⟨[], .nil, rfl⟩
    · rw [quoteOpened] at h
      split at h
      · next hquote =>
        obtain ⟨body, inner, hbody, hinner, rfl⟩ := h
        exact ⟨c :: (body ++ c :: inner), .literal hquote hbody hinner, by simp⟩
      · next hquote =>
        obtain ⟨inner, hinner, rfl⟩ := h
        exact ⟨c :: inner, .plain (Bool.eq_false_iff.2 hquote) hinner, rfl⟩

/-- Inside a literal a backslash takes the next character along. -/
theorem closes_some_escaped_iff {q c : Char} {cs : List Char} (hq : isQuote q = true) :
    Closes (some q) ('\\' :: c :: cs) ↔ Closes (some q) cs := by
  constructor
  · rintro ⟨body, inner, hbody, hinner, h⟩
    cases hbody with
    -- the literal cannot end here: a backslash is no quote
    | nil =>
      obtain rfl : q = '\\' := (List.cons.inj h).1.symm
      cases hq
    | plain hne =>
      obtain ⟨rfl, -⟩ := List.cons.inj h
      exact absurd rfl hne
    | escaped _ hbody =>
      obtain ⟨-, h⟩ := List.cons.inj h
      obtain ⟨-, rfl⟩ := List.cons.inj h
      exact ⟨_, _, hbody, hinner, rfl⟩
  · rintro ⟨body, inner, hbody, hinner, rfl⟩
    exact ⟨_, inner, .escaped c hbody, hinner, rfl⟩

/-- Inside a literal any other character closes it or belongs to it. -/
theorem closes_some_cons_iff {q c : Char} {cs : List Char} (hc : c ≠ '\\') :
    Closes (some q) (c :: cs) ↔ Closes (quoteLeft q c) cs := by
  constructor
  · rintro ⟨body, inner, hbody, hinner, h⟩
    cases hbody with
    | nil =>
      obtain ⟨rfl, rfl⟩ := List.cons.inj h
      rw [quoteLeft, if_pos rfl]
      exact ⟨inner, hinner, rfl⟩
    | plain _ hne hbody =>
      obtain ⟨rfl, rfl⟩ := List.cons.inj h
      rw [quoteLeft, if_neg hne]
      exact ⟨_, inner, hbody, hinner, rfl⟩
    | escaped => exact absurd (List.cons.inj h).1 hc
  · intro h
    -- the character closes the literal, or it belongs to its body
    rw [quoteLeft] at h
    split at h
    · next heq =>
      subst heq
      obtain ⟨inner, hinner, rfl⟩ := h
      exact ⟨[], inner, .nil, hinner, rfl⟩
    · next hne =>
      obtain ⟨body, inner, hbody, hinner, rfl⟩ := h
      exact ⟨c :: body, inner, .plain hc hne hbody, hinner, rfl⟩

/-! ### The search for the end

`Closes` is carried along the search in both directions: what was found closes
(`closes_of_spanDirective`), and where something closes the search has found an end no later
(`exists_spanDirective_of_closes`). The quote that is open is always a quote, never a backslash,
which is why every lemma asks for it. -/

/-- The quote that a character opens is a quote. -/
theorem isQuote_of_mem_quoteOpened {c q : Char} (h : q ∈ quoteOpened c) : isQuote q = true := by
  rw [quoteOpened] at h
  split at h
  · next hquote =>
    obtain rfl := Option.mem_some.1 h
    exact hquote
  · cases h

/-- The quote that is open behind a character of a literal was open before. -/
theorem eq_of_mem_quoteLeft {q c q' : Char} (h : q' ∈ quoteLeft q c) : q' = q := by
  rw [quoteLeft] at h
  split at h
  · cases h
  · exact (Option.mem_some.1 h).symm

variable {quote : Option Char} {cs inside rest : List Char}

/-- **What the search finds closes**, whichever literal is open where it begins. The induction needs
all three states: outside, and in a literal of either quote. -/
theorem closes_of_spanDirective (hquote : ∀ q ∈ quote, isQuote q = true)
    (h : spanDirective quote cs = some (inside, rest)) : Closes quote inside := by
  fun_induction spanDirective quote cs generalizing inside rest with
  | case1 => cases h
  | case2 cs =>
    cases h
    exact ⟨[], .nil, rfl⟩
  -- outside literals: the quote that is open behind the character is the one that it opens
  | case3 c cs _ ih =>
    obtain ⟨⟨i, r⟩, hs, hinside⟩ := Option.map_eq_some_iff.1 h
    cases hinside
    exact closes_none_cons_iff.2 (.inr (ih (fun q => isQuote_of_mem_quoteOpened) hs))
  | case4 => cases h
  | case5 q c cs ih =>
    obtain ⟨⟨i, r⟩, hs, hinside⟩ := Option.map_eq_some_iff.1 h
    cases hinside
    exact (closes_some_escaped_iff (hquote q rfl)).2 (ih hquote hs)
  -- inside a literal, at a character that no backslash takes along
  | case6 q c cs hlast hescape ih =>
    obtain ⟨⟨i, r⟩, hs, hinside⟩ := Option.map_eq_some_iff.1 h
    cases hinside
    have hc : c ≠ '\\' := by
      rintro rfl
      cases cs with
      | nil => exact hlast rfl rfl
      | cons d ds => exact hescape d ds rfl rfl
    refine (closes_some_cons_iff hc).2 (ih (fun q' hq' => ?_) hs)
    rw [eq_of_mem_quoteLeft hq']
    exact hquote q rfl

/-- **The search stops at the first end**: wherever the text may be closed, it has found an end
there or before. -/
theorem exists_spanDirective_of_closes {before : List Char}
    (hquote : ∀ q ∈ quote, isQuote q = true) (hcloses : Closes quote before)
    (hbefore : before <+: cs) :
    ∃ inside rest, spanDirective quote cs = some (inside, rest) ∧ inside <+: before := by
  -- along the search, which looks at the same characters as `before` as long as that goes on; so
  -- each case splits `before` in step with it
  fun_induction spanDirective quote cs generalizing before with
  | case1 =>
    rw [List.prefix_nil.1 hbefore] at hcloses
    exact absurd hcloses (not_closes_nil _)
  | case2 cs =>
    refine ⟨_, _, rfl, ?_⟩
    -- whatever closes here has at least the two closing braces
    obtain ⟨inner, -, rfl⟩ := hcloses
    exact List.prefix_of_prefix_length_le ⟨cs, rfl⟩ hbefore (by simp)
  | case3 c cs hbraces ih =>
    cases before with
    | nil => exact absurd hcloses (not_closes_nil _)
    | cons d before =>
      obtain ⟨rfl, htail⟩ := List.cons_prefix_cons.1 hbefore
      rcases closes_none_cons_iff.1 hcloses with ⟨rfl, rfl⟩ | hcloses
      -- closing braces here would have ended the search
      · obtain ⟨more, rfl⟩ := htail
        exact absurd rfl (hbraces more rfl)
      · obtain ⟨inside, rest, hspan, hinside⟩ :=
          ih (fun q => isQuote_of_mem_quoteOpened) hcloses htail
        exact ⟨_, _, by rw [hspan]; rfl, List.cons_prefix_cons.2 ⟨rfl, hinside⟩⟩
  -- a backslash at the very end of the source takes nothing along, and nothing closes behind it
  | case4 q =>
    cases before with
    | nil => exact absurd hcloses (not_closes_nil _)
    | cons d before =>
      obtain ⟨rfl, htail⟩ := List.cons_prefix_cons.1 hbefore
      rw [List.prefix_nil.1 htail] at hcloses
      exact absurd hcloses (not_closes_backslash (hquote q rfl))
  | case5 q c cs ih =>
    rcases before with - | ⟨d, - | ⟨e, before⟩⟩
    · exact absurd hcloses (not_closes_nil _)
    · obtain ⟨rfl, -⟩ := List.cons_prefix_cons.1 hbefore
      exact absurd hcloses (not_closes_backslash (hquote q rfl))
    · obtain ⟨rfl, htail⟩ := List.cons_prefix_cons.1 hbefore
      obtain ⟨rfl, htail'⟩ := List.cons_prefix_cons.1 htail
      obtain ⟨inside, rest, hspan, hinside⟩ :=
        ih hquote ((closes_some_escaped_iff (hquote q rfl)).1 hcloses) htail'
      exact ⟨_, _, by rw [hspan]; rfl, by simpa using hinside⟩
  | case6 q c cs hlast hescape ih =>
    have hc : c ≠ '\\' := by
      rintro rfl
      cases cs with
      | nil => exact hlast rfl rfl
      | cons d ds => exact hescape d ds rfl rfl
    cases before with
    | nil => exact absurd hcloses (not_closes_nil _)
    | cons d before =>
      obtain ⟨rfl, htail⟩ := List.cons_prefix_cons.1 hbefore
      obtain ⟨inside, rest, hspan, hinside⟩ :=
        ih (fun q' hq' => by rw [eq_of_mem_quoteLeft hq']; exact hquote q rfl)
          ((closes_some_cons_iff hc).1 hcloses) htail
      exact ⟨_, _, by rw [hspan]; rfl, List.cons_prefix_cons.2 ⟨rfl, hinside⟩⟩

/-- **What is cut off is the first complete directive**, and what is left is all behind it. No
shorter beginning of the source is one. -/
theorem spanDirective_eq_some_iff :
    spanDirective none cs = some (inside, rest) ↔
      inside ++ rest = cs ∧ IsFirstDirective ('{' :: '{' :: inside) := by
  constructor
  · intro h
    refine ⟨append_of_spanDirective h, ?_, ?_⟩
    · exact (isDirective_iff_closes _).2 (closes_of_spanDirective (by simp) h)
    -- nothing shorter is complete, since the search would have stopped there
    · intro before hbefore hdirective
      obtain ⟨shorter, rfl, hcloses⟩ := hdirective.exists_closes
      have hshorter : shorter <+: inside := by simpa using hbefore
      have hprefix : shorter <+: cs := by
        rw [← append_of_spanDirective h]
        exact hshorter.trans (List.prefix_append _ _)
      obtain ⟨i, r, hspan, hi⟩ := exists_spanDirective_of_closes (by simp) hcloses hprefix
      rw [h] at hspan
      cases hspan
      rw [hshorter.eq_of_length_le hi.length_le]
  · rintro ⟨rfl, hcomplete, hfirst⟩
    obtain ⟨i, r, hspan, hi⟩ := exists_spanDirective_of_closes (by simp)
      ((isDirective_iff_closes _).1 hcomplete) (List.prefix_append inside rest)
    have hdirective : IsDirective ('{' :: '{' :: i) :=
      (isDirective_iff_closes _).2 (closes_of_spanDirective (by simp) hspan)
    -- the search ends within `inside` and completes a directive there, and `inside` was the first
    obtain rfl : i = inside := by simpa using hfirst _ (by simpa using hi) hdirective
    obtain rfl : r = rest := List.append_cancel_left (append_of_spanDirective hspan)
    exact hspan

/-- **Nothing is cut off where no complete directive begins**, however much of the source is looked
at. -/
theorem spanDirective_eq_none_iff :
    spanDirective none cs = none ↔
      ∀ before, before <+: '{' :: '{' :: cs → ¬ IsDirective before := by
  constructor
  · intro h before hbefore hdirective
    obtain ⟨shorter, rfl, hcloses⟩ := hdirective.exists_closes
    have hshorter : shorter <+: cs := by simpa using hbefore
    obtain ⟨i, r, hspan, -⟩ := exists_spanDirective_of_closes (by simp) hcloses hshorter
    rw [h] at hspan
    cases hspan
  · intro h
    rw [Option.eq_none_iff_forall_ne_some]
    rintro ⟨inside, rest⟩ hspan
    obtain ⟨rfl, hcomplete, -⟩ := spanDirective_eq_some_iff.1 hspan
    exact h _ (by simp) hcomplete

end Stencil
