/-!
# Line endings

A source may end its lines with a line feed, a carriage return, or the pair of both.
`normalize` turns every ending into one line feed, so that from there on a line is
counted by line feeds alone (`newlines`).
-/

namespace Stencil.Text

/-- The number of line feeds in a text. -/
def newlines (cs : List Char) : Nat :=
  cs.count '\n'

@[simp] theorem newlines_nil : newlines [] = 0 := rfl

@[simp] theorem newlines_append (as bs : List Char) :
    newlines (as ++ bs) = newlines as + newlines bs :=
  List.count_append

/-- Drops each carriage return that stands right before a line feed. Pairs are taken from the left,
so of two carriage returns before a line feed only the second one goes. -/
def joinPairs : List Char → List Char
  | '\r' :: '\n' :: cs => '\n' :: joinPairs cs
  | c :: cs => c :: joinPairs cs
  | [] => []

/-- A carriage return read as a line feed, any other character as itself. -/
def returnToFeed (c : Char) : Char :=
  if c = '\r' then '\n' else c

/-- **Normalized line endings**: first each pair of carriage return and line feed becomes one line
feed, then each carriage return that is left. The order matters: the other way round a pair would
become two line feeds, and count as two lines. -/
def normalize (cs : List Char) : List Char :=
  (joinPairs cs).map returnToFeed

@[simp] theorem returnToFeed_ne_return (c : Char) : returnToFeed c ≠ '\r' := by
  unfold returnToFeed
  split
  · decide
  · assumption

theorem return_notMem_normalize (cs : List Char) : '\r' ∉ normalize cs := by
  simp [normalize]

/-- Text without a carriage return has nothing to join. -/
theorem joinPairs_eq_self {cs : List Char} (h : '\r' ∉ cs) : joinPairs cs = cs := by
  fun_induction joinPairs cs with
  | case1 cs ih => simp at h
  | case2 c cs _ ih => simp_all
  | case3 => rfl

/-- Text without a carriage return is normalized already. -/
theorem normalize_eq_self {cs : List Char} (h : '\r' ∉ cs) : normalize cs = cs := by
  have keep : ∀ c ∈ cs, returnToFeed c = id c := fun c hc =>
    if_neg fun (e : c = '\r') => h (e ▸ hc)
  rw [normalize, joinPairs_eq_self h, List.map_congr_left keep, List.map_id]

theorem normalize_normalize (cs : List Char) : normalize (normalize cs) = normalize cs :=
  normalize_eq_self (return_notMem_normalize cs)

/-! ### One ending after the other

`normalize` goes over its text twice, so it has no equations by the first character of its own.
These are the ones it would have if it took one ending after the other; all later proofs about line
endings go by them, and neither pass is unfolded again. -/

/-- A pair is one ending. -/
theorem normalize_pair (cs : List Char) : normalize ('\r' :: '\n' :: cs) = '\n' :: normalize cs :=
  rfl

/-- So is a carriage return that no line feed comes right after. -/
theorem normalize_loneReturn {cs : List Char} (h : cs.head? ≠ some '\n') :
    normalize ('\r' :: cs) = '\n' :: normalize cs := by
  rw [normalize, joinPairs]
  · rfl
  · rintro ds - rfl
    exact h rfl

/-- All other characters stay, a line feed among them: the pair of which it is the second character
was taken before it could come first. -/
theorem normalize_cons {c : Char} (h : c ≠ '\r') (cs : List Char) :
    normalize (c :: cs) = c :: normalize cs := by
  rw [normalize, joinPairs, List.map_cons, returnToFeed, if_neg h, normalize]
  exact fun _ heq => absurd heq h

/-! ### Texts one after the other

A text may be cut between the two characters of a pair. Then each part ends a line there, while the
whole has one line less than both parts together. Nowhere else does it matter where a text is
cut. -/

/-- Texts are joined apart, where no pair lies across their seam. Only the first pass can see the
seam at all: the second one looks at single characters. -/
theorem joinPairs_append {as bs : List Char}
    (h : as.getLast? = some '\r' → bs.head? ≠ some '\n') :
    joinPairs (as ++ bs) = joinPairs as ++ joinPairs bs := by
  -- by the pairs of the first text: the condition on the seam looks at its last character only, and
  -- so passes to every tail that has one
  fun_induction joinPairs as with
  | case1 cs ih =>
    have hlast : cs.getLast? = some '\r' → bs.head? ≠ some '\n' := by
      intro hcs
      exact h (by simp [List.getLast?_cons, hcs])
    rw [List.cons_append, List.cons_append, joinPairs, ih hlast, List.cons_append]
  | case2 c cs hpair ih =>
    have hlast : cs.getLast? = some '\r' → bs.head? ≠ some '\n' := by
      intro hcs
      exact h (by simp [List.getLast?_cons, hcs])
    rw [List.cons_append, joinPairs, ih hlast, List.cons_append]
    -- a pair at the beginning would lie across the seam
    rintro ds rfl hds
    cases cs with
    | nil => exact h rfl (by rw [show bs = '\n' :: ds from hds]; rfl)
    | cons d cs =>
      obtain ⟨rfl, -⟩ := List.cons.inj hds
      exact hpair cs rfl rfl
  | case3 => rfl

/-- Texts are normalized apart, where no pair lies across their seam. -/
theorem normalize_append_of_seam {as bs : List Char}
    (h : as.getLast? = some '\r' → bs.head? ≠ some '\n') :
    normalize (as ++ bs) = normalize as ++ normalize bs := by
  rw [normalize, joinPairs_append h, List.map_append, normalize, normalize]

/-- **Texts with a pair across their seam** share its line feed: each of them has one there, and
both together have one. -/
theorem normalize_append_of_pair {as bs : List Char} (hlast : as.getLast? = some '\r')
    (hhead : bs.head? = some '\n') :
    ∃ front back, normalize as = front ++ ['\n'] ∧ normalize bs = '\n' :: back ∧
      normalize (as ++ bs) = front ++ '\n' :: back := by
  obtain ⟨init, rfl⟩ := List.getLast?_eq_some_iff.1 hlast
  obtain ⟨ds, rfl⟩ := List.head?_eq_some_iff.1 hhead
  have hinit (cs : List Char) :
      normalize (init ++ '\r' :: cs) = normalize init ++ normalize ('\r' :: cs) :=
    normalize_append_of_seam fun _ => by simp
  refine ⟨normalize init, normalize ds, hinit [], normalize_cons (by decide) ds, ?_⟩
  rw [List.append_assoc, List.singleton_append, hinit, normalize_pair]

/-- **Texts are normalized apart**, but for a pair across their seam: of its two endings, the second
one is lost. -/
theorem normalize_append (as bs : List Char) :
    normalize (as ++ bs) = normalize as ++ normalize bs ∨
      ∃ ds, normalize bs = '\n' :: ds ∧ normalize (as ++ bs) = normalize as ++ ds := by
  by_cases hseam : as.getLast? = some '\r' → bs.head? ≠ some '\n'
  · exact .inl (normalize_append_of_seam hseam)
  · obtain ⟨hlast, hhead⟩ : as.getLast? = some '\r' ∧ bs.head? = some '\n' := by
      simpa using hseam
    obtain ⟨front, back, has, hbs, hboth⟩ := normalize_append_of_pair hlast hhead
    refine .inr ⟨back, hbs, ?_⟩
    rw [hboth, has, List.append_assoc, List.singleton_append]

end Stencil.Text
