/-!
# HTML text

Text made safe to stand in HTML, between tags or in a quoted attribute: the five characters that
mean something there are written as entities. What comes out has no brackets and quotes, and every
ampersand in it begins an entity (`isSafe_escape`). Texts of that kind, and no others, come out
(`isSafe_iff`), and each is read back as the text that went in (`unescape_escape`).
-/

namespace Stencil.Text.Html

/-- How one character is written in HTML text. -/
def escapeChar (c : Char) : List Char :=
  match c with
  | '&' => "&amp;".toList
  | '<' => "&lt;".toList
  | '>' => "&gt;".toList
  | '"' => "&#34;".toList
  | '\'' => "&#39;".toList
  | c => [c]

/-- **How a text is written in HTML**, character by character: five are replaced, and all others
stay. -/
def escape (cs : List Char) : List Char :=
  cs.flatMap escapeChar

@[simp] theorem escape_append (as bs : List Char) : escape (as ++ bs) = escape as ++ escape bs :=
  List.flatMap_append

/-- The characters that are not written as themselves. Besides the markup these are the ampersands,
which would otherwise be read as the beginnings of entities. -/
def isSpecial (c : Char) : Bool :=
  c == '&' || c == '<' || c == '>' || c == '"' || c == '\''

/-- A character that is not special is written as itself. -/
theorem escapeChar_of_not_special {c : Char} (h : isSpecial c = false) : escapeChar c = [c] := by
  unfold escapeChar
  split <;> first
    | rfl
    | simp [isSpecial] at h

/-! ### Safe text

`IsSafe` speaks of the text alone, without `escape`: a browser that reads such a text meets no
markup in it, and no ampersand that it could take for anything but one of the five entities. The
property goes through concatenation, since an entity never begins in one text and ends in the next:
an ampersand has to begin a whole one where it stands (`IsSafe.append`). -/

/-- What stands for the characters that are special. -/
def entities : List (List Char) :=
  ["&amp;".toList, "&lt;".toList, "&gt;".toList, "&#34;".toList, "&#39;".toList]

/-- The characters that begin or end tags and attributes. -/
def isMarkup (c : Char) : Bool :=
  c == '<' || c == '>' || c == '"' || c == '\''

/-- **A text that is safe in HTML**, inside an element as well as in a quoted attribute. It says
what may stand in the text and not how the text came about. -/
structure IsSafe (cs : List Char) : Prop where
  /-- no markup -/
  noMarkup : ∀ c ∈ cs, isMarkup c = false
  /-- every ampersand begins an entity -/
  entity : ∀ before after, cs = before ++ '&' :: after →
    ∃ entity ∈ entities, entity <+: '&' :: after

theorem isSafe_nil : IsSafe [] where
  noMarkup := nofun
  entity before after h := by cases before <;> cases h

/-- Safe texts make a safe text. -/
theorem IsSafe.append {as bs : List Char} (ha : IsSafe as) (hb : IsSafe bs) :
    IsSafe (as ++ bs) where
  noMarkup c hc := (List.mem_append.1 hc).elim (ha.noMarkup c) (hb.noMarkup c)
  entity before after h := by
    rcases List.append_eq_append_iff.1 h with ⟨middle, hbefore, hbs⟩ | ⟨middle, has, hafter⟩
    · exact hb.entity middle after hbs
    -- the ampersand is in the second text, or else its entity is in the first
    · cases middle with
      | nil => exact hb.entity [] after hafter.symm
      | cons c middle =>
        obtain ⟨rfl, rfl⟩ := List.cons_eq_cons.1 hafter
        obtain ⟨entity, hentity, hprefix⟩ := ha.entity before middle has
        exact ⟨entity, hentity, hprefix.trans (List.prefix_append ('&' :: middle) bs)⟩

/-- A character that is not special is safe. -/
theorem isSafe_singleton {c : Char} (h : isSpecial c = false) : IsSafe [c] where
  noMarkup d hd := by
    obtain rfl := List.mem_singleton.1 hd
    simp_all [isSpecial, isMarkup]
  entity before after heq := by
    cases before with
    | nil =>
      obtain ⟨rfl, -⟩ := List.cons_eq_cons.1 heq
      cases h
    | cons d before => cases before <;> cases heq

/-- Entities are safe. -/
theorem isSafe_of_mem_entities {entity : List Char} (h : entity ∈ entities) : IsSafe entity where
  noMarkup := by
    have hall : (entities.all fun entity => entity.all fun c => !isMarkup c) = true := by decide
    intro c hc
    simpa using List.all_eq_true.1 (List.all_eq_true.1 hall entity h) c hc
  entity before after heq := by
    have htail : ∀ entity ∈ entities, '&' ∉ entity.tail := by decide
    cases before with
    | nil => exact ⟨entity, h, by rw [heq]; exact List.prefix_rfl⟩
    | cons c before =>
      -- an ampersand is nowhere but in front
      refine absurd ?_ (htail entity h)
      rw [heq]
      exact List.mem_append_right before List.mem_cons_self

theorem isSafe_escapeChar (c : Char) : IsSafe (escapeChar c) := by
  by_cases h : isSpecial c = true
  · apply isSafe_of_mem_entities
    simp only [isSpecial, Bool.or_eq_true, beq_iff_eq] at h
    rcases h with (((rfl | rfl) | rfl) | rfl) | rfl <;> decide
  · rw [Bool.not_eq_true] at h
    rw [escapeChar_of_not_special h]
    exact isSafe_singleton h

/-- **What is written in HTML is safe**, whatever the text: the replaced characters do not come
back, and an ampersand only as the beginning of an entity. -/
theorem isSafe_escape (cs : List Char) : IsSafe (escape cs) := by
  induction cs with
  | nil => exact isSafe_nil
  | cons c cs ih => exact (isSafe_escapeChar c).append ih

/-! ### Reading it back

`unescape` goes over a text once, from left to right, and each entity is read where it begins. An
ampersand is written as an entity that begins with an ampersand again, so what was written is never
mistaken for an entity that stood in the text before: reading takes back one round of writing and no
more. -/

/-- **What an HTML text says**: from left to right, each of the five entities is read as the
character it stands for, and any other character as itself. -/
def unescape : List Char → List Char
  | '&' :: 'a' :: 'm' :: 'p' :: ';' :: cs => '&' :: unescape cs
  | '&' :: 'l' :: 't' :: ';' :: cs => '<' :: unescape cs
  | '&' :: 'g' :: 't' :: ';' :: cs => '>' :: unescape cs
  | '&' :: '#' :: '3' :: '4' :: ';' :: cs => '"' :: unescape cs
  | '&' :: '#' :: '3' :: '9' :: ';' :: cs => '\'' :: unescape cs
  | c :: cs => c :: unescape cs
  | [] => []

/-- Only ampersands begin entities. -/
theorem unescape_cons {c : Char} (h : c ≠ '&') (cs : List Char) :
    unescape (c :: cs) = c :: unescape cs := by
  rw [unescape]
  all_goals exact fun _ heq => absurd heq h

/-- **A character is read back**, whatever is written behind it: either an entity that is read as a
whole, or a character that begins none. -/
theorem unescape_escapeChar_append (c : Char) (cs : List Char) :
    unescape (escapeChar c ++ cs) = c :: unescape cs := by
  unfold escapeChar
  split
  · rfl
  · rfl
  · rfl
  · rfl
  · rfl
  · next hne _ _ _ _ => exact unescape_cons hne cs

theorem escape_cons (c : Char) (cs : List Char) : escape (c :: cs) = escapeChar c ++ escape cs :=
  List.flatMap_cons

/-- **What is written in HTML is read back.** Different texts are therefore written differently. -/
theorem unescape_escape (cs : List Char) : unescape (escape cs) = cs := by
  induction cs with
  | nil => rfl
  | cons c cs ih => rw [escape_cons, unescape_escapeChar_append, ih]

/-- The end of a safe text is safe. -/
theorem IsSafe.of_suffix {as bs : List Char} (h : IsSafe bs) (hsuffix : as <:+ bs) :
    IsSafe as where
  noMarkup c hc := h.noMarkup c (hsuffix.subset hc)
  entity before after heq := by
    obtain ⟨front, rfl⟩ := hsuffix
    exact h.entity (front ++ before) after (by rw [heq, List.append_assoc])

/-- **A safe text is written again** when it has been read. What is read of it are entities and
characters that are not special; both are written as they stood there. -/
theorem IsSafe.escape_unescape {cs : List Char} (h : IsSafe cs) : escape (unescape cs) = cs := by
  fun_induction unescape cs with
  | case1 cs ih | case2 cs ih | case3 cs ih | case4 cs ih | case5 cs ih =>
    have hcs : IsSafe cs := h.of_suffix (by simp [List.suffix_cons_iff])
    rw [escape_cons, ih hcs]
    rfl
  | case6 c cs hamp hlt hgt hquot hapos ih =>
    -- an ampersand would begin an entity, and the cases before this one have read all of them
    have hc : c ≠ '&' := by
      rintro rfl
      obtain ⟨entity, hentity, more, hmore⟩ := h.entity [] cs rfl
      simp only [entities, List.mem_cons, List.not_mem_nil, or_false] at hentity
      rcases hentity with rfl | rfl | rfl | rfl | rfl
      · exact hamp more rfl (List.cons.inj hmore).2.symm
      · exact hlt more rfl (List.cons.inj hmore).2.symm
      · exact hgt more rfl (List.cons.inj hmore).2.symm
      · exact hquot more rfl (List.cons.inj hmore).2.symm
      · exact hapos more rfl (List.cons.inj hmore).2.symm
    have hplain : isSpecial c = false := by
      have hmarkup := h.noMarkup c List.mem_cons_self
      simp_all [isSpecial, isMarkup]
    rw [escape_cons, escapeChar_of_not_special hplain, ih (h.of_suffix (List.suffix_cons c cs))]
    rfl
  | case7 => rfl

/-- **The safe texts are those that are written**, each as the writing of what it is read as. -/
theorem isSafe_iff {cs : List Char} : IsSafe cs ↔ escape (unescape cs) = cs := by
  refine ⟨IsSafe.escape_unescape, fun h => ?_⟩
  rw [← h]
  exact isSafe_escape _

instance (cs : List Char) : Decidable (IsSafe cs) :=
  decidable_of_iff _ isSafe_iff.symm

example : IsSafe "a &amp;lt; b".toList ∧ ¬ IsSafe "a & b".toList := by decide

/-! ### What stays as it is

Writing never makes a text shorter, and makes it longer at every special character. So lengths tell
when a text was changed: a longer beginning is not made up for later. -/

theorem length_escapeChar_of_special {c : Char} (h : isSpecial c = true) :
    1 < (escapeChar c).length := by
  simp only [isSpecial, Bool.or_eq_true, beq_iff_eq] at h
  rcases h with (((rfl | rfl) | rfl) | rfl) | rfl <;> decide

/-- Nothing gets shorter. -/
theorem length_le_length_escape (cs : List Char) : cs.length ≤ (escape cs).length := by
  induction cs with
  | nil => exact Nat.le_refl _
  | cons c cs ih =>
    have hc : 1 ≤ (escapeChar c).length := by
      by_cases h : isSpecial c = true
      · exact Nat.le_of_lt (length_escapeChar_of_special h)
      · rw [escapeChar_of_not_special (Bool.eq_false_iff.2 h)]
        exact Nat.le_refl _
    rw [escape_cons, List.length_append, List.length_cons]
    omega

/-- **The texts without special characters are written as themselves**, and no others: a special
character makes the text longer. -/
theorem escape_eq_self_iff {cs : List Char} :
    escape cs = cs ↔ ∀ c ∈ cs, isSpecial c = false := by
  induction cs with
  | nil => exact iff_of_true rfl (by simp)
  | cons c cs ih =>
    rw [List.forall_mem_cons, ← ih, escape_cons]
    by_cases h : isSpecial c = true
    · -- the entity is longer than the character, and nothing makes up for that
      refine iff_of_false (fun heq => ?_) (by simp [h])
      have hlength := congrArg List.length heq
      have hc := length_escapeChar_of_special h
      have hcs := length_le_length_escape cs
      rw [List.length_append, List.length_cons] at hlength
      omega
    · rw [Bool.not_eq_true] at h
      rw [escapeChar_of_not_special h]
      simp [h]

end Stencil.Text.Html
