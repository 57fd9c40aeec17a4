import Stencil.Expr.Reader
import Stencil.Node.Source

/-!
# Identifiers and property chains

A property chain is written with a dot before each of its properties. As no identifier holds a dot,
the chain can be read off what is written: `path?` accepts exactly the written forms of chains of
identifiers (`path?_eq_some_iff`), and two chains that are written alike are the same
(`pathSource_inj`).
-/

namespace Stencil

/-! ### Identifiers

What is used of identifiers is that they are not empty, begin with a letter and hold no delimiter
and no dot. -/

/-- A letter or digit is no other character. -/
theorem ne_of_isAlphanumeric {c d : Char} (h : isAlphanumeric c = true)
    (hd : isAlphanumeric d = false) : c ≠ d := by
  rintro rfl
  rw [h] at hd
  cases hd

/-- ASCII letters and digits are no delimiters. -/
theorem isWordChar_of_isAlphanumeric {c : Char} (h : isAlphanumeric c = true) :
    isWordChar c = true := by
  have delimiters : [' ', '\t', '\n', '\r', '\'', '"', '(', ')', '|', ','].all
      (fun d => !isAlphanumeric d) = true := rfl
  have hne : ∀ d ∈ [' ', '\t', '\n', '\r', '\'', '"', '(', ')', '|', ','], c ≠ d := by
    intro d hd
    have hdelimiter := List.all_eq_true.1 delimiters d hd
    rw [Bool.not_eq_true'] at hdelimiter
    exact ne_of_isAlphanumeric h hdelimiter
  simp only [List.mem_cons, List.not_mem_nil, forall_eq_or_imp] at hne
  simp [isWordChar, Text.isSpacing, Text.Literal.isQuote, hne]

/-- An identifier consists of ASCII letters and digits. -/
theorem isAlphanumeric_of_mem {c : Char} {cs : List Char} (h : isIdentifier cs = true)
    (hc : c ∈ cs) : isAlphanumeric c = true := by
  cases cs with
  | nil => cases hc
  | cons d ds =>
    simp only [isIdentifier, Bool.and_eq_true, List.all_eq_true] at h
    rcases List.mem_cons.1 hc with rfl | hc
    · simp [isAlphanumeric, h.1]
    · exact h.2 c hc

/-- An identifier begins with an ASCII letter. -/
theorem exists_letter_of_isIdentifier {cs : List Char} (h : isIdentifier cs = true) :
    ∃ c ds, cs = c :: ds ∧ isLetter c = true := by
  cases cs with
  | nil => cases h
  | cons c ds =>
    simp only [isIdentifier, Bool.and_eq_true] at h
    exact ⟨c, ds, rfl, h.1⟩

theorem dot_notMem_of_isIdentifier {cs : List Char} (h : isIdentifier cs = true) : '.' ∉ cs :=
  fun hdot => absurd (isAlphanumeric_of_mem h hdot) (by decide)

/-! ### Property chains

A chain is written with a dot in front of each property and split at its dots when it is read. Since
no property has a dot in it the two undo each other; the chain without properties is a single dot
and has no parts. -/

namespace Expr

/-- The parts between the dots are what core's splitting gives. -/
theorem dotParts_eq_splitOn (cs : List Char) : dotParts cs = cs.splitOn '.' := by
  induction cs with
  | nil => rfl
  | cons c cs ih =>
    rw [dotParts, List.splitOn_cons_eq_if_modifyHead, ih]
    by_cases hc : c = '.'
    · simp [hc]
    · cases hs : cs.splitOn '.' with
      | nil => simp at hs
      | cons part parts => simp [hc]

/-- What is written for a chain of properties without dots has these properties for its parts. -/
theorem dotParts_tail_pathSource {path : List String} (hne : path ≠ [])
    (hdot : ∀ property ∈ path, '.' ∉ property.toList) :
    dotParts (Node.pathSource path).tail = path.map String.toList := by
  rw [dotParts_eq_splitOn, Node.pathSource, List.tail_cons]
  refine List.splitOn_intercalate '.' (fun part hpart => ?_) (by simpa using hne)
  obtain ⟨property, hmem, rfl⟩ := List.mem_map.1 hpart
  exact hdot property hmem

/-- **What is written for a chain reads back as that chain**, the empty one included. -/
theorem path?_tail_pathSource {path : List String}
    (h : ∀ property ∈ path, isIdentifier property.toList = true) :
    path? (Node.pathSource path).tail = some path := by
  cases path with
  | nil => rfl
  | cons property path =>
    have hparts := dotParts_tail_pathSource (List.cons_ne_nil property path) fun p hp =>
      dot_notMem_of_isIdentifier (h p hp)
    -- behind its first dot a chain with a property is not empty, so it is not the single dot
    have hne : (Node.pathSource (property :: path)).tail ≠ [] := by
      intro hnil
      rw [hnil] at hparts
      obtain ⟨c, ds, hcs, -⟩ := exists_letter_of_isIdentifier (h property List.mem_cons_self)
      simp [dotParts, hcs] at hparts
    have hall : ((property :: path).map String.toList).all isIdentifier = true := by
      simpa using h
    rw [path?, if_neg (by simpa using hne), hparts, if_pos hall]
    simp

/-- Only what is written for chains of identifiers reads as a chain. -/
theorem eq_pathSource_of_path? {cs : List Char} {path : List String} (h : path? cs = some path) :
    '.' :: cs = Node.pathSource path
      ∧ ∀ property ∈ path, isIdentifier property.toList = true := by
  unfold path? at h
  split at h
  · next hnil =>
    obtain rfl : [] = path := Option.some.inj h
    rw [List.isEmpty_iff.1 hnil]
    exact ⟨rfl, by simp⟩
  · split at h
    · next hall =>
      obtain rfl := Option.some.inj h
      refine ⟨?_, by simpa using hall⟩
      have hjoin : (['.'].intercalate (cs.splitOn '.')) = cs := List.intercalate_splitOn '.'
      simp only [Node.pathSource, List.map_map, Function.comp_def, String.toList_ofList,
        List.map_id', dotParts_eq_splitOn]
      exact congrArg _ hjoin.symm
    · cases h

/-- **Property chains**: after its first dot, a word reads as a chain of properties exactly if it is
what is written for that chain, and all properties are identifiers. -/
theorem path?_eq_some_iff {cs : List Char} {path : List String} :
    path? cs = some path ↔
      '.' :: cs = Node.pathSource path ∧
        ∀ property ∈ path, isIdentifier property.toList = true := by
  refine ⟨eq_pathSource_of_path?, ?_⟩
  rintro ⟨hcs, hpath⟩
  rw [show cs = (Node.pathSource path).tail from congrArg List.tail hcs]
  exact path?_tail_pathSource hpath

/-- Chains of identifiers that are written alike are the same. -/
theorem pathSource_inj {path other : List String}
    (hpath : ∀ property ∈ path, isIdentifier property.toList = true)
    (hother : ∀ property ∈ other, isIdentifier property.toList = true)
    (h : Node.pathSource path = Node.pathSource other) : path = other := by
  have hread := path?_tail_pathSource hpath
  rw [h, path?_tail_pathSource hother] at hread
  exact (Option.some.inj hread).symm

end Expr

end Stencil
