import Stencil.Expr.Lexeme
import Stencil.Segment.Basic

/-!
# Texts as bytes

A text in UTF-8, places in it counted in bytes, and slices between two such places. A slice asks
for places in order that stand between characters, and there is none otherwise (`slice?`); so a
slice that there is takes whole characters (`slice?_eq_some_iff`).
-/

namespace Stencil

/-- **A text in UTF-8**: one to four bytes for each character, in the order of the text. -/
def utf8 (cs : List Char) : List UInt8 :=
  cs.flatMap String.utf8EncodeChar

@[simp] theorem utf8_nil : utf8 [] = [] := rfl

@[simp] theorem utf8_cons (c : Char) (cs : List Char) :
    utf8 (c :: cs) = String.utf8EncodeChar c ++ utf8 cs := rfl

@[simp] theorem utf8_append (cs ds : List Char) : utf8 (cs ++ ds) = utf8 cs ++ utf8 ds :=
  List.flatMap_append

@[simp] theorem byteLength_nil : byteLength [] = 0 := rfl

@[simp] theorem byteLength_cons (c : Char) (cs : List Char) :
    byteLength (c :: cs) = c.utf8Size + byteLength cs := rfl

@[simp] theorem byteLength_append (cs ds : List Char) :
    byteLength (cs ++ ds) = byteLength cs + byteLength ds := by
  induction cs with
  | nil => simp
  | cons c cs ih => simp [ih, Nat.add_assoc]

@[simp] theorem length_utf8 (cs : List Char) : (utf8 cs).length = byteLength cs := by
  induction cs with
  | nil => rfl
  | cons c cs ih => simp [ih]

theorem byteLength_pos {cs : List Char} (h : cs ≠ []) : 0 < byteLength cs := by
  cases cs with
  | nil => exact absurd rfl h
  | cons c cs =>
    have := c.utf8Size_pos
    rw [byteLength_cons]
    omega

/-! ### Places between characters

A place is a number of bytes, and it may be inside a character. Whether it is can be told from the
byte that is there, since only the first byte of a character is one that a character can begin with;
`isByteBoundary_iff` says that this finds just the places between characters. -/

/-- **Whether a place is a boundary**: it is the end, or a byte that begins a character is there.
Places beyond the end are no boundaries. -/
def isByteBoundary (cs : List Char) (offset : Nat) : Bool :=
  match (utf8 cs)[offset]? with
  | some byte => decide byte.IsUTF8FirstByte
  | none => offset == byteLength cs

/-- In front of a text its beginning is a boundary. -/
theorem isByteBoundary_zero (cs : List Char) : isByteBoundary cs 0 = true := by
  cases cs with
  | nil => rfl
  | cons c cs =>
    have hlength : 0 < (String.utf8EncodeChar c).length := by simp [c.utf8Size_pos]
    rw [isByteBoundary, utf8_cons, List.getElem?_append_left hlength,
      List.getElem?_eq_getElem hlength]
    simp

/-- Inside a character there is no boundary. -/
theorem isByteBoundary_cons_of_lt {c : Char} {offset : Nat} (hpos : 0 < offset)
    (hlt : offset < c.utf8Size) (cs : List Char) : isByteBoundary (c :: cs) offset = false := by
  have hlength : offset < (String.utf8EncodeChar c).length := by simpa using hlt
  rw [isByteBoundary, utf8_cons, List.getElem?_append_left hlength,
    List.getElem?_eq_getElem hlength]
  simp [Nat.ne_of_gt hpos]

/-- Behind a character the boundaries are those of the rest. -/
theorem isByteBoundary_cons_add (c : Char) (cs : List Char) (offset : Nat) :
    isByteBoundary (c :: cs) (c.utf8Size + offset) = isByteBoundary cs offset := by
  have hlength : (String.utf8EncodeChar c).length ≤ c.utf8Size + offset := by simp
  rw [isByteBoundary, isByteBoundary, utf8_cons, List.getElem?_append_right hlength,
    String.length_utf8EncodeChar, Nat.add_sub_cancel_left]
  cases (utf8 cs)[offset]? with
  | some byte => rfl
  | none =>
    rw [byteLength_cons]
    exact Bool.eq_iff_iff.2 (by simp)

/-- **Boundaries stand between characters**: a place is one if it is as far on as the bytes of some
beginning of the text. -/
theorem isByteBoundary_iff {cs : List Char} {offset : Nat} :
    isByteBoundary cs offset = true ↔
      ∃ before after, before ++ after = cs ∧ byteLength before = offset := by
  constructor
  · intro h
    -- on the text, a place behind its first character being a place in the rest
    induction cs generalizing offset with
    | nil =>
      have hzero : offset = 0 := by simpa [isByteBoundary] using h
      exact ⟨[], [], rfl, hzero.symm⟩
    | cons c cs ih =>
      rcases Nat.lt_or_ge offset c.utf8Size with hlt | hge
      · rcases Nat.eq_zero_or_pos offset with rfl | hpos
        · exact ⟨[], c :: cs, rfl, rfl⟩
        · rw [isByteBoundary_cons_of_lt hpos hlt] at h
          cases h
      · obtain ⟨rest, rfl⟩ := Nat.exists_eq_add_of_le hge
        rw [isByteBoundary_cons_add] at h
        obtain ⟨before, after, rfl, rfl⟩ := ih h
        exact ⟨c :: before, after, rfl, rfl⟩
  · rintro ⟨before, after, rfl, rfl⟩
    induction before with
    | nil => exact isByteBoundary_zero after
    | cons c before ih =>
      rw [List.cons_append, byteLength_cons, isByteBoundary_cons_add]
      exact ih

/-! ### Slices

A slice fails where its places are amiss, so a proof that it is some text is a proof that the places
were right. All later proofs about slices go through `slice?_append`: they exhibit the text as three
pieces, with the places at their ends. -/

/-- Takes characters until a number of bytes is reached. -/
def takeBytes : Nat → List Char → List Char
  | _, [] => []
  | 0, _ => []
  | n, c :: cs => c :: takeBytes (n - c.utf8Size) cs

theorem dropBytes_append (before after : List Char) :
    dropBytes (byteLength before) (before ++ after) = after := by
  induction before with
  | nil => cases after <;> rfl
  | cons c before ih =>
    -- a character has a byte, so the number is not zero and `dropBytes` takes the character off
    obtain ⟨size, hsize⟩ := Nat.exists_eq_succ_of_ne_zero (Nat.ne_of_gt c.utf8Size_pos)
    rw [List.cons_append, byteLength_cons, hsize, Nat.succ_add, dropBytes, ← Nat.succ_add, ← hsize,
      Nat.add_sub_cancel_left, ih]
    omega

theorem takeBytes_append (before after : List Char) :
    takeBytes (byteLength before) (before ++ after) = before := by
  induction before with
  | nil => cases after <;> rfl
  | cons c before ih =>
    have hpos := c.utf8Size_pos
    rw [List.cons_append, byteLength_cons, takeBytes, Nat.add_sub_cancel_left, ih]
    omega

/-- **The slice of a text** from one place to another. There is none if the places are out of order,
or out of bounds, or inside a character. -/
def slice? (cs : List Char) (start stop : Nat) : Option (List Char) :=
  if start ≤ stop ∧ isByteBoundary cs start ∧ isByteBoundary cs stop then
    some (takeBytes (stop - start) (dropBytes start cs))
  else none

/-- **There is a slice exactly** between places in order, in bounds and between characters. -/
theorem isSome_slice?_iff (cs : List Char) (start stop : Nat) :
    (slice? cs start stop).isSome = true ↔
      start ≤ stop ∧ stop ≤ byteLength cs ∧
        isByteBoundary cs start = true ∧ isByteBoundary cs stop = true := by
  rw [slice?]
  split
  · next hsafe =>
    obtain ⟨hle, hstart, hstop⟩ := hsafe
    obtain ⟨before, after, happend, hbytes⟩ := isByteBoundary_iff.1 hstop
    -- boundaries are in bounds, so this needs no check of its own
    have hin : stop ≤ byteLength cs := by
      rw [← happend, ← hbytes, byteLength_append]
      exact Nat.le_add_right _ _
    exact iff_of_true rfl ⟨hle, hin, hstart, hstop⟩
  · next hnot =>
    refine iff_of_false Bool.false_ne_true ?_
    rintro ⟨hle, -, hstart, hstop⟩
    exact hnot ⟨hle, hstart, hstop⟩

/-- What stands between two pieces of a text is a slice of it. -/
theorem slice?_append (before middle after : List Char) :
    slice? (before ++ (middle ++ after)) (byteLength before) (byteLength (before ++ middle))
      = some middle := by
  have hstart : isByteBoundary (before ++ (middle ++ after)) (byteLength before) = true :=
    isByteBoundary_iff.2 ⟨before, middle ++ after, rfl, rfl⟩
  have hstop :
      isByteBoundary (before ++ (middle ++ after)) (byteLength (before ++ middle)) = true :=
    isByteBoundary_iff.2 ⟨before ++ middle, after, List.append_assoc .., rfl⟩
  rw [slice?, if_pos ⟨by simp, hstart, hstop⟩, dropBytes_append, byteLength_append,
    Nat.add_sub_cancel_left, takeBytes_append]

/-- **Slices are what stands between two places.** It characterizes slicing without counting bytes
inside of characters. -/
theorem slice?_eq_some_iff {cs middle : List Char} {start stop : Nat} :
    slice? cs start stop = some middle ↔
      ∃ before after, before ++ (middle ++ after) = cs ∧ byteLength before = start ∧
        byteLength (before ++ middle) = stop := by
  constructor
  · intro h
    have hslice := h
    rw [slice?] at h
    split at h
    · next hsafe =>
      obtain ⟨hle, hstart, hstop⟩ := hsafe
      -- both places cut the text, and the first of them is in front of the second
      obtain ⟨before, rest, rfl, rfl⟩ := isByteBoundary_iff.1 hstart
      obtain ⟨upTo, after, hcut, rfl⟩ := isByteBoundary_iff.1 hstop
      obtain ⟨between, rfl, rfl⟩ :
          ∃ between, upTo = before ++ between ∧ rest = between ++ after := by
        rcases List.append_eq_append_iff.1 hcut with ⟨extra, rfl, rfl⟩ | ⟨between, rfl, rfl⟩
        · -- the places are in order, so nothing is between the later and the earlier
          obtain rfl : extra = [] := by
            by_cases hne : extra = []
            · exact hne
            · have hpos := byteLength_pos hne
              rw [byteLength_append] at hle
              omega
          exact ⟨[], by simp, by simp⟩
        · exact ⟨between, rfl, rfl⟩
      rw [slice?_append] at hslice
      cases hslice
      exact ⟨before, after, rfl, rfl, rfl⟩
    · cases h
  · rintro ⟨before, after, rfl, rfl, rfl⟩
    exact slice?_append before middle after

/-! ### Slices at the ends of a text -/

theorem slice?_prefix (middle after : List Char) :
    slice? (middle ++ after) 0 (byteLength middle) = some middle :=
  slice?_append [] middle after

theorem slice?_suffix (before middle : List Char) :
    slice? (before ++ middle) (byteLength before) (byteLength (before ++ middle))
      = some middle := by
  have hslice := slice?_append before middle []
  rwa [List.append_nil] at hslice

/-- A slice from some place on is as long as what is left of the text there. -/
theorem add_byteLength_of_slice? {cs rest : List Char} {start : Nat}
    (h : slice? cs start (byteLength cs) = some rest) :
    start + byteLength rest = byteLength cs := by
  obtain ⟨before, after, -, rfl, hstop⟩ := slice?_eq_some_iff.1 h
  rw [← hstop, byteLength_append]

/-- A slice is no longer than the text. -/
theorem le_of_slice? {cs middle : List Char} {start stop : Nat}
    (h : slice? cs start stop = some middle) : stop ≤ byteLength cs := by
  obtain ⟨before, after, rfl, rfl, rfl⟩ := slice?_eq_some_iff.1 h
  simp only [byteLength_append]
  omega

end Stencil
