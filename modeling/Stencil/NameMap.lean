/-!
# Maps from names

A finite map from names, kept as a list of entries in strictly ascending order of
names, by code points. The order is part of the type, so a map has exactly one
representation: two maps that answer every lookup alike are equal (`ext_find?`). The
insertion on bare entry lists is shared with the objects of data values, which keep the same order.
-/

namespace Stencil

universe u

variable {α : Type u}

namespace Entries

/-- Entries in strictly ascending order of their names. Strictly: no name has two entries, so it
does not matter which one a lookup finds first. -/
def Ascending (entries : List (String × α)) : Prop :=
  entries.Pairwise fun a b => a.1 < b.1

/-- Puts an entry where the order wants it, in place of one of the same name. -/
def insert (name : String) (value : α) : List (String × α) → List (String × α)
  | [] => [(name, value)]
  | (other, kept) :: rest =>
    if name < other then (name, value) :: (other, kept) :: rest
    else if name = other then (name, value) :: rest
    else (other, kept) :: insert name value rest

/-- An inserted entry list holds the new entry and old ones. An old one of the same name is gone, so
the converse does not hold. -/
theorem mem_of_mem_insert {name : String} {value : α} {entries : List (String × α)}
    {entry : String × α} (h : entry ∈ insert name value entries) :
    entry = (name, value) ∨ entry ∈ entries := by
  induction entries with
  | nil => simpa [insert] using h
  | cons head rest ih =>
    rw [insert] at h
    split at h
    · simpa using h
    · split at h
      · simp only [List.mem_cons] at h ⊢
        exact h.imp_right Or.inr
      · simp only [List.mem_cons] at h ⊢
        rcases h with h | h
        · exact .inr (.inl h)
        · exact (ih h).imp_right Or.inr

/-- Insertion keeps the order. -/
theorem ascending_insert {name : String} {value : α} {entries : List (String × α)}
    (h : Ascending entries) : Ascending (insert name value entries) := by
  induction entries with
  | nil => exact List.pairwise_singleton ..
  | cons head rest ih =>
    obtain ⟨hhead, hrest⟩ := List.pairwise_cons.1 h
    rw [insert]
    split
    · next hlt =>
      refine List.pairwise_cons.2 ⟨fun entry hentry => ?_, h⟩
      rcases List.mem_cons.1 hentry with rfl | hentry
      · exact hlt
      · exact String.lt_trans hlt (hhead entry hentry)
    · next hnlt =>
      split
      · next heq =>
        subst heq
        exact List.pairwise_cons.2 ⟨hhead, hrest⟩
      · next hne =>
        refine List.pairwise_cons.2 ⟨fun entry hentry => ?_, ih hrest⟩
        -- what stands in the tail now is the new entry or an old one, and the head is below both
        rcases mem_of_mem_insert hentry with rfl | hentry
        · refine Classical.byContradiction fun hn => hne ?_
          exact String.le_antisymm (String.not_lt.1 hn) (String.not_lt.1 hnlt)
        · exact hhead entry hentry

/-- Lookup decides on the first entry's name. -/
theorem lookup_cons (entry : String × α) (rest : List (String × α)) (name : String) :
    (entry :: rest).lookup name = if name = entry.1 then some entry.2 else rest.lookup name := by
  by_cases h : name = entry.1
  · rw [if_pos h, h]
    exact List.lookup_cons_self
  · rw [if_neg h, List.lookup_cons, beq_false_of_ne h]

/-- What is looked up among changed values is changed. -/
theorem lookup_map {β : Type u} (change : α → β) (entries : List (String × α)) (name : String) :
    (entries.map fun entry => (entry.1, change entry.2)).lookup name
      = (entries.lookup name).map change := by
  induction entries with
  | nil => rfl
  | cons entry entries ih =>
    rw [List.map_cons, lookup_cons, lookup_cons, ih]
    split <;> rfl

/-- A name below every entry has none. -/
theorem lookup_eq_none_of_lt {name : String} {entries : List (String × α)}
    (h : ∀ entry ∈ entries, name < entry.1) : entries.lookup name = none := by
  induction entries with
  | nil => rfl
  | cons head rest ih =>
    have hne : name ≠ head.1 := fun he =>
      String.lt_irrefl _ (he ▸ h head List.mem_cons_self)
    rw [lookup_cons, if_neg hne]
    exact ih fun entry hentry => h entry (List.mem_cons_of_mem _ hentry)

/-- Of entries in order, those that are looked up are all. No name stands twice, so none is hidden
behind another. -/
theorem lookup_eq_some_iff {name : String} {value : α} {entries : List (String × α)}
    (h : Ascending entries) : entries.lookup name = some value ↔ (name, value) ∈ entries := by
  induction entries with
  | nil => simp
  | cons head rest ih =>
    obtain ⟨hhead, hrest⟩ := List.pairwise_cons.1 h
    rw [lookup_cons, List.mem_cons, ← ih hrest, Prod.ext_iff]
    split
    · next heq =>
      rw [heq, lookup_eq_none_of_lt hhead]
      simp [eq_comm]
    · next hne => simp [hne]

/-- Insertion changes the lookup of its own name only. -/
theorem lookup_insert {name : String} {value : α} {entries : List (String × α)} (other : String) :
    (insert name value entries).lookup other
      = if other = name then some value else entries.lookup other := by
  induction entries with
  | nil => exact lookup_cons ..
  | cons head rest ih =>
    rw [insert]
    split
    · exact lookup_cons ..
    · split
      · next heq =>
        subst heq
        -- the entry of the same name is replaced where it stands
        by_cases ho : other = head.1 <;> simp [lookup_cons, ho]
      · next hne =>
        by_cases ho : other = name
        · subst ho
          simp [lookup_cons, ih, hne]
        · simp [lookup_cons, ih, ho]

/-- Entries in order that answer every lookup alike are the same entries: the least name with an
answer is the first name of both. -/
theorem eq_of_lookup_eq {as bs : List (String × α)} (ha : Ascending as) (hb : Ascending bs)
    (h : ∀ name, as.lookup name = bs.lookup name) : as = bs := by
  induction as generalizing bs with
  | nil =>
    cases bs with
    | nil => rfl
    | cons b bs => simpa [lookup_cons] using h b.1
  | cons a as ih =>
    obtain ⟨hahead, harest⟩ := List.pairwise_cons.1 ha
    cases bs with
    | nil => simpa [lookup_cons] using h a.1
    | cons b bs =>
      obtain ⟨hbhead, hbrest⟩ := List.pairwise_cons.1 hb
      obtain ⟨name, value⟩ := a
      obtain ⟨other, kept⟩ := b
      -- the smaller of two first names would be looked up in one list and not in the other
      have hname : name = other := by
        refine Classical.byContradiction fun hne => ?_
        rcases String.le_total name other with hle | hle
        · have hlt : name < other := Classical.byContradiction fun hn =>
            hne (String.le_antisymm hle (String.not_lt.1 hn))
          have hnone : bs.lookup name = none :=
            lookup_eq_none_of_lt fun entry hentry => String.lt_trans hlt (hbhead entry hentry)
          simpa [lookup_cons, hne, hnone] using h name
        · have hlt : other < name := Classical.byContradiction fun hn =>
            hne (String.le_antisymm (String.not_lt.1 hn) hle)
          have hnone : as.lookup other = none :=
            lookup_eq_none_of_lt fun entry hentry => String.lt_trans hlt (hahead entry hentry)
          simpa [lookup_cons, Ne.symm hne, hnone] using h other
      subst hname
      have hvalue := h name
      simp only [lookup_cons, if_true, Option.some.injEq] at hvalue
      subst hvalue
      congr 1
      -- in the tails the name is missing on both sides, and all others are looked up as before
      refine ih harest hbrest fun key => ?_
      by_cases hkey : key = name
      · subst hkey
        rw [lookup_eq_none_of_lt hahead, lookup_eq_none_of_lt hbhead]
      · simpa [lookup_cons, hkey] using h key

end Entries

/-- **A finite map from names**, its entries in ascending order. The order makes the entries of a
map the only ones that it can have, so maps with the same lookups are equal. -/
structure NameMap (α : Type u) where
  /-- the entries, by ascending name -/
  entries : List (String × α)
  /-- no name twice, and all in order -/
  ascending : Entries.Ascending entries

namespace NameMap

/-- The map without entries. -/
def empty : NameMap α := ⟨[], List.Pairwise.nil⟩

instance : EmptyCollection (NameMap α) := ⟨empty⟩
instance : Inhabited (NameMap α) := ⟨empty⟩

/-- The value under a name. -/
def find? (m : NameMap α) (name : String) : Option α :=
  m.entries.lookup name

/-- Whether there is a value under a name. -/
def contains (m : NameMap α) (name : String) : Bool :=
  (m.find? name).isSome

/-- The names, in ascending order. -/
def names (m : NameMap α) : List String :=
  m.entries.map (·.1)

/-- Puts a value under a name, in place of the one that is there. -/
def insert (m : NameMap α) (name : String) (value : α) : NameMap α :=
  ⟨Entries.insert name value m.entries, Entries.ascending_insert m.ascending⟩

/-- The map of a list of entries; of two with one name the later counts, as if they were put in one
after the other. -/
def ofList (entries : List (String × α)) : NameMap α :=
  entries.foldl (fun m entry => m.insert entry.1 entry.2) empty

@[simp] theorem find?_empty (name : String) : (empty : NameMap α).find? name = none := rfl

theorem find?_insert (m : NameMap α) (name other : String) (value : α) :
    (m.insert name value).find? other = if other = name then some value else m.find? other :=
  Entries.lookup_insert other

@[simp] theorem find?_insert_self (m : NameMap α) (name : String) (value : α) :
    (m.insert name value).find? name = some value := by
  simp [find?_insert]

/-- What has no value is no name. -/
theorem find?_eq_none_iff {m : NameMap α} {name : String} :
    m.find? name = none ↔ name ∉ m.names := by
  rw [find?, names, List.lookup_eq_none_iff, List.mem_map]
  constructor
  · rintro h ⟨entry, hentry, rfl⟩
    exact absurd (h entry hentry) (by simp)
  · intro h entry hentry
    exact bne_iff_ne.2 fun heq => h ⟨entry, hentry, heq.symm⟩

/-- **One representation**: maps that answer every lookup alike are equal. So sets of templates may
be compared by their lookups, without a word about the order in which they were built. -/
theorem ext_find? {m n : NameMap α} (h : ∀ name, m.find? name = n.find? name) : m = n := by
  obtain ⟨as, ha⟩ := m
  obtain ⟨bs, hb⟩ := n
  obtain rfl : as = bs := Entries.eq_of_lookup_eq ha hb h
  rfl

end NameMap

end Stencil
