import Stencil.NameMap
import Stencil.Number.Basic

/-!
# Data values

The data a template is run on: null, booleans, numbers, strings, arrays, and objects, whose
fields stand in ascending order of their names.
-/

namespace Stencil

/-- **A data value.** -/
inductive Value
  /-- the absent value -/
  | null
  /-- a truth value -/
  | bool (b : Bool)
  /-- a number -/
  | number (n : Number)
  /-- a text -/
  | string (s : String)
  /-- values in a row -/
  | array (items : List Value)
  /-- values under names, by ascending name -/
  | object (fields : List (String × Value))
  deriving Repr, Inhabited

namespace Value

/-- The object of a list of fields, put in order; of two with one name the later counts. -/
def ofFields (fields : List (String × Value)) : Value :=
  .object (NameMap.ofList fields).entries

/-- **Truth of a value**: null, false, zero, and whatever is empty do not hold. All else does, a
string of blanks too. -/
def isTruthy : Value → Bool
  | .null => false
  | .bool b => b
  | .number n => !n.isZero
  | .string s => !s.isEmpty
  | .array items => !items.isEmpty
  | .object fields => !fields.isEmpty

/-! ### Equality

Values are equal if they agree everywhere; two doubles agree if their bits do. -/

mutual

/-- Whether two values agree everywhere. -/
def same : Value → Value → Bool
  | .null, .null => true
  | .bool b, .bool b' => b == b'
  | .number n, .number n' => n == n'
  | .string s, .string s' => s == s'
  | .array vs, .array vs' => sameItems vs vs'
  | .object fs, .object fs' => sameFields fs fs'
  | _, _ => false

/-- Whether two rows of values agree everywhere. -/
def sameItems : List Value → List Value → Bool
  | [], [] => true
  | v :: vs, v' :: vs' => same v v' && sameItems vs vs'
  | _, _ => false

/-- Whether two rows of fields agree everywhere. -/
def sameFields : List (String × Value) → List (String × Value) → Bool
  | [], [] => true
  | (k, v) :: fs, (k', v') :: fs' => k == k' && same v v' && sameFields fs fs'
  | _, _ => false

end

mutual

theorem same_iff : ∀ a b : Value, same a b = true ↔ a = b
  | .null, b => by cases b <;> simp [same]
  | .bool _, b => by cases b <;> simp [same]
  | .number _, b => by cases b <;> simp [same]
  | .string _, b => by cases b <;> simp [same]
  | .array vs, b => by cases b <;> simp [same, sameItems_iff vs]
  | .object fs, b => by cases b <;> simp [same, sameFields_iff fs]

theorem sameItems_iff : ∀ as bs : List Value, sameItems as bs = true ↔ as = bs
  | [], bs => by cases bs <;> simp [sameItems]
  | a :: as, bs => by cases bs <;> simp [sameItems, same_iff a, sameItems_iff as]

theorem sameFields_iff : ∀ as bs : List (String × Value), sameFields as bs = true ↔ as = bs
  | [], bs => by cases bs <;> simp [sameFields]
  | (k, v) :: fs, bs => by
    cases bs with
    | nil => simp [sameFields]
    | cons b bs =>
      obtain ⟨k', v'⟩ := b
      simp [sameFields, same_iff v, sameFields_iff fs, and_assoc]

end

instance : DecidableEq Value := fun a b => decidable_of_iff _ (same_iff a b)

end Value

end Stencil
