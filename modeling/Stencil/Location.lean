/-!
# Locations

Every node of a template tree, and nearly every error, says where it belongs: a
source name and a line counted from one.
-/

namespace Stencil

/-- **A place in a source**: the name the source goes by and a line, counted from one. Columns are
not kept. -/
structure Location where
  /-- the name of the source, as errors show it -/
  src : String
  /-- the line, counted from one -/
  line : Nat
  deriving DecidableEq, Repr, Inhabited

namespace Location

/-- The text of a location: source name, colon, line. -/
def text (loc : Location) : String :=
  loc.src ++ ":" ++ Nat.repr loc.line

instance : ToString Location := ⟨text⟩

end Location

end Stencil
