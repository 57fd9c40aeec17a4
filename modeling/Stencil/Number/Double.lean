/-!
# Double-precision numbers

A finite binary number of 64 bits: a sign, eleven bits of exponent and 52 of fraction. Its
magnitude is `significand · 2 ^ exponent` (both read off the bits), and the reals
that round to it lie between two neighbours, given in quarters of a unit in the last place
(`lowQuarters`, `highQuarters`).
-/

namespace Stencil

/-- The eleven exponent bits of a 64-bit pattern. -/
def exponentField (bits : UInt64) : Nat :=
  (bits.toNat >>> 52) % 2048

/-- The 52 fraction bits of a 64-bit pattern. -/
def fractionField (bits : UInt64) : Nat :=
  bits.toNat % (1 <<< 52)

/-- **A finite double**: a bit pattern whose exponent is not the one kept for infinities
and for what is not a number. -/
structure Double where
  /-- the sign, exponent and fraction bits -/
  bits : UInt64
  /-- the exponent is an ordinary one -/
  finite : exponentField bits ≠ 2047
  deriving DecidableEq

namespace Double

/-- The double of a bit pattern, if it is finite. -/
def ofBits? (bits : UInt64) : Option Double :=
  if h : exponentField bits ≠ 2047 then some ⟨bits, h⟩ else none

/-- Positive zero. -/
def zero : Double := ⟨0, by decide⟩

instance : Inhabited Double := ⟨zero⟩

instance : Repr Double := ⟨fun d _ => repr d.bits⟩

/-- Whether the sign bit is set; it is for negative zero also. -/
def isNegative (d : Double) : Bool :=
  d.bits.toNat >>> 63 == 1

/-- The integer that the power of two is multiplied with: the fraction, with a leading one
unless the exponent bits are all zero. -/
def significand (d : Double) : Nat :=
  if exponentField d.bits = 0 then fractionField d.bits
  else (1 <<< 52) + fractionField d.bits

/-- The power of two that the significand is multiplied with. -/
def exponent (d : Double) : Int :=
  (max 1 (exponentField d.bits) : Nat) - 1075

/-- Zero of either sign. -/
def isZero (d : Double) : Bool :=
  d.significand == 0

/-- The magnitude in quarters of a unit in the last place. -/
def quarters (d : Double) : Nat :=
  4 * d.significand

/-- The upper end of the reals that round to the magnitude: half a unit above. -/
def highQuarters (d : Double) : Nat :=
  d.quarters + 2

/-- The lower end: half a unit below, or a quarter at a power of two, below which the doubles lie
twice as dense. -/
def lowQuarters (d : Double) : Nat :=
  if fractionField d.bits = 0 ∧ 1 < exponentField d.bits then d.quarters - 1
  else d.quarters - 2

/-- Whether the two ends themselves round to the magnitude: ties go to the even significand. -/
def endsIncluded (d : Double) : Bool :=
  d.significand % 2 == 0

end Double

end Stencil
