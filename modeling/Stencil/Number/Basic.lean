import Stencil.Number.Shortest

/-!
# Numbers

A number is an integer or a double, and which of the two it is shows: the integer one is
written `1`, the double `1.0`. Doubles are written with their shortest digits, positionally
while the leading digit stands between the fifth decimal and the sixteenth place before
the point, otherwise with an exponent.
-/

namespace Stencil

/-- **A number**, kept as what it was given as. An integer and a whole double print differently,
hence they are not the same number here. -/
inductive Number
  /-- an integer -/
  | int (n : Int)
  /-- a double, also when it is whole -/
  | double (d : Double)
  deriving DecidableEq, Repr, Inhabited

/-- The decimal digits of a natural number. -/
def decimalDigits (n : Nat) : List Char :=
  Nat.toDigits 10 n

/-- An integer in decimal. -/
def integerText (n : Int) : List Char :=
  if n < 0 then '-' :: decimalDigits n.natAbs else decimalDigits n.natAbs

namespace Decimal

/-- The power of ten that the first digit counts. -/
def leading (x : Decimal) : Int :=
  x.exponent + (decimalDigits x.digits).length - 1

/-- **Positional notation**: always with a point, and at least one digit on both sides of it. The
digits are those of the decimal, with zeros where it has none. -/
def positional (x : Decimal) : List Char :=
  let digits := decimalDigits x.digits
  if 0 ≤ x.exponent then
    digits ++ List.replicate x.exponent.toNat '0' ++ ['.', '0']
  else if 0 ≤ x.leading then
    let whole := x.leading.toNat + 1
    digits.take whole ++ '.' :: digits.drop whole
  else
    '0' :: '.' :: (List.replicate (-x.leading - 1).toNat '0' ++ digits)

/-- **Exponent notation**: one digit before the point, no point if that is all, and an
exponent that shows its sign and has no leading zeros. -/
def scientific (x : Decimal) : List Char :=
  let digits := decimalDigits x.digits
  let fraction := if digits.length ≤ 1 then [] else '.' :: digits.drop 1
  let sign := if x.leading < 0 then '-' else '+'
  digits.take 1 ++ fraction ++ 'e' :: sign :: decimalDigits x.leading.natAbs

/-- Positional notation while the leading digit counts a power of ten from -5 to 15. -/
def text (x : Decimal) : List Char :=
  if -5 ≤ x.leading ∧ x.leading ≤ 15 then x.positional else x.scientific

end Decimal

/-- A double in decimal: its sign, zero with one decimal, and anything else with its shortest
digits. -/
def Double.text (d : Double) : List Char :=
  let magnitude := if d.isZero then ['0', '.', '0'] else d.shortest.text
  if d.isNegative then '-' :: magnitude else magnitude

namespace Number

/-- The text of a number. -/
def text : Number → String
  | .int n => String.ofList (integerText n)
  | .double d => String.ofList d.text

/-- Whether a number is zero, of either sign. -/
def isZero : Number → Bool
  | .int n => n == 0
  | .double d => d.isZero

end Number

end Stencil
