import Stencil.Number.Double

/-!
# Shortest decimals

Of the decimals that round to a double, `shortest` picks one with the fewest digits, and of
those the nearest. It walks the decimal grids from coarse to fine; a decimal with
fewer digits lies on a coarser grid, so the first grid with a hit decides. On a grid only the two
neighbours of the magnitude are tried: if any point of it rounds to the double,
one of these does.
-/

namespace Stencil

/-- **A decimal**: an integer times a power of ten. The same value may be written with trailing
zeros in the integer or without. -/
structure Decimal where
  /-- the integer -/
  digits : Nat
  /-- the power of ten it is multiplied with -/
  exponent : Int
  deriving DecidableEq, Repr

namespace Double

/-- Two factors that bring a double and a grid of step `10 ^ grid` to one scale: so many quarters of
a unit times the first make as much as so many steps of the grid times the second. -/
def gridScale (d : Double) (grid : Int) : Nat × Nat :=
  let power := d.exponent - 2
  (Nat.pow 2 power.toNat * Nat.pow 10 (-grid).toNat,
    Nat.pow 2 (-power).toNat * Nat.pow 10 grid.toNat)

/-- Whether one number lies below another, or is equal to it where ends are included. -/
def within (closed : Bool) (a b : Nat) : Bool :=
  if closed then a ≤ b else a < b

/-- **The point of a grid** that stands for the double: the neighbour of the magnitude that
rounds to it; of two such the nearer, and of two equally near the even one. -/
def gridPoint? (d : Double) (grid : Int) : Option Nat :=
  let (num, den) := d.gridScale grid
  let magnitude := d.quarters * num
  let down := magnitude / den
  let up := down + 1
  let downFits := within d.endsIncluded (d.lowQuarters * num) (down * den)
  let upFits := within d.endsIncluded (up * den) (d.highQuarters * num)
  if downFits && upFits then
    let below := magnitude - down * den
    let above := up * den - magnitude
    if below < above then some down
    else if above < below then some up
    else if down % 2 = 0 then some down
    else some up
  else if downFits then some down
  else if upFits then some up
  else none

/-- The first hit on the grids of step `10 ^ (k - 324)` and finer. The last of them is finer than
the doubles nearest to zero, so every double has a point on it. -/
def searchGrids (d : Double) : Nat → Decimal
  | 0 => ⟨(d.gridPoint? (-324)).getD 0, -324⟩
  | k + 1 =>
    let grid : Int := (k + 1 : Nat) - 324
    match d.gridPoint? grid with
    | some digits => ⟨digits, grid⟩
    | none => d.searchGrids k

/-- **The shortest decimal** that rounds to the magnitude of a double that is not zero. The
walk begins with a step above every double. -/
def shortest (d : Double) : Decimal :=
  d.searchGrids 633

end Double

end Stencil
