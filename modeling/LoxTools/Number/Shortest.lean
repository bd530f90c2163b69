import LoxTools.Number.Binary64
import LoxTools.Number.Decimal

/-!
# Shortest decimals

A finite binary number is written with the fewest digits that read back as it. The reals
that round to it form an interval around it, which includes its ends exactly when the
significand is even. If a power-of-ten grid has any point inside, then one of the two
neighbours of the number on that grid is inside. So the search tries the two neighbours grid
by grid, each grid ten times finer than the one before, from a grid too coarse on: the first
hit is on the coarsest grid that has one. Of two hits the nearer one is taken, and of two
equally near ones the larger.

All arithmetic is on natural numbers. Distances are counted in quarters of the last place:
the number lies at `4 · significand`, the upper end two quarters above, and the lower end
two quarters below, or one where the numbers below are twice as dense.
-/

namespace LoxTools

/-- An interval of reals around a number, in quarters of its last place. -/
structure RoundingInterval where
  /-- the lower end -/
  lower : Nat
  /-- the number itself -/
  value : Nat
  /-- the upper end -/
  upper : Nat
  /-- whether the ends belong to the interval -/
  closed : Bool
  deriving DecidableEq, Repr

namespace RoundingInterval

/-- Whether the grid point `t` lies inside, where a quarter is `num / den` grid steps. -/
def holds (i : RoundingInterval) (num den t : Nat) : Bool :=
  if i.closed then
    i.lower * num ≤ t * den && t * den ≤ i.upper * num
  else
    i.lower * num < t * den && t * den < i.upper * num

/-- **The nearest grid point inside**, if there is one. -/
def nearest? (i : RoundingInterval) (num den : Nat) : Option Nat :=
  let below := i.value * num / den
  let above := below + 1
  if i.holds num den below then
    if i.holds num den above && above * den - i.value * num ≤ i.value * num - below * den then
      some above
    else
      some below
  else if i.holds num den above then some above
  else none

/-- A whole power, or one where the exponent is negative. -/
def power (base : Nat) (exponent : Int) : Nat :=
  base.pow exponent.toNat

/-- The first hit on the grids from `10 ^ grid` on, each ten times finer than the one
before. The interval is counted in steps of `2 ^ quarter`. -/
def search (i : RoundingInterval) (quarter : Int) : Nat → Int → Decimal
  | 0, grid => ⟨0, grid⟩
  | fuel + 1, grid =>
    let num := power 2 quarter * power 10 (-grid)
    let den := power 2 (-quarter) * power 10 grid
    match i.nearest? num den with
    | some units => ⟨units, grid⟩
    | none => search i quarter fuel (grid - 1)

end RoundingInterval

namespace Binary64

/-- The reals that round to a finite number other than zero. -/
def interval (x : Binary64) : RoundingInterval :=
  let value := 4 * x.significand
  ⟨if x.isBinadeStart then value - 1 else value - 2, value, value + 2, x.significand % 2 == 0⟩

/-- A grid that is coarser than twice the number: `log₁₀ 2` is below `30103 / 100000`. -/
def coarseGrid (x : Binary64) : Int :=
  (x.exponent + x.significand.log2 + 1) * 30103 / 100000 + 2

/-- **The shortest decimal** of a finite number, without its sign. Twenty-four grids are
enough: seventeen digits always read back. -/
def shortest (x : Binary64) : Decimal :=
  if x.isZero then ⟨0, 0⟩ else x.interval.search (x.exponent - 2) 24 x.coarseGrid

/-- **The text of a number**: its shortest decimal in positional notation, with a sign when
the sign bit is set. Not-a-number has no sign. -/
def render (x : Binary64) : String :=
  if x.isNaN then "NaN"
  else
    let magnitude := if x.isInfinite then "inf" else String.ofList x.shortest.positional
    if x.isNegative then "-" ++ magnitude else magnitude

end Binary64

end LoxTools
