import FilterSql.Binary64.Basic
import FilterSql.Decimal.Basic

/-!
# The shortest decimal of a binary datum

Every real nearer to a datum than to its neighbours reads back as that datum; these reals form
`Binary64.interval`.  `Binary64.shortest` is the decimal with the fewest digits in the interval,
and of several with that many digits the nearest to the datum.  On a grid of equal steps it is
enough to try the two grid points around the datum: if any point of the grid lies in the interval,
one of these two does.  `Binary64.plain` is the text of that decimal with every place written out: no
exponent, no point after a whole number.
-/

namespace FilterSql

/-- Which of two equally near decimals is taken. -/
inductive Tie where
  /-- The one whose last digit is even. -/
  | toEven
  /-- The larger one. -/
  | upward
  deriving DecidableEq, Repr

/-- Reals in quarters of the unit `2^-1074`, with or without the two ends. -/
structure Interval where
  low : Nat
  high : Nat
  closed : Bool
  deriving DecidableEq, Repr

namespace Interval

/-- The fraction `num / den`, in quarters of the unit, lies in the interval. -/
def holds (i : Interval) (num den : Nat) : Bool :=
  if i.closed then decide (i.low * den ≤ num) && decide (num ≤ i.high * den)
  else decide (i.low * den < num) && decide (num < i.high * den)

end Interval

namespace Binary64

/-- The neighbour below is only half as far when the fraction is zero and a smaller normal
binade lies below. -/
def lowGap (x : Binary64) : Nat :=
  if x.fraction = 0 ∧ 1 < x.exponentField then x.spacing else 2 * x.spacing

/-- The reals that round to the absolute value of the datum: half way to each neighbour, with the
two ends when the significand is even. -/
def interval (x : Binary64) : Interval where
  low := 4 * x.units - x.lowGap
  high := 4 * x.units + 2 * x.spacing
  closed := decide (x.significand % 2 = 0)

/-- How many decimal places of the absolute value stand before the point, for a datum that is not
zero. -/
def places (x : Binary64) : Int :=
  if Nat.pow 2 1074 ≤ x.units then (Nat.toDigits 10 (x.units / Nat.pow 2 1074)).length
  else 1 - (Nat.toDigits 10 ((Nat.pow 2 1074 - 1) / x.units)).length

/-- The decimal on the grid of step `10 ^ exponent` that lies in the interval and is nearest to the
datum, when there is one. -/
def onGrid (tie : Tie) (x : Binary64) (exponent : Int) : Option Decimal :=
  let finer := Nat.pow 10 (-exponent).toNat
  let step := Nat.pow 2 1074 * Nat.pow 10 exponent.toNat
  let below := x.units * finer / step
  let above := below + 1
  let reads := fun c => x.interval.holds (4 * c * step) finer
  let remainder := x.units * finer % step
  let aboveNearer := decide (step < 2 * remainder) ||
    (decide (step = 2 * remainder) && (decide (tie = .upward) || decide (below % 2 = 1)))
  if reads below && !(reads above && aboveNearer) then some ⟨below, exponent⟩
  else if reads above then some ⟨above, exponent⟩
  else none

/-- The first hit on the grids that give `n`, `n + 1`, … digits. -/
def firstOnGrid (tie : Tie) (x : Binary64) (n : Nat) : Nat → Option Decimal
  | 0 => none
  | more + 1 => (onGrid tie x (x.places - n)).or (firstOnGrid tie x (n + 1) more)

/-- The datum written out in full: one unit is `5^1074 * 10^-1074`. -/
def exact (x : Binary64) : Decimal := ⟨x.units * Nat.pow 5 1074, -1074⟩

/-- The shortest decimal that reads back as the absolute value; 17 digits are always enough. -/
def shortest (tie : Tie) (x : Binary64) : Decimal :=
  if x.isZero then ⟨0, 0⟩ else ((firstOnGrid tie x 1 17).getD x.exact).reduced

/-! ### Plain texts -/

/-- The sign of a negative datum, zero included. -/
def signText (x : Binary64) : String := if x.isNegative then "-" else ""

/-- The shortest digits that read back, with all places written out; of two equally near decimals
the larger one is taken. -/
def plain (x : Binary64) : String :=
  if x.isNaN then "NaN"
  else if x.isFinite then x.signText ++ (shortest .upward x).positional
  else x.signText ++ "inf"

end Binary64

end FilterSql
