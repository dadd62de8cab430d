/-
  ChangeLedger.Number.Shortest — the fewest decimal digits that read back.

  A finite nonzero binary64 number is an interval of reals, namely those that
  round to it.  For 1, 2, … digits the decimals next to the number on that
  grid are tried: the first grid with a hit in the interval decides the number
  of digits, and of two hits the nearer one wins.  All arithmetic is exact.
-/
import ChangeLedger.Number.Binary64

namespace ChangeLedger

/-- The magnitude `digits · 10 ^ exponent`. -/
structure Decimal where
  /-- The digits, read as one number. -/
  digits : Nat
  /-- The power of ten of the last digit. -/
  exponent : Int
  deriving DecidableEq

/-- Which of two equally near decimals is taken. -/
inductive TieRule where
  /-- The one whose last digit is even. -/
  | toEven
  /-- The one of greater magnitude. -/
  | away
  deriving DecidableEq

namespace Decimal

/-- Drops trailing zeros; `fuel` bounds their number. -/
def stripZeros : (fuel : Nat) → Decimal → Decimal
  | 0, d => d
  | fuel + 1, d =>
    if d.digits % 10 = 0 then stripZeros fuel ⟨d.digits / 10, d.exponent + 1⟩ else d

end Decimal

/-! ## The rounding interval on a decimal grid -/

/-- The reals that round to one number, measured on a grid of decimals: a
    real `r` is `r · unit` steps of width `step`.  Dividing by `step` counts
    grid points below. -/
structure GridInterval where
  /-- Lower end of the interval. -/
  low : Nat
  /-- The number itself. -/
  value : Nat
  /-- Upper end of the interval. -/
  high : Nat
  /-- Distance of two grid points. -/
  step : Nat
  /-- Whether the ends belong to the interval. -/
  closed : Bool

namespace GridInterval

/-- Whether the grid point with index `n` rounds to the number. -/
def holds (g : GridInterval) (n : Nat) : Bool :=
  if g.closed then g.low ≤ n * g.step && n * g.step ≤ g.high
  else g.low < n * g.step && n * g.step < g.high

/-- The nearer of the neighbours `n` and `n + 1` of the number. -/
def nearer (g : GridInterval) (tie : TieRule) (n : Nat) : Nat :=
  match compare (2 * g.value) ((2 * n + 1) * g.step) with
  | .lt => n
  | .gt => n + 1
  | .eq =>
    match tie with
    | .toEven => if n % 2 = 0 then n else n + 1
    | .away => n + 1

/-- The grid point that stands for the number, if one of its two neighbours
    rounds to it. -/
def pick? (g : GridInterval) (tie : TieRule) : Option Nat :=
  let n := g.value / g.step
  match g.holds n, g.holds (n + 1) with
  | true, true => some (g.nearer tie n)
  | true, false => some n
  | false, true => some (n + 1)
  | false, false => none

end GridInterval

namespace Binary64

/-- The rounding interval of a number on the grid of multiples of
    `10 ^ gridExponent`.  Quarter units in the last place make all ends
    whole; the common denominator of grid and unit is cleared. -/
def gridInterval (x : Binary64) (gridExponent : Int) : GridInterval :=
  let quarter := x.exponent - 2
  let unit := Nat.pow 2 quarter.toNat * Nat.pow 10 (-gridExponent).toNat
  let m := 4 * x.significand
  { low := (m - if x.narrowBelow then 1 else 2) * unit
    value := m * unit
    high := (m + 2) * unit
    step := Nat.pow 10 gridExponent.toNat * Nat.pow 2 (-quarter).toNat
    closed := x.significand % 2 = 0 }

/-- The number of digits before the decimal point, or minus the number of
    zeros after it: the magnitude lies in `[10 ^ (p - 1), 10 ^ p)`. -/
def pointPosition (x : Binary64) : Int :=
  let down := (-x.exponent).toNat
  let whole := x.significand * Nat.pow 2 x.exponent.toNat * Nat.pow 5 down
  (toString whole).length - down

/-- Tries the grids with `n`, `n + 1`, … significant digits, `fuel` of them. -/
def searchShortest (x : Binary64) (tie : TieRule) : (fuel n : Nat) → Decimal
  | 0, n => ⟨x.significand, x.pointPosition - n⟩
  | fuel + 1, n =>
    let e := x.pointPosition - n
    match (x.gridInterval e).pick? tie with
    | some d => ⟨d, e⟩
    | none => searchShortest x tie fuel (n + 1)

/-- The shortest decimal that reads back as the finite nonzero number `x`.
    Seventeen digits always suffice. -/
def shortest (x : Binary64) (tie : TieRule) : Decimal :=
  (x.searchShortest tie 17 1).stripZeros 18

end Binary64

end ChangeLedger
