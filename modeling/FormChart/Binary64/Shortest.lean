import FormChart.Binary64.Basic

/-!
# The shortest decimal that reads back

`Binary64.shortest` gives the fewest decimal digits that denote a real number lying in the
interval of reals which round to the given magnitude (the ends belong to it when the significand
is even); of two such decimals of that length it takes the nearer one, and the even one if both are
equally near.  For each number of digits
from 1 to 17 it looks at the two neighbours of the exact value on the grid of decimals of that
length, and the first grid with a hit wins.  Seventeen digits always suffice.
-/

namespace FormChart.Binary64

/-- A decimal `digits · 10 ^ exponent`. -/
structure Decimal where
  /-- The significant digits, as a number. -/
  digits : Nat
  /-- The power of ten of the last digit. -/
  exponent : Int
  deriving DecidableEq, Repr

/-- The smallest `k`, from a starting point on, for which `num · 10 ^ k` reaches `den`. -/
def leadingGap (num den : Nat) : Nat → Nat → Nat
  | 0, k => k
  | fuel + 1, k => if den ≤ num * Nat.pow 10 k then k else leadingGap num den fuel (k + 1)

/-- The power of ten of the leading digit of a positive quotient. -/
def leadingPlace (num den : Nat) : Int :=
  if den ≤ num then ((Nat.toDigits 10 (num / den)).length : Int) - 1
  else -((leadingGap num den 400 0 : Nat) : Int)

/-- The decimals that round to a magnitude: an interval around it, measured in one unit. -/
structure Interval where
  /-- The lower end. -/
  low : Nat
  /-- The magnitude itself. -/
  mid : Nat
  /-- The upper end. -/
  high : Nat
  /-- Whether the ends belong to the interval. -/
  closed : Bool

/-- Whether a multiple of the unit lies in the interval. -/
def Interval.holds (i : Interval) (x : Nat) : Bool :=
  if i.closed then i.low ≤ x && x ≤ i.high else i.low < x && x < i.high

/-- The interval of a magnitude, and the decimal step `10 ^ p`, both in the same unit.  Just
    above a power of two the numbers below lie twice as dense, so the lower half is halved. -/
def interval (x : Binary64) (p : Int) : Interval × Nat :=
  let m := x.significand
  let q := x.scale - 2
  let unit := Nat.pow 2 q.toNat * Nat.pow 10 (-p).toNat
  let below := if x.fraction.val = 0 ∧ 1 < x.exponent.val then 1 else 2
  (⟨(4 * m - below) * unit, 4 * m * unit, (4 * m + 2) * unit, m % 2 == 0⟩,
    Nat.pow 10 p.toNat * Nat.pow 2 (-q).toNat)

/-- Of the two neighbours `d` and `d + 1` of a value on a grid the nearer one, the even one if
    both are equally near. -/
def nearerNeighbour (mid step d : Nat) : Nat :=
  if 2 * mid < (2 * d + 1) * step then d
  else if (2 * d + 1) * step < 2 * mid then d + 1
  else if d % 2 = 0 then d else d + 1

/-- The hit on the grid of step `10 ^ p`, the nearer one if both neighbours are hits. -/
def gridHit (x : Binary64) (p : Int) : Option Nat :=
  let (i, step) := interval x p
  let d := i.mid / step
  match i.holds (d * step), i.holds ((d + 1) * step) with
  | true, true => some (nearerNeighbour i.mid step d)
  | true, false => some d
  | false, true => some (d + 1)
  | false, false => none

/-- Tries ever finer grids, starting at step `10 ^ p`. -/
def finerGrids (x : Binary64) : Nat → Int → Decimal
  | 0, p => ⟨(interval x p).1.mid / (interval x p).2, p⟩
  | fuel + 1, p =>
    match gridHit x p with
    | some d => ⟨d, p⟩
    | none => finerGrids x fuel (p - 1)

/-- The shortest decimal in the rounding interval of a magnitude; zero is `0 · 10 ^ 0`. -/
def shortest (x : Binary64) : Decimal :=
  if x.isZero then ⟨0, 0⟩
  else finerGrids x 17 (leadingPlace x.quotient.1 x.quotient.2)

end FormChart.Binary64
