/-!
# Finite binary64 numbers

A finite number of the IEEE 754 format binary64 is a sign and a magnitude `m · 2 ^ q`, with
`m < 2 ^ 53` and `-1074 ≤ q ≤ 971`.  Everything here is exact arithmetic on natural numbers:
`roundQuotient` takes a quotient of two natural numbers to the nearest magnitude (of two equally
near ones the one with even `m`), and `mul` and `div` are the exact product and quotient, rounded
once.  **No step goes through machine floats**, so the results can be computed in proofs.
-/

namespace FormChart

/-- A finite binary64 number by its three fields. -/
structure Binary64 where
  /-- Whether the number carries a minus sign; zero has both signs. -/
  negative : Bool
  /-- The biased exponent; zero marks a subnormal number. -/
  exponent : Fin 2047
  /-- The 52 bits after the leading one. -/
  fraction : Fin 0x10000000000000
  deriving DecidableEq, Repr

namespace Binary64

/-- The number zero without a sign. -/
def zero : Binary64 := ⟨false, 0, 0⟩

instance : Inhabited Binary64 := ⟨zero⟩

/-- The number with the other sign. -/
def neg (x : Binary64) : Binary64 := { x with negative := !x.negative }

/-- Whether the magnitude is zero. -/
def isZero (x : Binary64) : Bool := x.exponent == 0 && x.fraction == 0

/-- The integer `m` of the magnitude `m · 2 ^ q`. -/
def significand (x : Binary64) : Nat :=
  if x.exponent.val = 0 then x.fraction.val else Nat.pow 2 52 + x.fraction.val

/-- The power `q` of the magnitude `m · 2 ^ q`. -/
def scale (x : Binary64) : Int :=
  if x.exponent.val = 0 then -1074 else (x.exponent.val : Int) - 1075

/-- Packs `m · 2 ^ q` for `m ≤ 2 ^ 53`; there is no such number once the exponent is too big. -/
def pack (m : Nat) (q : Int) : Option Binary64 :=
  let (m, q) := if m = Nat.pow 2 53 then (Nat.pow 2 52, q + 1) else (m, q)
  if m < Nat.pow 2 52 then some ⟨false, 0, Fin.ofNat _ m⟩
  else
    let biased := (q + 1075).toNat
    if h : biased < 2047 then some ⟨false, ⟨biased, h⟩, Fin.ofNat _ (m - Nat.pow 2 52)⟩
    else none

/-- The integer nearest to a quotient, of two equally near ones the even one. -/
def nearestEven (num den : Nat) : Nat :=
  let d := num / den
  let twice := 2 * (num % den)
  if twice < den then d
  else if den < twice then d + 1
  else if d % 2 = 0 then d else d + 1

/-- A power of two split over numerator and denominator. -/
def scaled (num den : Nat) (q : Int) : Nat × Nat :=
  if 0 ≤ q then (num, den * Nat.pow 2 q.toNat) else (num * Nat.pow 2 (-q).toNat, den)

/-- The magnitude nearest to a quotient of natural numbers; none if it is out of range. -/
def roundQuotient (num den : Nat) : Option Binary64 :=
  if num = 0 ∨ den = 0 then some zero
  else
    let high : Int := (num.log2 : Int) - (den.log2 : Int) - 52
    let (n, d) := scaled num den high
    let q := max (-1074) (if n < Nat.pow 2 52 * d then high - 1 else high)
    let (n, d) := scaled num den q
    pack (nearestEven n d) q

/-- The magnitude nearest to a natural number. -/
def ofNat (n : Nat) : Option Binary64 := roundQuotient n 1

/-- The magnitude `m · 2 ^ q` as a quotient. -/
def quotient (x : Binary64) : Nat × Nat :=
  if 0 ≤ x.scale then (x.significand * Nat.pow 2 x.scale.toNat, 1)
  else (x.significand, Nat.pow 2 (-x.scale).toNat)

/-- The product of two magnitudes, rounded once; none if it is out of range. -/
def mul (x y : Binary64) : Option Binary64 :=
  roundQuotient (x.quotient.1 * y.quotient.1) (x.quotient.2 * y.quotient.2)

/-- The quotient of two magnitudes, rounded once; none if it is out of range. -/
def div (x y : Binary64) : Option Binary64 :=
  roundQuotient (x.quotient.1 * y.quotient.2) (x.quotient.2 * y.quotient.1)

end Binary64

end FormChart
