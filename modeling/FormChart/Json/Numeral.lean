import FormChart.Json.Basic
import FormChart.Text.Digits
import FormChart.Binary64.Decimal
import FormChart.Binary64.Shortest

/-!
# How numbers are written

A numeral is a number as it stands in a text: a sign, digits before the point, perhaps digits
after it, perhaps an exponent.  `Numeral.scan` splits a numeral off a text, `Numeral.number?` is
the number it denotes, and `Number.text` writes a number.

* A numeral without point and exponent denotes an integer if it fits 64 bits; every other one
  denotes a binary64 number, and so does `-0`.
* A binary64 number is written with the fewest digits that read back, and **always shows what it
  is**: `3.0`, never `3`.  It is written positionally from `0.00001` up to below `10 ^ 16`, and
  with an exponent outside.
-/

namespace FormChart

/-- A number as it stands in a text. -/
structure Numeral where
  /-- Whether a minus sign stands in front. -/
  minus : Bool
  /-- The digits before the point. -/
  whole : List Char
  /-- The digits after the point, if there is one. -/
  places : Option (List Char)
  /-- The exponent, if there is one. -/
  exponent : Option Int

namespace Numeral

/-- Splits the digits off the front of a text. -/
def digits (cs : List Char) : List Char × List Char :=
  (cs.takeWhile Char.isDigit, cs.dropWhile Char.isDigit)

/-- The digits before the point: a zero stands alone. -/
def scanWhole (cs : List Char) : Option (List Char × List Char) :=
  match digits cs with
  | ([], _) => none
  | ('0' :: _ :: _, _) => none
  | found => some found

/-- The digits after a point; a point without digits is refused. -/
def scanPlaces : List Char → Option (Option (List Char) × List Char)
  | '.' :: cs =>
    match digits cs with
    | ([], _) => none
    | (ds, rest) => some (some ds, rest)
  | cs => some (none, cs)

/-- The digits of an exponent, which has at least one. -/
def scanExponentDigits (sign : Int) (cs : List Char) : Option (Option Int × List Char) :=
  match digits cs with
  | ([], _) => none
  | (ds, rest) => some (some (sign * digitsValue ds), rest)

/-- An exponent with its sign. -/
def scanExponent : List Char → Option (Option Int × List Char)
  | 'e' :: '+' :: cs | 'E' :: '+' :: cs => scanExponentDigits 1 cs
  | 'e' :: '-' :: cs | 'E' :: '-' :: cs => scanExponentDigits (-1) cs
  | 'e' :: cs | 'E' :: cs => scanExponentDigits 1 cs
  | cs => some (none, cs)

/-- Splits a numeral without its sign off the front of a text. -/
def scanUnsigned (minus : Bool) (cs : List Char) : Option (Numeral × List Char) := do
  let (whole, cs) ← scanWhole cs
  let (places, cs) ← scanPlaces cs
  let (exponent, cs) ← scanExponent cs
  some (⟨minus, whole, places, exponent⟩, cs)

/-- Splits a numeral off the front of a text. -/
def scan : List Char → Option (Numeral × List Char)
  | '-' :: cs => scanUnsigned true cs
  | cs => scanUnsigned false cs

/-- Takes digits into a number for as long as it fits 64 bits. -/
def absorb (s : Nat) : List Char → Nat × List Char
  | [] => (s, [])
  | c :: cs =>
    if 10 * s + digitValue c < wordBound then absorb (10 * s + digitValue c) cs else (s, c :: cs)

/-- The numeral as `s · 10 ^ e`.  A digit before the point that no longer fits counts as a place,
    one after the point is ignored. -/
def parts (n : Numeral) : Nat × Int :=
  let (s, droppedWhole) := absorb 0 n.whole
  let places := n.places.getD []
  let (s, droppedPlaces) := absorb s places
  (s, (droppedWhole.length : Int) - ((places.length - droppedPlaces.length : Nat) : Int) +
    n.exponent.getD 0)

/-- Gives a magnitude the sign of the numeral. -/
def signed (n : Numeral) (x : Binary64) : Number := .float (if n.minus then x.neg else x)

/-- The binary64 number that a numeral denotes; none if it is out of range. -/
def float? (n : Numeral) : Option Number :=
  (Binary64.ofDecimal n.parts.1 n.parts.2).map n.signed

/-- The number that a numeral denotes; none if it is out of range. -/
def number? (n : Numeral) : Option Number :=
  if n.places.isNone ∧ n.exponent.isNone then
    let v := digitsValue n.whole
    if !n.minus ∧ v < wordBound then some (.natural v)
    else if n.minus ∧ 0 < v ∧ v ≤ Nat.pow 2 63 then some (.negative v)
    else n.float?
  else n.float?

end Numeral

/-- The decimal digits of a natural number. -/
def natText (n : Nat) : List Char := Nat.toDigits 10 n

/-- A run of zeros. -/
def zeros (n : Nat) : List Char := List.replicate n '0'

/-- Digits without the zeros at their end, and how many zeros there were. -/
def stripZeros (ds : List Char) : List Char × Nat :=
  let kept := (ds.reverse.dropWhile (· == '0')).reverse
  (kept, ds.length - kept.length)

/-- Writes digits with the decimal point behind the first `point` of them, or with an exponent
    if that would need more than sixteen digits before the point or five zeros after it. -/
def placePoint (ds : List Char) (point : Int) : List Char :=
  if 0 < point ∧ point ≤ 16 then
    let k := point.toNat
    if ds.length ≤ k then ds ++ zeros (k - ds.length) ++ ['.', '0']
    else ds.take k ++ '.' :: ds.drop k
  else if -5 < point ∧ point ≤ 0 then '0' :: '.' :: zeros (-point).toNat ++ ds
  else
    let mantissa := ds.take 1 ++ (if ds.length ≤ 1 then [] else '.' :: ds.drop 1)
    let e := point - 1
    mantissa ++ 'e' :: (if e < 0 then '-' else '+') :: natText e.natAbs

/-- A binary64 number in text. -/
def Binary64.text (x : Binary64) : List Char :=
  let magnitude :=
    if x.isZero then ['0', '.', '0']
    else
      let d := x.shortest
      let (ds, dropped) := stripZeros (natText d.digits)
      placePoint ds (d.exponent + dropped + ds.length)
  if x.negative then '-' :: magnitude else magnitude

/-- A number in text. -/
def Number.text : Number → List Char
  | .natural n => natText n
  | .negative n => '-' :: natText n
  | .float x => x.text

end FormChart
