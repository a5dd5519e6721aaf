/-!
# Decimal digits

Reading a run of decimal digits as a number, and reading a count: a number of at most 64 bits,
written in decimal digits after an optional plus sign.
-/

namespace FormChart

/-- Numbers below this bound fit 64 bits. -/
def wordBound : Nat := Nat.pow 2 64

/-- The value of a character as a decimal digit. -/
def digitValue (c : Char) : Nat := c.toNat - '0'.toNat

/-- The number that a run of decimal digits writes. -/
def digitsValue (cs : List Char) : Nat := cs.foldl (fun n c => 10 * n + digitValue c) 0

/-- A non-empty run of decimal digits as a number below the bound of 64 bits. -/
def readDigits (cs : List Char) : Option Nat :=
  if cs ≠ [] ∧ cs.all Char.isDigit ∧ digitsValue cs < wordBound then some (digitsValue cs)
  else none

/-- A count in text: decimal digits, with or without a leading plus sign, and nothing else. -/
def readCount (s : String) : Option Nat :=
  match s.toList with
  | '+' :: cs => readDigits cs
  | cs => readDigits cs

end FormChart
