import FormChart.Binary64.Basic

/-!
# Reading a decimal as a binary64 number

`Binary64.ofDecimal s e` reads `s · 10 ^ e`, for `s` of at most 64 bits.  It is the quick way of
reading: `s` is rounded to a binary64 number, which is then multiplied or divided by the binary64
number nearest to a power of ten, each operation rounding once.  The last bit may therefore
differ from the correctly rounded value.  Exponents below `-308` are taken in steps of `308`.
-/

namespace FormChart.Binary64

/-- The greatest power of ten in range. -/
def maxTens : Nat := 308

/-- The binary64 number nearest to a power of ten. -/
def tenPow (k : Nat) : Option Binary64 := ofNat (Nat.pow 10 k)

/-- Multiplies by a power of ten; none if the result is out of range. -/
def shiftUp (x : Binary64) (k : Nat) : Option Binary64 := do x.mul (← tenPow k)

/-- Divides by a power of ten. -/
def shiftDown (x : Binary64) (k : Nat) : Option Binary64 := do x.div (← tenPow k)

/-- Divides by `10 ^ 308` some times, as long as anything is left, and then by a smaller power. -/
def shiftFarDown (x : Binary64) : Nat → Nat → Option Binary64
  | 0, k => shiftDown x k
  | times + 1, k =>
    if x.isZero then some x else do shiftFarDown (← shiftDown x maxTens) times k

/-- Reads `s · 10 ^ e`; none if the number is too big. -/
def ofDecimal (s : Nat) (e : Int) : Option Binary64 := do
  let x ← ofNat s
  if e < 0 then
    let times := ((-e).toNat - 1) / maxTens
    shiftFarDown x times ((-e).toNat - times * maxTens)
  else if e.toNat ≤ maxTens then shiftUp x e.toNat
  else if x.isZero then some x
  else none

end FormChart.Binary64
