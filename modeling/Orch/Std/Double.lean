import Mathlib.Algebra.Group.Nat.Defs

/-! The arithmetic of `float64` on rational numbers. Exponents are not bounded:
a number below the smallest `float64` is not told from zero by those who only
ask for whole parts, and none above the largest one occurs. -/

namespace Double

/-- The nearest whole number, and of two the even one. -/
def nearest (q : Rat) : Int :=
  let low := q.floor
  if q - low < 1 / 2 ∨ (q - low = 1 / 2 ∧ low % 2 = 0) then low else low + 1

/-- A number times a power of two. -/
def shift (q : Rat) : Int → Rat
  | .ofNat e => q * 2 ^ e
  | .negSucc e => q / 2 ^ (e + 1)

/-- The place of the leading bit. -/
def exponent (q : Rat) : Int :=
  let guess : Int := q.num.natAbs.log2 - q.den.log2
  if shift q.abs (-guess) < 1 then guess - 1 else guess

/-- The nearest number of 53 bits, and of two the one that ends in a zero bit. -/
def round (q : Rat) : Rat :=
  if q = 0 then 0 else shift (nearest (shift q (52 - exponent q))) (exponent q - 52)

example : round (1 / 10) = 3602879701896397 / 36028797018963968 := by decide +kernel

end Double
