/-! # Binary numbers of 53 bits

Elapsed seconds are kept as a binary number with 53 significant bits. Sums and quotients
are exact fractions rounded once, to the nearest such number, ties to the even one.
-/

namespace LicenseStamp

/-- The quotient rounded to the nearest natural number, a half to the even one. -/
def roundDiv (num den : Nat) : Nat :=
  let quotient := num / den
  let rest := num % den
  if den < 2 * rest ∨ (2 * rest = den ∧ quotient % 2 = 1) then quotient + 1 else quotient

/-- The number `mantissa * 2 ^ exponent`. -/
structure Dyadic where
  /-- The significant bits -/
  mantissa : Nat
  /-- The power of two of the last bit -/
  exponent : Int
  deriving Repr, DecidableEq

namespace Dyadic

/-- A power of two as numerator and denominator. -/
def power (exponent : Int) : Nat × Nat :=
  if 0 ≤ exponent then (Nat.pow 2 exponent.toNat, 1) else (1, Nat.pow 2 (-exponent).toNat)

/-- The numerator of a number as a fraction. -/
def num (x : Dyadic) : Nat := x.mantissa * (power x.exponent).1

/-- The denominator of a number as a fraction. -/
def den (x : Dyadic) : Nat := (power x.exponent).2

/-- The number of 53 bits nearest to a fraction. -/
def nearest (num den : Nat) : Dyadic :=
  if num = 0 then ⟨0, 0⟩
  else
    let scale (exponent : Int) : Nat × Nat :=
      (num * (power exponent).2, den * (power exponent).1)
    let guess : Int := (num.log2 : Int) - den.log2 - 52
    let exponent := if (scale guess).1 < Nat.pow 2 52 * (scale guess).2 then guess - 1 else guess
    let mantissa := roundDiv (scale exponent).1 (scale exponent).2
    if mantissa = Nat.pow 2 53 then ⟨Nat.pow 2 52, exponent + 1⟩ else ⟨mantissa, exponent⟩

/-- The sum of two numbers, rounded. -/
def add (x y : Dyadic) : Dyadic := nearest (x.num * y.den + y.num * x.den) (x.den * y.den)

end Dyadic

end LicenseStamp
