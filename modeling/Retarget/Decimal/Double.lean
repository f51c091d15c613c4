/-!
# Doubles as exact numbers

A finite, non-negative double-precision number is `mantissa * 2 ^ exponent` with a mantissa below
`2 ^ 53` and an exponent of at least `-1074`. The operations compute the exact quotient of two
natural numbers and round it once, to the nearest double, a tie to the even mantissa. Nothing here
depends on a machine's arithmetic.
-/

namespace Retarget.Decimal

/-- A power of two. -/
def twoPow (power : Nat) : Nat :=
  Nat.pow 2 power

/-- A power of ten. -/
def tenPow (power : Nat) : Nat :=
  Nat.pow 10 power

/-- The quotient rounded to the nearest natural number, a tie to the even one. -/
def roundDiv (num den : Nat) : Nat :=
  let quotient := num / den
  let twice := 2 * (num % den)
  if den < twice ∨ (twice = den ∧ quotient % 2 = 1) then quotient + 1 else quotient

/-- A finite, non-negative double-precision number: `mantissa` times two to the power `exponent`. -/
structure Double where
  mantissa : Nat
  exponent : Int
deriving DecidableEq, Repr

namespace Double

/-- The number of bits of a mantissa. -/
def precision : Nat := 53

/-- The exponent of the smallest unit. -/
def least : Int := -1074

/-- No double reaches two to this power. -/
def limit : Int := 1024

/-- The power of two as a numerator, which is one for a negative exponent. -/
def twoUp (exponent : Int) : Nat :=
  twoPow exponent.toNat

/-- The power of two as a denominator, which is one for a non-negative exponent. -/
def twoDown (exponent : Int) : Nat :=
  twoPow (-exponent).toNat

/-- The number zero. -/
def zero : Double :=
  ⟨0, least⟩

/-- Whether the number is zero. -/
def isZero (x : Double) : Bool :=
  x.mantissa = 0

/-- The exponent of the unit in which a positive quotient is written: the smallest one that leaves
the mantissa room for the whole part. -/
def unitOf (num den : Nat) : Int :=
  let magnitude : Int := (num.log2 : Int) - (den.log2 : Int)
  let unit := magnitude - precision
  if num * twoDown unit < den * twoUp unit * twoPow precision then max unit least
  else max (unit + 1) least

/-- The double nearest to a quotient, or `none` if the quotient is too large for one. -/
def ofQuotient? (num den : Nat) : Option Double :=
  if num = 0 then some zero
  else
    let unit := unitOf num den
    let mantissa := roundDiv (num * twoDown unit) (den * twoUp unit)
    let rounded : Double :=
      if mantissa = twoPow precision then ⟨twoPow (precision - 1), unit + 1⟩ else ⟨mantissa, unit⟩
    if limit < rounded.exponent + precision then none else some rounded

/-- The double nearest to a natural number. -/
def ofNat? (n : Nat) : Option Double :=
  ofQuotient? n 1

/-- The product with a natural number that is itself rounded to a double first. -/
def mulNat? (x : Double) (n : Nat) : Option Double := do
  let y ← ofNat? n
  ofQuotient? (x.mantissa * y.mantissa * twoUp x.exponent * twoUp y.exponent)
    (twoDown x.exponent * twoDown y.exponent)

/-- The quotient by a natural number that is itself rounded to a double first. -/
def divNat? (x : Double) (n : Nat) : Option Double := do
  let y ← ofNat? n
  ofQuotient? (x.mantissa * twoUp x.exponent * twoDown y.exponent)
    (y.mantissa * twoDown x.exponent * twoUp y.exponent)

end Double

/-! ## Reading a decimal -/

/-- The largest power of ten that is a double. -/
def maxPower : Nat := 308

/-- Divides by a power of ten. A power beyond the doubles is divided out in steps. -/
def scaleDown (x : Double) (power : Nat) : Double :=
  if power ≤ maxPower then (x.divNat? (tenPow power)).getD .zero
  else if x.isZero then x
  else scaleDown ((x.divNat? (tenPow maxPower)).getD .zero) (power - maxPower)
termination_by power
decreasing_by simp only [maxPower] at *; omega

/-- The double that a significand and a power of ten stand for, or `none` if it is too large. The
significand is rounded first and the product or quotient after it. -/
def ofParts? (significand : Nat) (power : Int) : Option Double := do
  let x ← Double.ofNat? significand
  match power with
  | .ofNat n =>
    if n ≤ maxPower then x.mulNat? (tenPow n) else if x.isZero then some x else none
  | .negSucc n => some (scaleDown x (n + 1))

end Retarget.Decimal
