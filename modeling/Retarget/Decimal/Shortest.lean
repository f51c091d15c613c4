import Retarget.Decimal.Double

/-!
# The shortest decimal of a double

`Double.shortest` gives the fewest decimal digits that still read back as the number, and of these
the ones nearest to it. `Double.render` lays them out: positionally while the point falls within
sixteen digits and not more than four zeros follow it, and with an exponent otherwise.
-/

namespace Retarget.Decimal

/-- Decimal digits, read as the number `whole`, times ten to the power `power`. -/
structure Digits where
  whole : Nat
  power : Int
deriving DecidableEq, Repr

namespace Digits

/-- Drops the zeros at the end. -/
def trim (d : Digits) : Digits :=
  if 0 < d.whole ∧ d.whole % 10 = 0 then trim ⟨d.whole / 10, d.power + 1⟩ else d
termination_by d.whole
decreasing_by omega

end Digits

namespace Double

/-- The power of ten as a numerator, which is one for a negative exponent. -/
def tenUp (power : Int) : Nat :=
  tenPow power.toNat

/-- The power of ten as a denominator, which is one for a non-negative exponent. -/
def tenDown (power : Int) : Nat :=
  tenPow (-power).toNat

/-- The numbers between which everything rounds to the given one, in quarters of its unit. Below a
power of two the units are half as large, so the lower neighbour is nearer. -/
def quarters (x : Double) : Nat × Nat :=
  let narrow := x.mantissa = twoPow (precision - 1) ∧ x.exponent ≠ least
  (4 * x.mantissa - (if narrow then 1 else 2), 4 * x.mantissa + 2)

/-- Whether a decimal reads back as the given number. The ends of the interval round to the even
mantissa. -/
def covers (x : Double) (d : Digits) : Bool :=
  let (low, high) := x.quarters
  let scaled := 4 * d.whole * tenUp d.power * twoDown x.exponent
  let unit := tenDown d.power * twoUp x.exponent
  if x.mantissa % 2 = 0 then low * unit ≤ scaled && scaled ≤ high * unit
  else low * unit < scaled && scaled < high * unit

/-- The two neighbours of a number on the grid of multiples of a power of ten, the nearer one
first; of two equally near ones the even one. -/
def neighbours (x : Double) (power : Int) : Digits × Digits :=
  let num := x.mantissa * twoUp x.exponent * tenDown power
  let den := twoDown x.exponent * tenUp power
  let below : Digits := ⟨num / den, power⟩
  let above : Digits := ⟨num / den + 1, power⟩
  if roundDiv num den = num / den then (below, above) else (above, below)

/-- The neighbour on a grid that reads back, if one does; the nearer one if both do. -/
def onGrid? (x : Double) (power : Int) : Option Digits :=
  let (near, far) := x.neighbours power
  if x.covers near then some near else if x.covers far then some far else none

/-- Looks for a hit on finer and finer grids. -/
def refine (x : Double) (power : Int) : Nat → Option Digits
  | 0 => none
  | steps + 1 => (x.onGrid? power).or (x.refine (power - 1) steps)

/-- A power of ten that is not below the number. -/
def ceilingPower (x : Double) : Int :=
  ((x.mantissa.log2 : Int) + 1 + x.exponent) * 30103 / 100000 + 1

/-- The shortest digits that read back as the number, and of these the nearest. -/
def shortest (x : Double) : Digits :=
  if x.isZero then ⟨0, 0⟩
  else ((x.refine x.ceilingPower 20).getD ⟨0, 0⟩).trim

end Double

/-! ## Layout -/

/-- Digits up to this length stand before the point without an exponent. -/
def maxWhole : Int := 16

/-- Up to this many zeros, less one, stand between the point and the first digit. -/
def maxZeros : Int := 5

/-- Zeros in a row. -/
def zeros (n : Nat) : String :=
  String.ofList (List.replicate n '0')

namespace Digits

/-- Writes digits with a point or with an exponent. -/
def render (d : Digits) : String :=
  let digits := Nat.toDigits 10 d.whole
  let point : Int := digits.length + d.power
  if 0 ≤ d.power ∧ point ≤ maxWhole then
    String.ofList digits ++ zeros d.power.toNat ++ ".0"
  else if 0 < point ∧ point ≤ maxWhole then
    String.ofList (digits.take point.toNat) ++ "." ++ String.ofList (digits.drop point.toNat)
  else if -maxZeros < point ∧ point ≤ 0 then
    "0." ++ zeros (-point).toNat ++ String.ofList digits
  else
    let tail := digits.drop 1
    String.ofList (digits.take 1) ++ (if tail = [] then "" else "." ++ String.ofList tail) ++
      "e" ++ toString (point - 1)

end Digits

namespace Double

/-- The text of a double with its sign. -/
def render (negative : Bool) (x : Double) : String :=
  (if negative then "-" else "") ++ x.shortest.render

end Double

end Retarget.Decimal
