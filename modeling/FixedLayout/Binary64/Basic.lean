import FixedLayout.Power

/-!
# Binary64 numbers

The numbers of the 64-bit binary floating-point format, as exact values. Each
operation computes its exact result and rounds it once, to the nearest number of
the format and in a tie to the one whose last bit is zero.
-/

namespace FixedLayout

/-- A number of the format. A finite one is `significand * 2 ^ exponent`; the
results of `round` have an exponent between -1074 and 971 and a significand below
`2 ^ 53`, which is at least `2 ^ 52` unless the exponent is the least one. -/
inductive Binary64 where
  | nan
  | infinite (negative : Bool)
  | finite (negative : Bool) (significand : Nat) (exponent : Int)
  deriving DecidableEq

namespace Binary64

/-- The least exponent, that of the numbers nearest to zero. -/
def leastExponent : Int := -1074

/-- The greatest exponent of a finite number. -/
def greatestExponent : Int := 971

/-- Zero, with a sign. -/
def zero (negative : Bool) : Binary64 := .finite negative 0 leastExponent

/-- The fraction `numerator / denominator / 2 ^ exponent`. -/
def scaleDown (numerator denominator : Nat) (exponent : Int) : Nat × Nat :=
  if 0 ≤ exponent then (numerator, denominator * 2 ^ exponent.toNat)
  else (numerator * 2 ^ (-exponent).toNat, denominator)

/-- The exponent at which a positive fraction has 53 bits before the point, or
the least one if that is greater. -/
def unitExponent (numerator denominator : Nat) : Int :=
  let guess : Int := (numerator.log2 : Int) - (denominator.log2 : Int) - 53
  let (above, below) := scaleDown numerator denominator guess
  max leastExponent (if above / below < 2 ^ 53 then guess else guess + 1)

/-- A quotient to the nearest integer, a tie to the even one. -/
def divideToEven (numerator denominator : Nat) : Nat :=
  let quotient := numerator / denominator
  let twice := 2 * (numerator % denominator)
  if denominator < twice ∨ (twice = denominator ∧ quotient % 2 = 1) then quotient + 1 else quotient

/-- The number nearest to `numerator / denominator`, with the given sign. -/
def round (negative : Bool) (numerator denominator : Nat) : Binary64 :=
  if numerator = 0 then zero negative
  else
    let exponent := unitExponent numerator denominator
    let (above, below) := scaleDown numerator denominator exponent
    let nearest := divideToEven above below
    let (significand, exponent) :=
      if nearest = 2 ^ 53 then (2 ^ 52, exponent + 1) else (nearest, exponent)
    if greatestExponent < exponent then .infinite negative
    else .finite negative significand exponent

/-- The number nearest to `numerator / denominator * 2 ^ exponent`. -/
def roundScaled (negative : Bool) (numerator denominator : Nat) (exponent : Int) : Binary64 :=
  let (above, below) := scaleDown numerator denominator (-exponent)
  round negative above below

/-- The number nearest to a natural number. -/
def ofNat (value : Nat) : Binary64 := round false value 1

/-- The number with the opposite sign. -/
def negate : Binary64 → Binary64
  | .nan => .nan
  | .infinite negative => .infinite !negative
  | .finite negative significand exponent => .finite (!negative) significand exponent

/-- A significand with its sign. -/
def signed (negative : Bool) (significand : Nat) : Int :=
  if negative then -significand else significand

/-- The rounded sum. -/
def add : Binary64 → Binary64 → Binary64
  | .nan, _ => .nan
  | _, .nan => .nan
  | .infinite left, .infinite right => if left = right then .infinite left else .nan
  | .infinite left, .finite .. => .infinite left
  | .finite .., .infinite right => .infinite right
  | .finite left leftSignificand leftExponent, .finite right rightSignificand rightExponent =>
      let exponent := min leftExponent rightExponent
      let sum :=
        signed left leftSignificand * 2 ^ (leftExponent - exponent).toNat +
          signed right rightSignificand * 2 ^ (rightExponent - exponent).toNat
      if sum = 0 then zero (left && right)
      else roundScaled (sum < 0) sum.natAbs 1 exponent

/-- The rounded product. -/
def multiply : Binary64 → Binary64 → Binary64
  | .nan, _ => .nan
  | _, .nan => .nan
  | .infinite left, .infinite right => .infinite (left != right)
  | .infinite left, .finite right significand _ =>
      if significand = 0 then .nan else .infinite (left != right)
  | .finite left significand _, .infinite right =>
      if significand = 0 then .nan else .infinite (left != right)
  | .finite left leftSignificand leftExponent, .finite right rightSignificand rightExponent =>
      roundScaled (left != right) (leftSignificand * rightSignificand) 1
        (leftExponent + rightExponent)

/-- The rounded quotient; zero divided by zero is no number, anything else
divided by zero is infinite. -/
def divide : Binary64 → Binary64 → Binary64
  | .nan, _ => .nan
  | _, .nan => .nan
  | .infinite _, .infinite _ => .nan
  | .infinite left, .finite right _ _ => .infinite (left != right)
  | .finite left _ _, .infinite right => zero (left != right)
  | .finite left leftSignificand leftExponent, .finite right rightSignificand rightExponent =>
      if rightSignificand = 0 then
        if leftSignificand = 0 then .nan else .infinite (left != right)
      else
        roundScaled (left != right) leftSignificand rightSignificand
          (leftExponent - rightExponent)

/-- The interchange encoding: sign bit, eleven exponent bits, 52 fraction bits. -/
def toBits : Binary64 → Nat
  | .nan => 0x7ff8000000000000
  | .infinite negative => signBit negative + 0x7ff0000000000000
  | .finite negative significand exponent =>
      signBit negative +
        (if significand < 2 ^ 52 then significand
        else (exponent - leastExponent + 1).toNat * 2 ^ 52 + (significand - 2 ^ 52))
where
  signBit (negative : Bool) : Nat := if negative then 2 ^ 63 else 0

end Binary64

end FixedLayout
