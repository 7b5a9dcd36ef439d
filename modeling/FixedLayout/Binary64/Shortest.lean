import FixedLayout.Binary64.Basic

/-!
# Shortest decimal forms

The shortest decimal form of a finite number has the fewest digits among the
decimals that round to the number; of those it is the nearest to the number, and
in a tie the one whose last digit is even. Numbers with a decimal exponent from
-5 to 15 are written with a point and at least one digit after it, all others
with an exponent that carries its sign.
-/

namespace FixedLayout.Binary64

/-- The reals that round to a finite nonzero number, as fractions over
`4 * scale`: the number itself and the two ends, which belong to the interval
exactly if `closed`. The lower half gap is narrower at a power of two. -/
structure Interval where
  low : Nat
  middle : Nat
  high : Nat
  scale : Nat
  closed : Bool

/-- The interval of the number `significand * 2 ^ exponent`. -/
def Interval.around (significand : Nat) (exponent : Int) : Interval :=
  let gap := if significand = 2 ^ 52 ∧ exponent ≠ leastExponent then 1 else 2
  let factor := 2 ^ exponent.toNat
  { low := (4 * significand - gap) * factor
    middle := 4 * significand * factor
    high := (4 * significand + 2) * factor
    scale := 4 * 2 ^ (-exponent).toNat
    closed := significand % 2 = 0 }

/-- Whether `digits * 10 ^ exponent` lies in the interval. -/
def Interval.holds (interval : Interval) (digits : Nat) (exponent : Int) : Bool :=
  let point := digits * 10 ^ exponent.toNat * interval.scale
  let unit := 10 ^ (-exponent).toNat
  if interval.closed then interval.low * unit ≤ point && point ≤ interval.high * unit
  else interval.low * unit < point && point < interval.high * unit

/-- Of the two neighbours of the number on the grid of multiples of
`10 ^ exponent`, the one in the interval; of two, the nearer one. -/
def Interval.onGrid? (interval : Interval) (exponent : Int) : Option Nat :=
  let numerator := interval.middle * 10 ^ (-exponent).toNat
  let denominator := interval.scale * 10 ^ exponent.toNat
  let lower := numerator / denominator
  let nearest := divideToEven numerator denominator
  let farther := if nearest = lower then lower + 1 else lower
  if interval.holds nearest exponent then some nearest
  else if interval.holds farther exponent then some farther
  else none

/-- How many decimal digits a number has. -/
def digitCount (value : Nat) : Nat := (Nat.toDigits 10 value).length

/-- A decimal exponent `e` with `10 ^ e` at most the fraction and `10 ^ (e + 1)` above it. -/
def decimalExponent (numerator denominator : Nat) : Int :=
  let guess : Int := (digitCount numerator : Int) - (digitCount denominator : Int)
  if numerator * 10 ^ (-guess).toNat < denominator * 10 ^ guess.toNat then guess - 1 else guess

/-- Drops zeros from the end of the digits and counts them in the exponent. -/
def stripZeros : Nat → Nat → Int → Nat × Int
  | 0, digits, exponent => (digits, exponent)
  | fuel + 1, digits, exponent =>
      if digits % 10 = 0 then stripZeros fuel (digits / 10) (exponent + 1) else (digits, exponent)

/-- The digits and the decimal exponent of the shortest form of
`significand * 2 ^ exponent`; seventeen digits are always enough. -/
def shortest (significand : Nat) (exponent : Int) : Nat × Int :=
  let interval := Interval.around significand exponent
  let leading := decimalExponent interval.middle interval.scale
  let found := (List.range 17).findSome? fun (place : Nat) =>
    let exponent := leading - (place : Int)
    (interval.onGrid? exponent).map fun digits => stripZeros 17 digits exponent
  found.getD (0, 0)

/-- The digits with a point so that the value is `digits * 10 ^ exponent`. -/
def positionalText (digits : String) (exponent : Int) : String :=
  let whole : Int := digits.length + exponent
  if 0 ≤ exponent then digits ++ String.ofList (List.replicate exponent.toNat '0') ++ ".0"
  else if 0 < whole then
    String.ofList (digits.toList.take whole.toNat) ++ "." ++
      String.ofList (digits.toList.drop whole.toNat)
  else "0." ++ String.ofList (List.replicate (-whole).toNat '0') ++ digits

/-- The digits with the point after the first one and the decimal exponent behind. -/
def exponentText (digits : String) (exponent : Int) : String :=
  let first := String.ofList (digits.toList.take 1)
  let others := String.ofList (digits.toList.drop 1)
  let mantissa := if others.isEmpty then first else first ++ "." ++ others
  mantissa ++ "e" ++ (if exponent < 0 then "-" else "+") ++ toString exponent.natAbs

/-- The text of a number. -/
def text : Binary64 → String
  | .nan => "NaN"
  | .infinite negative => if negative then "-inf" else "inf"
  | .finite negative significand exponent =>
      (if negative then "-" else "") ++
        (if significand = 0 then "0.0"
        else
          let (digits, exponent) := shortest significand exponent
          let digits := toString digits
          let leading := exponent + digits.length - 1
          if -5 ≤ leading ∧ leading ≤ 15 then positionalText digits exponent
          else exponentText digits leading)

end FixedLayout.Binary64
