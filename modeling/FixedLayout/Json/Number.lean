import FixedLayout.Binary64.Shortest

/-!
# JSON numbers

An integer literal that fits keeps its exact value: without a sign as a 64-bit
unsigned integer, with one as a 64-bit signed integer. Every other literal, `-0`
among them, becomes a binary64 number: its digits are collected while they fit in
64 bits, rounded, and scaled by one rounded power of ten. Because both factors
are rounded, the result may miss the nearest number by one place.
-/

namespace FixedLayout.Json

/-- The value of a number literal. -/
inductive Number where
  | unsigned (value : UInt64)
  | negative (magnitude : Nat)
  | binary (value : Binary64)
  deriving DecidableEq

/-- The text of a number. -/
def Number.text : Number → String
  | unsigned value => toString value.toNat
  | negative magnitude => "-" ++ toString magnitude
  | binary value => value.text

/-- The parts of a number literal: the digits before the point, those after it,
and the exponent with its sign. -/
structure Literal where
  isNegative : Bool
  whole : List Char
  fraction : Option (List Char)
  exponent : Option Int

namespace Literal

/-- Whether a character is a decimal digit. -/
def isDigit (char : Char) : Bool := '0' ≤ char && char ≤ '9'

/-- The value of a decimal digit. -/
def digitValue (char : Char) : Nat := char.toNat - '0'.toNat

/-- The number that a list of decimal digits denotes. -/
def digitsValue (digits : List Char) : Nat :=
  digits.foldl (fun value digit => 10 * value + digitValue digit) 0

/-- Digits collected into a significand below `2 ^ 64`, and how many further
digits were left out because they did not fit. -/
def collect : Nat → List Char → Nat × Nat
  | significand, [] => (significand, 0)
  | significand, digit :: digits =>
      let next := 10 * significand + digitValue digit
      if next < 2 ^ 64 then collect next digits else (significand, digits.length + 1)

/-- `value * 10 ^ exponent`, with one rounded power of ten of at most 308 per
step. A product that leaves the range is refused. -/
def scale (value : Binary64) (exponent : Int) : Option Binary64 :=
  if 0 ≤ exponent then
    if value = Binary64.zero false then some value
    else if 308 < exponent then none
    else
      match value.multiply (Binary64.ofNat (10 ^ exponent.toNat)) with
      | .infinite _ => none
      | product => some product
  else down value (-exponent).toNat
where
  /-- The value divided by the power of ten, 308 places at a time. -/
  down (value : Binary64) (places : Nat) : Option Binary64 :=
    if places ≤ 308 then some (value.divide (Binary64.ofNat (10 ^ places)))
    else if value = Binary64.zero false then some value
    else down (value.divide (Binary64.ofNat (10 ^ 308))) (places - 308)
  termination_by places
  decreasing_by omega

/-- The binary64 value of a literal, unless it is out of range. -/
def toBinary (literal : Literal) : Option Binary64 :=
  let (significand, leftOut) := collect 0 literal.whole
  let fraction := literal.fraction.getD []
  let (significand, unread) := collect significand fraction
  let exponent : Int :=
    (leftOut : Int) - ((fraction.length - unread : Nat) : Int) + literal.exponent.getD 0
  (scale (Binary64.ofNat significand) exponent).map fun value =>
    if literal.isNegative then value.negate else value

/-- The value of a literal, unless it is out of range. -/
def toNumber (literal : Literal) : Option Number :=
  let integer := digitsValue literal.whole
  match literal.fraction, literal.exponent, literal.isNegative with
  | none, none, false =>
      if integer < 2 ^ 64 then some (.unsigned (UInt64.ofNat integer))
      else literal.toBinary.map .binary
  | none, none, true =>
      if 0 < integer ∧ integer ≤ 2 ^ 63 then some (.negative integer)
      else literal.toBinary.map .binary
  | _, _, _ => literal.toBinary.map .binary

end Literal

end FixedLayout.Json
