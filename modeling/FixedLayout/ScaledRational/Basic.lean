import FixedLayout.Binary64.Limbs

/-!
# Scaled rationals

A scaled rational is an integer over a divisor. Two of them are the same only if
both parts are: `1/2` and `2/4` differ until one is rebased. Operations bring both
operands onto the smaller divisor first, and every division truncates toward zero.
-/

namespace FixedLayout

/-- The number `raw / divisor`. -/
structure ScaledRational where
  raw : Int
  divisor : Nat
  deriving DecidableEq

/-- A divisor, or the operand of a division, was zero. -/
inductive ZeroDivisor where
  | zeroDivisor
  deriving DecidableEq

/-- The text of the error. -/
def ZeroDivisor.message : ZeroDivisor → String
  | zeroDivisor => "zero divisor"

namespace ScaledRational

/-- The number with the given parts. -/
def make (raw : Int) (divisor : Nat) : Except ZeroDivisor ScaledRational :=
  if divisor = 0 then .error .zeroDivisor else .ok ⟨raw, divisor⟩

/-- An amount with the given count of decimal places. -/
def ofDecimals (raw : Int) (decimals : Nat) : ScaledRational := ⟨raw, 10 ^ decimals⟩

/-- The integer over `target` that stands for `raw` over `source`, truncated. -/
def rescale (raw : Int) (source target : Nat) : Int := (raw * target).tdiv source

/-- The number over another divisor. -/
def rebase (number : ScaledRational) (divisor : Nat) : Except ZeroDivisor ScaledRational :=
  if divisor = 0 then .error .zeroDivisor
  else if divisor = number.divisor then .ok number
  else .ok ⟨rescale number.raw number.divisor divisor, divisor⟩

/-- The raw values of two numbers over the smaller of their divisors, and that divisor. -/
def align (left right : ScaledRational) : Int × Int × Nat :=
  if left.divisor = right.divisor then (left.raw, right.raw, left.divisor)
  else if left.divisor < right.divisor then
    (left.raw, rescale right.raw right.divisor left.divisor, left.divisor)
  else (rescale left.raw left.divisor right.divisor, right.raw, right.divisor)

/-- The sum over the smaller divisor. -/
def add (left right : ScaledRational) : ScaledRational :=
  let (leftRaw, rightRaw, divisor) := align left right
  ⟨leftRaw + rightRaw, divisor⟩

/-- The difference over the smaller divisor. -/
def sub (left right : ScaledRational) : ScaledRational :=
  let (leftRaw, rightRaw, divisor) := align left right
  ⟨leftRaw - rightRaw, divisor⟩

/-- The truncated product over the smaller divisor. -/
def mul (left right : ScaledRational) : ScaledRational :=
  let (leftRaw, rightRaw, divisor) := align left right
  ⟨(leftRaw * rightRaw).tdiv divisor, divisor⟩

/-- The truncated quotient over the smaller divisor. The right operand may vanish
when it is brought onto that divisor; then there is none. -/
def div (left right : ScaledRational) : Except ZeroDivisor ScaledRational :=
  let (leftRaw, rightRaw, divisor) := align left right
  if rightRaw = 0 then .error .zeroDivisor else .ok ⟨(leftRaw * divisor).tdiv rightRaw, divisor⟩

/-- The approximate quotient: the whole part plus the rounded fraction. -/
def approximate (number : ScaledRational) : Binary64 :=
  let whole := number.raw.tdiv number.divisor
  let fraction := number.raw.tmod number.divisor
  (Binary64.ofLongInt whole).add
    ((Binary64.ofLongInt fraction).divide (Binary64.ofLongInt number.divisor))

/-- The number as a fraction. -/
def text (number : ScaledRational) : String :=
  toString number.raw ++ "/" ++ toString number.divisor

end ScaledRational

end FixedLayout
