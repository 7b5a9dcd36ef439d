import FixedLayout.ScaledRational.Basic

/-!
# Arithmetic with guarded divisions

On a machine a division by zero ends the program. The operations below divide through
`quotient?` and `remainder?` only and yield nothing as soon as there is nothing to divide by.
On numbers whose divisors are not zero each of them yields what the operation beside it
yields, and what is made has a divisor that is not zero either: it is one that was asked for,
a power of ten, or the smaller one of two.
-/

namespace FixedLayout.ScaledRational

/-- The truncated quotient; none by zero. -/
def quotient? (dividend divisor : Int) : Option Int :=
  if divisor = 0 then none else some (dividend.tdiv divisor)

/-- What the truncated quotient leaves over; none by zero. -/
def remainder? (dividend divisor : Int) : Option Int :=
  if divisor = 0 then none else some (dividend.tmod divisor)

/-- The integer over `target` that stands for `raw` over `source`, truncated. -/
def rescale? (raw : Int) (source target : Nat) : Option Int := quotient? (raw * target) source

/-- The number over another divisor. -/
def rebase? (number : ScaledRational) (divisor : Nat) :
    Option (Except ZeroDivisor ScaledRational) :=
  if divisor = 0 then some (.error .zeroDivisor)
  else if divisor = number.divisor then some (.ok number)
  else (rescale? number.raw number.divisor divisor).map fun raw => .ok ⟨raw, divisor⟩

/-- The raw values of two numbers over the smaller of their divisors, and that divisor. -/
def align? (left right : ScaledRational) : Option (Int × Int × Nat) :=
  if left.divisor = right.divisor then some (left.raw, right.raw, left.divisor)
  else if left.divisor < right.divisor then
    (rescale? right.raw right.divisor left.divisor).map fun raw => (left.raw, raw, left.divisor)
  else
    (rescale? left.raw left.divisor right.divisor).map fun raw => (raw, right.raw, right.divisor)

/-- The outcome of an operation on the raw values over the smaller divisor. -/
def combine? {Result : Type} (operation? : Int → Int → Nat → Option Result)
    (left right : ScaledRational) : Option Result := do
  let (leftRaw, rightRaw, divisor) ← align? left right
  operation? leftRaw rightRaw divisor

/-- The sum over the smaller divisor. -/
def add? : ScaledRational → ScaledRational → Option ScaledRational :=
  combine? fun leftRaw rightRaw divisor => some ⟨leftRaw + rightRaw, divisor⟩

/-- The difference over the smaller divisor. -/
def sub? : ScaledRational → ScaledRational → Option ScaledRational :=
  combine? fun leftRaw rightRaw divisor => some ⟨leftRaw - rightRaw, divisor⟩

/-- The truncated product over the smaller divisor. -/
def mul? : ScaledRational → ScaledRational → Option ScaledRational :=
  combine? fun leftRaw rightRaw divisor =>
    (quotient? (leftRaw * rightRaw) divisor).map fun raw => ⟨raw, divisor⟩

/-- The truncated quotient over the smaller divisor, unless the right operand vanishes. -/
def div? : ScaledRational → ScaledRational → Option (Except ZeroDivisor ScaledRational) :=
  combine? fun leftRaw rightRaw divisor =>
    if rightRaw = 0 then some (.error .zeroDivisor)
    else (quotient? (leftRaw * divisor) rightRaw).map fun raw => .ok ⟨raw, divisor⟩

/-- The approximate quotient: the whole part plus the rounded fraction. -/
def approximate? (number : ScaledRational) : Option Binary64 := do
  let whole ← quotient? number.raw number.divisor
  let fraction ← remainder? number.raw number.divisor
  some ((Binary64.ofLongInt whole).add
    ((Binary64.ofLongInt fraction).divide (Binary64.ofLongInt number.divisor)))

/-- There is a quotient by a divisor that is not zero. -/
theorem quotient?_of_ne {dividend divisor : Int} (nonzero : divisor ≠ 0) :
    quotient? dividend divisor = some (dividend.tdiv divisor) := if_neg nonzero

/-- There is a quotient by a positive divisor. -/
theorem quotient?_of_pos {dividend : Int} {divisor : Nat} (positive : 0 < divisor) :
    quotient? dividend divisor = some (dividend.tdiv divisor) :=
  quotient?_of_ne (Int.natCast_ne_zero.mpr (Nat.ne_of_gt positive))

/-- There is a remainder by a positive divisor. -/
theorem remainder?_of_pos {dividend : Int} {divisor : Nat} (positive : 0 < divisor) :
    remainder? dividend divisor = some (dividend.tmod divisor) :=
  if_neg (Int.natCast_ne_zero.mpr (Nat.ne_of_gt positive))

/-- Rescaling divides by the divisor it comes from, so from a positive one it has a result. -/
theorem rescale?_eq {source : Nat} (positive : 0 < source) (raw : Int) (target : Nat) :
    rescale? raw source target = some (rescale raw source target) :=
  quotient?_of_pos positive

/-- Rebasing has an answer for every number with a positive divisor. -/
theorem rebase?_eq {number : ScaledRational} (positive : 0 < number.divisor) (divisor : Nat) :
    number.rebase? divisor = some (number.rebase divisor) := by
  rw [rebase?, rebase, rescale?_eq positive]
  split
  · rfl
  · split <;> rfl

/-- Approximating has a result for every number with a positive divisor. -/
theorem approximate?_eq {number : ScaledRational} (positive : 0 < number.divisor) :
    number.approximate? = some number.approximate := by
  rw [approximate?, quotient?_of_pos positive, remainder?_of_pos positive]
  rfl

/-- Two numbers are brought onto the smaller one of their divisors. -/
theorem divisor_align (left right : ScaledRational) :
    (align left right).2.2 = min left.divisor right.divisor := by
  rw [align]
  split
  case isTrue same => rw [same, Nat.min_self]
  case isFalse =>
    split
    case isTrue smaller => exact (Nat.min_eq_left (Nat.le_of_lt smaller)).symm
    case isFalse greater => exact (Nat.min_eq_right (Nat.le_of_not_lt greater)).symm

/-- A division fails when its right operand vanishes over the smaller divisor. -/
theorem div_of_eq_zero {left right : ScaledRational} (vanishes : (align left right).2.1 = 0) :
    left.div right = .error .zeroDivisor := if_pos vanishes

/-- Otherwise it succeeds. -/
theorem div_of_ne_zero {left right : ScaledRational} (nonzero : (align left right).2.1 ≠ 0) :
    left.div right =
      .ok ⟨((align left right).1 * (align left right).2.2).tdiv (align left right).2.1,
        (align left right).2.2⟩ := if_neg nonzero

section Operands

variable {left right : ScaledRational} (leftPositive : 0 < left.divisor)
  (rightPositive : 0 < right.divisor)
include leftPositive rightPositive

/-- Operands with positive divisors are aligned over a positive one. -/
theorem divisor_align_pos : 0 < (align left right).2.2 := by
  rw [divisor_align]
  exact Nat.lt_min.mpr ⟨leftPositive, rightPositive⟩

/-- Operands with positive divisors can be aligned. -/
theorem align?_eq : align? left right = some (align left right) := by
  rw [align?, align, rescale?_eq leftPositive, rescale?_eq rightPositive]
  split
  · rfl
  · split <;> rfl

/-- An operation that is defined wherever the divisor is positive is defined. -/
theorem combine?_eq {Result : Type} {operation? : Int → Int → Nat → Option Result}
    {result : Result}
    (defined : 0 < (align left right).2.2 → operation? (align left right).1
      (align left right).2.1 (align left right).2.2 = some result) :
    combine? operation? left right = some result := by
  rw [combine?, align?_eq leftPositive rightPositive]
  exact defined (divisor_align_pos leftPositive rightPositive)

/-- The sum of operands with positive divisors has a result. -/
theorem add?_eq : left.add? right = some (left.add right) :=
  combine?_eq leftPositive rightPositive fun _ => rfl

/-- The difference of operands with positive divisors has a result. -/
theorem sub?_eq : left.sub? right = some (left.sub right) :=
  combine?_eq leftPositive rightPositive fun _ => rfl

/-- The product of operands with positive divisors, divided by the smaller one, has a result. -/
theorem mul?_eq : left.mul? right = some (left.mul right) := by
  refine combine?_eq leftPositive rightPositive fun positive => ?_
  rw [quotient?_of_pos positive]
  rfl

/-- A right operand that does not vanish can be divided by. -/
theorem div?_eq : left.div? right = some (left.div right) := by
  refine combine?_eq leftPositive rightPositive fun _ => ?_
  -- A number that is not zero may be zero over the smaller divisor, so it is looked at there.
  by_cases vanishes : (align left right).2.1 = 0
  · rw [if_pos vanishes, div_of_eq_zero vanishes]
  · rw [if_neg vanishes, quotient?_of_ne vanishes, div_of_ne_zero vanishes]
    rfl

end Operands

/-- Making a number fails exactly if its divisor is zero. -/
theorem make_eq_error_iff {raw : Int} {divisor : Nat} {error : ZeroDivisor} :
    make raw divisor = .error error ↔ divisor = 0 := by
  rw [make]
  split <;> simp [*]

/-- A number that is made has the divisor that was asked for, which was not zero. -/
theorem divisor_of_make {raw : Int} {divisor : Nat} {number : ScaledRational}
    (made : make raw divisor = .ok number) : number.divisor = divisor ∧ 0 < number.divisor := by
  rw [make] at made
  split at made
  case isTrue => cases made
  case isFalse nonzero =>
    cases made
    exact ⟨rfl, Nat.pos_of_ne_zero nonzero⟩

/-- Rebasing a number fails exactly if the new divisor is zero. -/
theorem rebase_eq_error_iff {number : ScaledRational} {divisor : Nat} {error : ZeroDivisor} :
    number.rebase divisor = .error error ↔ divisor = 0 := by
  rw [rebase]
  by_cases zero : divisor = 0
  · simp [zero]
  · rw [if_neg zero]
    split <;> simp [zero]

/-- A number that is rebased has the divisor that was asked for, which was not zero. -/
theorem divisor_of_rebase {number rebased : ScaledRational} {divisor : Nat}
    (made : number.rebase divisor = .ok rebased) :
    rebased.divisor = divisor ∧ 0 < rebased.divisor := by
  rw [rebase] at made
  split at made
  case isTrue => cases made
  case isFalse nonzero =>
    split at made
    case isTrue same =>
      cases made
      exact ⟨same.symm, same ▸ Nat.pos_of_ne_zero nonzero⟩
    case isFalse =>
      cases made
      exact ⟨rfl, Nat.pos_of_ne_zero nonzero⟩

/-- A division is refused exactly if its second operand vanishes when aligned. -/
theorem div_eq_error_iff {left right : ScaledRational} {error : ZeroDivisor} :
    left.div right = .error error ↔ (align left right).2.1 = 0 := by
  by_cases vanishes : (align left right).2.1 = 0
  · simp [div_of_eq_zero vanishes, vanishes]
  · simp [div_of_ne_zero vanishes, vanishes]

/-- A quotient has the smaller divisor. -/
theorem divisor_of_div {left right quotient : ScaledRational}
    (made : left.div right = .ok quotient) :
    quotient.divisor = min left.divisor right.divisor := by
  by_cases vanishes : (align left right).2.1 = 0
  · rw [div_of_eq_zero vanishes] at made
    cases made
  · rw [div_of_ne_zero vanishes] at made
    cases made
    exact divisor_align left right

end FixedLayout.ScaledRational
