import FixedLayout.Proofs.ScaledRational.Divisions

/-!
# Truncated fractions

`Truncates` says by magnitudes and a sign, without dividing, what it is to cut a fraction off
toward zero: at most one integer does that, and the truncated quotient of two integers does.
The laws of rescaling follow, for signs, common factors and order. Rebasing is one rescaling,
also where the divisor stays the same and nothing is computed.
-/

namespace FixedLayout.ScaledRational

/-- The quotient is a fraction of two natural numbers cut off toward zero, under a sign. -/
structure Truncates (sign : Int) (dividend divisor : Nat) (quotient : Int) : Prop where
  /-- The magnitude of the quotient is not above the fraction. -/
  reached : quotient.natAbs * divisor ≤ dividend
  /-- One more would be. -/
  missed : dividend < (quotient.natAbs + 1) * divisor
  /-- The quotient has the sign, unless nothing is left of it. -/
  signed : quotient = 0 ∨ quotient.sign = sign

section Truncation

variable {sign : Int} {dividend divisor : Nat} {quotient other : Int}

/-- The magnitude of a truncated quotient is the quotient of the magnitudes. -/
theorem Truncates.natAbs_eq (truncates : Truncates sign dividend divisor quotient) :
    quotient.natAbs = dividend / divisor :=
  (Nat.div_eq_of_lt_le truncates.reached truncates.missed).symm

/-- A fraction and a sign leave no choice. -/
theorem Truncates.unique (truncates : Truncates sign dividend divisor quotient)
    (again : Truncates sign dividend divisor other) : quotient = other := by
  have magnitudes : quotient.natAbs = other.natAbs :=
    truncates.natAbs_eq.trans again.natAbs_eq.symm
  -- A quotient of zero may stand for any sign, so its magnitude has to decide.
  rcases truncates.signed with zero | signed
  · rw [zero, Int.natAbs_zero] at magnitudes
    rw [zero, Int.natAbs_eq_zero.mp magnitudes.symm]
  · rcases again.signed with zero | signedAgain
    · rw [zero, Int.natAbs_zero] at magnitudes
      rw [zero, Int.natAbs_eq_zero.mp magnitudes]
    · rw [← Int.sign_mul_natAbs quotient, ← Int.sign_mul_natAbs other, signed, signedAgain,
        magnitudes]

/-- Nothing is left of a fraction below one, and of no other. -/
theorem Truncates.eq_zero_iff (truncates : Truncates sign dividend divisor quotient) :
    quotient = 0 ↔ dividend < divisor := by
  constructor
  · intro zero
    have missed := truncates.missed
    rwa [zero, Int.natAbs_zero, Nat.zero_add, Nat.one_mul] at missed
  · intro small
    rw [← Int.natAbs_eq_zero, truncates.natAbs_eq, Nat.div_eq_of_lt small]

/-- The quotient is not on the other side of zero. -/
theorem Truncates.mul_sign_nonneg (truncates : Truncates sign dividend divisor quotient) :
    0 ≤ quotient * sign := by
  rcases truncates.signed with zero | signed
  · exact Int.le_of_eq (by rw [zero, Int.zero_mul])
  · rw [← signed, Int.mul_sign_self]
    exact Int.natCast_nonneg _

end Truncation

/-- The truncated quotient of two integers truncates the fraction of their magnitudes. -/
theorem truncates_tdiv (dividend : Int) {divisor : Int} (nonzero : divisor ≠ 0) :
    Truncates (dividend.sign * divisor.sign) dividend.natAbs divisor.natAbs
      (dividend.tdiv divisor) := by
  have magnitude : (dividend.tdiv divisor).natAbs = dividend.natAbs / divisor.natAbs :=
    Int.natAbs_tdiv dividend divisor
  have positive : 0 < divisor.natAbs := Int.natAbs_pos.mpr nonzero
  refine ⟨?reached, ?missed, ?signed⟩
  case reached =>
    rw [magnitude]
    exact Nat.div_mul_le_self _ _
  case missed =>
    rw [magnitude, ← Nat.div_lt_iff_lt_mul positive]
    exact Nat.lt_succ_self _
  case signed =>
    by_cases small : dividend.natAbs < divisor.natAbs
    · rw [Nat.div_eq_of_lt small] at magnitude
      exact .inl (Int.natAbs_eq_zero.mp magnitude)
    · rw [Int.sign_tdiv, if_neg small]
      exact .inr rfl

/-- By a natural number it keeps the sign. -/
theorem truncates_tdiv_natCast (dividend : Int) {divisor : Nat} (positive : 0 < divisor) :
    Truncates dividend.sign dividend.natAbs divisor (dividend.tdiv divisor) := by
  have nonzero : divisor ≠ 0 := Nat.ne_of_gt positive
  have truncates := truncates_tdiv dividend (Int.natCast_ne_zero.mpr nonzero)
  rwa [Int.sign_natCast_of_ne_zero nonzero, Int.mul_one, Int.natAbs_natCast] at truncates

/-- The dividend may be scaled before. -/
theorem truncates_mul_tdiv (dividend : Int) {divisor : Int} (nonzero : divisor ≠ 0) {factor : Nat}
    (positive : 0 < factor) :
    Truncates (dividend * divisor).sign (dividend.natAbs * factor) divisor.natAbs
      ((dividend * factor).tdiv divisor) := by
  have truncates := truncates_tdiv (dividend * factor) nonzero
  rw [Int.sign_mul, Int.sign_natCast_of_ne_zero (Nat.ne_of_gt positive), Int.mul_one,
    ← Int.sign_mul, Int.natAbs_mul, Int.natAbs_natCast] at truncates
  exact truncates

section Rescaling

variable {raw lower upper : Int} {source target factor : Nat}

/-- Rescaling cuts off toward zero. -/
theorem truncates_rescale (raw : Int) (sourcePositive : 0 < source) (targetPositive : 0 < target) :
    Truncates raw.sign (raw.natAbs * target) source (rescale raw source target) := by
  have nonzero : source ≠ 0 := Nat.ne_of_gt sourcePositive
  have truncates := truncates_mul_tdiv raw (Int.natCast_ne_zero.mpr nonzero) targetPositive
  rw [Int.sign_mul, Int.sign_natCast_of_ne_zero nonzero, Int.mul_one, Int.natAbs_natCast]
    at truncates
  exact truncates

/-- It does the same on both sides of zero. -/
@[simp] theorem rescale_neg : rescale (-raw) source target = -rescale raw source target := by
  rw [rescale, rescale, Int.neg_mul, Int.neg_tdiv]

/-- Nothing is cut off where the divisor stays the same. -/
theorem rescale_self (positive : 0 < source) : rescale raw source source = raw :=
  Int.mul_tdiv_cancel raw (by omega)

/-- Nothing is cut off where the divisor becomes a multiple of itself. -/
theorem rescale_multiple (positive : 0 < source) :
    rescale raw source (source * factor) = raw * factor := by
  have product : raw * ((source * factor : Nat) : Int) = raw * factor * source := by
    rw [Int.natCast_mul]
    ac_rfl
  rw [rescale, product, Int.mul_tdiv_cancel _ (by omega)]

/-- Only the quotient counts, not how it is written. -/
theorem rescale_mul_mul (positive : 0 < factor) :
    rescale (raw * factor) (source * factor) target = rescale raw source target := by
  have product : raw * factor * target = factor * (raw * target) := by ac_rfl
  have divisor : ((source * factor : Nat) : Int) = factor * source := by
    rw [Int.natCast_mul, Int.mul_comm]
  rw [rescale, product, divisor, Int.mul_tdiv_mul_of_pos _ _ (Int.natCast_pos.mpr positive)]
  rfl

/-- Rescaling makes no number negative that is not. -/
theorem rescale_nonneg (nonneg : 0 ≤ raw) : 0 ≤ rescale raw source target :=
  Int.tdiv_nonneg (Int.mul_nonneg nonneg (Int.natCast_nonneg target)) (Int.natCast_nonneg source)

/-- Rescaling makes no number positive that is not. -/
theorem rescale_nonpos (nonpos : raw ≤ 0) : rescale raw source target ≤ 0 := by
  have nonneg : 0 ≤ rescale (-raw) source target := rescale_nonneg (by omega)
  rw [rescale_neg] at nonneg
  omega

/-- A greater number is not rescaled to a smaller one. -/
theorem rescale_le_rescale (positive : 0 < source) (le : lower ≤ upper) :
    rescale lower source target ≤ rescale upper source target :=
  Int.tdiv_le_tdiv (Int.natCast_pos.mpr positive)
    (Int.mul_le_mul_of_nonneg_right le (Int.natCast_nonneg target))

end Rescaling

/-- Rebasing is one rescaling, also where nothing has to be computed. -/
theorem rebase_of_pos {number : ScaledRational} (positive : 0 < number.divisor) {divisor : Nat}
    (divisorPositive : 0 < divisor) :
    number.rebase divisor = .ok ⟨rescale number.raw number.divisor divisor, divisor⟩ := by
  rw [rebase, if_neg (Nat.ne_of_gt divisorPositive)]
  by_cases same : divisor = number.divisor
  · rw [if_pos same, same, rescale_self positive]
  · rw [if_neg same]

/-- The number on the other side of zero. -/
def negate (number : ScaledRational) : ScaledRational := ⟨-number.raw, number.divisor⟩

/-- Rebasing a number on the other side of zero is rebasing it and changing sides. -/
theorem rebase_negate (number : ScaledRational) (divisor : Nat) :
    number.negate.rebase divisor = (number.rebase divisor).map negate := by
  rw [rebase, rebase, negate]
  by_cases zero : divisor = 0
  · rw [if_pos zero, if_pos zero]
    rfl
  · rw [if_neg zero, if_neg zero]
    by_cases same : divisor = number.divisor
    · rw [if_pos same, if_pos same]
      rfl
    · rw [if_neg same, if_neg same, rescale_neg]
      rfl

end FixedLayout.ScaledRational
