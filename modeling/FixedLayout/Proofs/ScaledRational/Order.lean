import Mathlib.Algebra.Order.Field.Basic
import Mathlib.Data.Rat.Cast.Order
import FixedLayout.Proofs.ScaledRational.Truncation

/-!
# Order

Numbers over different divisors are compared by their quotients. Rebasing two of them onto one
divisor keeps their order: both are first written over the product of their divisors, which
changes neither the quotients nor what rebasing makes of them, and there the raw values tell
the order. Numbers with the same quotient therefore become the same number.
-/

namespace FixedLayout.ScaledRational

/-- The exact quotient. -/
def quotient (number : ScaledRational) : Rat := (number.raw : Rat) / number.divisor

section Comparison

variable {first second : ScaledRational} (firstPositive : 0 < first.divisor)
  (secondPositive : 0 < second.divisor)
include firstPositive secondPositive

/-- Quotients are compared by multiplying crosswise. -/
theorem quotient_le_quotient_iff :
    first.quotient ≤ second.quotient ↔
      first.raw * second.divisor ≤ second.raw * first.divisor := by
  rw [quotient, quotient,
    div_le_div_iff₀ (Nat.cast_pos.mpr firstPositive) (Nat.cast_pos.mpr secondPositive)]
  exact_mod_cast Iff.rfl

/-- The order of the quotients is that of the rescaled raw values. -/
theorem rescale_le_of_quotient_le (le : first.quotient ≤ second.quotient) (target : Nat) :
    rescale first.raw first.divisor target ≤ rescale second.raw second.divisor target := by
  have crosswise := (quotient_le_quotient_iff firstPositive secondPositive).mp le
  have product : 0 < first.divisor * second.divisor := Nat.mul_pos firstPositive secondPositive
  calc rescale first.raw first.divisor target
      = rescale (first.raw * second.divisor) (first.divisor * second.divisor) target :=
        (rescale_mul_mul secondPositive).symm
    _ ≤ rescale (second.raw * first.divisor) (first.divisor * second.divisor) target :=
        rescale_le_rescale product crosswise
    _ = rescale (second.raw * first.divisor) (second.divisor * first.divisor) target := by
        rw [Nat.mul_comm]
    _ = rescale second.raw second.divisor target := rescale_mul_mul firstPositive

end Comparison

/-- Rebasing two numbers onto one divisor keeps them in order. -/
structure RebasesInOrder (first second : ScaledRational) : Prop where
  /-- The number with the smaller quotient gets no greater raw value than the other one. -/
  monotone : first.quotient ≤ second.quotient → ∀ divisor, 0 < divisor → ∃ lower upper,
    first.rebase divisor = .ok lower ∧ second.rebase divisor = .ok upper ∧
      lower.divisor = upper.divisor ∧ lower.raw ≤ upper.raw
  /-- Numbers with one quotient become one number. -/
  agreement : first.quotient = second.quotient →
    ∀ divisor, first.rebase divisor = second.rebase divisor
  /-- The other side of zero is treated alike. -/
  negation : ∀ divisor, first.negate.rebase divisor = (first.rebase divisor).map negate

/-- Numbers with positive divisors are rebased in order. -/
theorem rebasesInOrder {first second : ScaledRational} (firstPositive : 0 < first.divisor)
    (secondPositive : 0 < second.divisor) : RebasesInOrder first second where
  monotone := by
    intro le divisor positive
    exact ⟨_, _, rebase_of_pos firstPositive positive, rebase_of_pos secondPositive positive, rfl,
      rescale_le_of_quotient_le firstPositive secondPositive le divisor⟩
  agreement := by
    intro same divisor
    rcases Nat.eq_zero_or_pos divisor with rfl | positive
    · rfl
    · have raws : rescale first.raw first.divisor divisor =
          rescale second.raw second.divisor divisor :=
        Int.le_antisymm
          (rescale_le_of_quotient_le firstPositive secondPositive same.le divisor)
          (rescale_le_of_quotient_le secondPositive firstPositive same.ge divisor)
      rw [rebase_of_pos firstPositive positive, rebase_of_pos secondPositive positive, raws]
  negation := rebase_negate first

/-- One half and two quarters are different numbers, but the same over any one divisor. -/
theorem rebasesInOrder_halves :
    0 < (⟨1, 2⟩ : ScaledRational).divisor ∧ 0 < (⟨2, 4⟩ : ScaledRational).divisor ∧
      (⟨1, 2⟩ : ScaledRational) ≠ ⟨2, 4⟩ ∧ quotient ⟨1, 2⟩ = quotient ⟨2, 4⟩ ∧
      ∀ divisor, rebase ⟨1, 2⟩ divisor = rebase ⟨2, 4⟩ divisor := by
  have ordered : RebasesInOrder ⟨1, 2⟩ ⟨2, 4⟩ := rebasesInOrder (by decide) (by decide)
  have same : quotient ⟨1, 2⟩ = quotient ⟨2, 4⟩ := by decide +kernel
  exact ⟨by decide, by decide, by decide, same, ordered.agreement same⟩

end FixedLayout.ScaledRational
