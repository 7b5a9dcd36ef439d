import FixedLayout.Proofs.ScaledRational.Alignment
import FixedLayout.Proofs.ScaledRational.Detours

/-!
# Undoing divisions

Whether a division is refused can be told from the right operand before it is truncated: it
vanishes over the smaller divisor if it is less than one unit there. Dividing by a number and
multiplying by it again is a detour by way of that divisor, so the product falls short of the left
operand by what two truncations lose, of which one is counted in units of the right operand.
-/

namespace FixedLayout.ScaledRational

section Raw

variable {dividend divisor quotient : Int} {unit : Nat} (nonzero : divisor ≠ 0)
  (positive : 0 < unit)
include nonzero

/-- Nothing is cut off a multiple of the divisor. -/
theorem truncates_mul_self (value : Int) :
    Truncates value.sign (value.natAbs * divisor.natAbs) divisor.natAbs value where
  reached := Nat.le_refl _
  missed := Nat.mul_lt_mul_of_pos_right (Nat.lt_succ_self _) (Int.natAbs_pos.mpr nonzero)
  signed := .inr rfl

include positive

variable (truncates : Truncates (dividend * divisor).sign (dividend.natAbs * unit) divisor.natAbs
  quotient)
include truncates

/-- Multiplying the quotient back does not change sides. -/
theorem signed_of_undone :
    (quotient * divisor).tdiv unit = 0 ∨ ((quotient * divisor).tdiv unit).sign = dividend.sign := by
  rcases truncates.signed with zero | quotientSigned
  · rw [zero, Int.zero_mul, Int.zero_tdiv]
    exact .inl rfl
  · rcases (truncates_tdiv_natCast (quotient * divisor) positive).signed with zero | productSigned
    · exact .inl zero
    · have square : divisor.sign * divisor.sign = 1 := by
        have same := Int.mul_sign_self divisor.sign
        rw [Int.sign_sign, Int.natAbs_sign_of_ne_zero nonzero] at same
        exact same
      right
      rw [productSigned, Int.sign_mul, quotientSigned, Int.sign_mul, Int.mul_assoc, square,
        Int.mul_one]

/-- Nor does it lead beyond the dividend. -/
theorem natAbs_le_of_undone : ((quotient * divisor).tdiv unit).natAbs ≤ dividend.natAbs := by
  have onward := truncates_tdiv_natCast (quotient * divisor) positive
  rw [Int.natAbs_mul] at onward
  exact natAbs_le_of_detour truncates onward (truncates_mul_self nonzero dividend) positive

/-- What is missing is bounded by the two truncations. -/
theorem loss_of_undone :
    (dividend.natAbs - ((quotient * divisor).tdiv unit).natAbs) * unit <
      divisor.natAbs + unit := by
  have onward := truncates_tdiv_natCast (quotient * divisor) positive
  rw [Int.natAbs_mul] at onward
  exact loss_of_detour truncates onward (truncates_mul_self nonzero dividend)
    (Int.natAbs_pos.mpr nonzero)

end Raw

/-- A quotient and how far multiplying by the right operand undoes it. The operands over the
divisor of the quotient are given. -/
structure Undone (first second right quotient : ScaledRational) : Prop where
  /-- The quotient is truncated once, under the sign of the two operands together. -/
  truncated : Truncates (first.raw * second.raw).sign (first.raw.natAbs * quotient.divisor)
    second.raw.natAbs quotient.raw
  /-- Multiplying keeps the divisor. -/
  divisor_eq : (quotient.mul right).divisor = quotient.divisor
  /-- The product is on the side of the left operand, unless nothing is left of it. -/
  signed : (quotient.mul right).raw = 0 ∨ (quotient.mul right).raw.sign = first.raw.sign
  /-- The product is no farther from zero than the left operand. -/
  nearer : (quotient.mul right).raw.natAbs ≤ first.raw.natAbs
  /-- What is missing is less than the right operand and one whole, all of it in units. -/
  loss : (first.raw.natAbs - (quotient.mul right).raw.natAbs) * quotient.divisor <
    second.raw.natAbs + quotient.divisor

/-- Only the product over the divisor of the quotient has to be known. -/
theorem undone_of_mul_eq {first second right quotient : ScaledRational} (nonzero : second.raw ≠ 0)
    (positive : 0 < quotient.divisor)
    (truncated : Truncates (first.raw * second.raw).sign (first.raw.natAbs * quotient.divisor)
      second.raw.natAbs quotient.raw)
    (product : quotient.mul right =
      ⟨(quotient.raw * second.raw).tdiv quotient.divisor, quotient.divisor⟩) :
    Undone first second right quotient where
  truncated := truncated
  divisor_eq := by rw [product]
  signed := by
    rw [product]
    exact signed_of_undone nonzero positive truncated
  nearer := by
    rw [product]
    exact natAbs_le_of_undone nonzero positive truncated
  loss := by
    rw [product]
    exact loss_of_undone nonzero positive truncated

/-- When a division is refused, and what it yields otherwise. -/
structure DividesBack (left right : ScaledRational) : Prop where
  /-- A division is refused exactly if the right operand is less than one unit of the smaller
  divisor. -/
  refused_iff : left.div right = .error .zeroDivisor ↔
    right.raw.natAbs * min left.divisor right.divisor < right.divisor
  /-- Otherwise it yields a quotient of the operands over the smaller divisor, which multiplying
  undoes. -/
  yields : right.divisor ≤ right.raw.natAbs * min left.divisor right.divisor →
    ∃ first second quotient, left.rebase (min left.divisor right.divisor) = .ok first ∧
      right.rebase (min left.divisor right.divisor) = .ok second ∧
      left.div right = .ok quotient ∧ quotient.divisor = min left.divisor right.divisor ∧
      Undone first second right quotient

section Operands

variable {left right : ScaledRational} (leftPositive : 0 < left.divisor)
  (rightPositive : 0 < right.divisor)
include leftPositive rightPositive

/-- The right operand vanishes over the smaller divisor if it is less than one unit there. -/
theorem align_right_eq_zero_iff :
    (align left right).2.1 = 0 ↔
      right.raw.natAbs * min left.divisor right.divisor < right.divisor := by
  have positive : 0 < min left.divisor right.divisor :=
    Nat.lt_min.mpr ⟨leftPositive, rightPositive⟩
  rw [align_of_pos leftPositive rightPositive]
  exact (truncates_rescale right.raw rightPositive positive).eq_zero_iff

/-- A right operand that does not vanish is divided by, and multiplying by it undoes that. -/
theorem exists_undone (nonzero : (align left right).2.1 ≠ 0) :
    ∃ first second quotient, left.rebase (align left right).2.2 = .ok first ∧
      right.rebase (align left right).2.2 = .ok second ∧ left.div right = .ok quotient ∧
      quotient.divisor = (align left right).2.2 ∧ Undone first second right quotient := by
  have positive := divisor_align_pos leftPositive rightPositive
  have second : right.rebase (align left right).2.2 =
      .ok ⟨(align left right).2.1, (align left right).2.2⟩ := by
    rw [rebase_of_pos rightPositive positive, align_of_pos leftPositive rightPositive]
  refine ⟨_, _, _, rebase_align leftPositive rightPositive, second, div_of_ne_zero nonzero, rfl,
    undone_of_mul_eq nonzero positive (truncates_mul_tdiv _ nonzero positive) ?_⟩
  rw [mul_eq, align_again leftPositive rightPositive]

end Operands

/-- Numbers with positive divisors are divided, and the division undone, within two truncations. -/
theorem dividesBack {left right : ScaledRational} (leftPositive : 0 < left.divisor)
    (rightPositive : 0 < right.divisor) : DividesBack left right where
  refused_iff := by
    rw [div_eq_error_iff]
    exact align_right_eq_zero_iff leftPositive rightPositive
  yields := by
    intro enough
    have nonzero : (align left right).2.1 ≠ 0 := by
      rw [ne_eq, align_right_eq_zero_iff leftPositive rightPositive]
      exact Nat.not_lt_of_le enough
    rw [← divisor_align]
    exact exists_undone leftPositive rightPositive nonzero

/-- Minus 0.7 is divided by 3.25, which is 3.2 over tenths; minus 0.2 is multiplied back to minus
0.6. -/
theorem dividesBack_tenths :
    0 < (⟨-7, 10⟩ : ScaledRational).divisor ∧ 0 < (⟨325, 100⟩ : ScaledRational).divisor ∧
      div ⟨-7, 10⟩ ⟨325, 100⟩ = .ok ⟨-2, 10⟩ ∧ mul ⟨-2, 10⟩ ⟨325, 100⟩ = ⟨-6, 10⟩ ∧
      Undone ⟨-7, 10⟩ ⟨32, 10⟩ ⟨325, 100⟩ ⟨-2, 10⟩ := by
  have divides : DividesBack ⟨-7, 10⟩ ⟨325, 100⟩ := dividesBack (by decide) (by decide)
  obtain ⟨first, second, quotient, kept, truncated, divided, -, undone⟩ :=
    divides.yields (by decide)
  cases kept
  cases truncated
  cases divided
  exact ⟨by decide, by decide, rfl, rfl, undone⟩

end FixedLayout.ScaledRational
