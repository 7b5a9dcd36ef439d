import FixedLayout.Proofs.ScaledRational.Alignment
import FixedLayout.Proofs.ScaledRational.Order

/-!
# Accuracy

What an operation makes is compared with what the exact quotients make. A number that was
truncated lies between zero and the exact value and misses it by less than one unit of its
divisor. Only the operand with the greater divisor is truncated before the operation: a sum or a
difference is off by what that operand loses, a product by that much as often as the other operand
says, and once more because the product is truncated itself.
-/

namespace FixedLayout.ScaledRational

/-- A rational lies between zero and another one. -/
structure Toward (near exact : Rat) : Prop where
  /-- The two are not on opposite sides of zero. -/
  side : 0 ≤ near * exact
  /-- The first one is no farther from zero. -/
  nearer : |near| ≤ |exact|

namespace Toward

variable {near between exact : Rat}

/-- What lies between zero and a number between zero and a third lies between zero and the third. -/
theorem trans (first : Toward near between) (second : Toward between exact) :
    Toward near exact := by
  refine ⟨?side, first.nearer.trans second.nearer⟩
  case side =>
    -- Over a zero in between the signs say nothing, but then nothing is left.
    rcases eq_or_ne between 0 with rfl | nonzero
    · have zero : near = 0 := abs_nonpos_iff.mp (first.nearer.trans_eq abs_zero)
      rw [zero, zero_mul]
    · have square : 0 < between * between := mul_self_pos.mpr nonzero
      have product : 0 ≤ near * exact * (between * between) :=
        calc (0 : Rat)
            ≤ near * between * (between * exact) := mul_nonneg first.side second.side
          _ = near * exact * (between * between) := by ac_rfl
      exact nonneg_of_mul_nonneg_left product square

/-- A common factor keeps one number between zero and the other. -/
theorem mul_left (factor : Rat) (toward : Toward near exact) :
    Toward (factor * near) (factor * exact) where
  side := by
    rw [mul_mul_mul_comm]
    exact mul_nonneg (mul_self_nonneg factor) toward.side
  nearer := by
    rw [abs_mul, abs_mul]
    exact mul_le_mul_of_nonneg_left toward.nearer (abs_nonneg factor)

/-- On one side of zero distances are differences of magnitudes. -/
theorem abs_sub_eq (toward : Toward near exact) : |exact - near| = |exact| - |near| := by
  have nearer := toward.nearer
  rcases mul_nonneg_iff.mp toward.side with ⟨nearNonneg, exactNonneg⟩ | ⟨nearNonpos, exactNonpos⟩
  · rw [abs_of_nonneg nearNonneg, abs_of_nonneg exactNonneg] at nearer ⊢
    exact abs_of_nonneg (sub_nonneg.mpr nearer)
  · rw [abs_of_nonpos nearNonpos, abs_of_nonpos exactNonpos] at nearer ⊢
    rw [abs_of_nonpos (sub_nonpos.mpr (neg_le_neg_iff.mp nearer)), neg_sub, neg_sub_neg]

end Toward

/-- The number is an exact value cut off toward zero by less than one unit of its divisor. -/
structure CutsOff (number : ScaledRational) (exact : Rat) : Prop where
  /-- The number lies between zero and the value. -/
  toward : Toward number.quotient exact
  /-- One unit more would lie beyond it. -/
  missed : |exact| < |number.quotient| + 1 / number.divisor

/-- A number that is cut off misses the exact value by less than one unit. -/
theorem CutsOff.error_lt {number : ScaledRational} {exact : Rat} (cuts : number.CutsOff exact) :
    |exact - number.quotient| < 1 / number.divisor := by
  rw [cuts.toward.abs_sub_eq]
  exact sub_lt_iff_lt_add'.mpr cuts.missed

/-- A truncated quotient of integers, counted in units, is the exact one cut off. -/
theorem cutsOff_tdiv (dividend : Int) {divisor unit : Nat} (positive : 0 < divisor)
    (unitPositive : 0 < unit) :
    CutsOff ⟨dividend.tdiv divisor, unit⟩ ((dividend : Rat) / divisor / unit) := by
  have truncates := truncates_tdiv_natCast dividend positive
  have divisorPositive : (0 : Rat) < divisor := Nat.cast_pos.mpr positive
  have unitsPositive : (0 : Rat) < unit := Nat.cast_pos.mpr unitPositive
  have exactMagnitude :
      |(dividend : Rat) / divisor / unit| = (dividend.natAbs : Rat) / divisor / unit := by
    rw [abs_div, abs_div, Nat.abs_cast, Nat.abs_cast, Nat.cast_natAbs, Int.cast_abs]
  have magnitude : |quotient ⟨dividend.tdiv divisor, unit⟩| =
      ((dividend.tdiv divisor).natAbs : Rat) / unit := by
    rw [quotient, abs_div, Nat.abs_cast, Nat.cast_natAbs, Int.cast_abs]
  refine ⟨⟨?side, ?nearer⟩, ?missed⟩
  case side =>
    have product : 0 ≤ dividend.tdiv divisor * dividend := by
      rw [← Int.sign_mul_natAbs dividend, ← Int.mul_assoc, Int.sign_mul_natAbs]
      exact Int.mul_nonneg truncates.mul_sign_nonneg (Int.natCast_nonneg _)
    have denominator : (0 : Rat) < unit * (divisor * unit) :=
      mul_pos unitsPositive (mul_pos divisorPositive unitsPositive)
    rw [quotient, div_div, div_mul_div_comm]
    exact div_nonneg (by exact_mod_cast product) denominator.le
  case nearer =>
    rw [exactMagnitude, magnitude]
    refine div_le_div_of_nonneg_right ?_ unitsPositive.le
    rw [le_div_iff₀ divisorPositive]
    exact_mod_cast truncates.reached
  case missed =>
    rw [exactMagnitude, magnitude, ← add_div]
    refine div_lt_div_of_pos_right ?_ unitsPositive
    rw [div_lt_iff₀ divisorPositive]
    exact_mod_cast truncates.missed

/-- The number over another divisor, which is not zero. -/
def onto (number : ScaledRational) (divisor : Nat) : ScaledRational :=
  ⟨rescale number.raw number.divisor divisor, divisor⟩

/-- The quotient is a whole number of units of the divisor. -/
def WholeOver (number : ScaledRational) (divisor : Nat) : Prop :=
  ∃ count : Int, number.quotient = count / divisor

section Onto

variable {number : ScaledRational} (positive : 0 < number.divisor) {divisor : Nat}
  (divisorPositive : 0 < divisor)
include positive

/-- Over its own divisor a number stays what it is. -/
theorem onto_self : number.onto number.divisor = number := by
  rw [onto, rescale_self positive]

include divisorPositive

/-- A number over another divisor is what it was, cut off. -/
theorem cutsOff_onto : (number.onto divisor).CutsOff number.quotient := by
  have cuts := cutsOff_tdiv (number.raw * divisor) positive divisorPositive
  have nonzero : (divisor : Rat) ≠ 0 := Nat.cast_ne_zero.mpr (Nat.ne_of_gt divisorPositive)
  rw [Int.cast_mul, Int.cast_natCast, div_right_comm, mul_div_cancel_right₀ _ nonzero] at cuts
  exact cuts

/-- Nothing is cut off a whole number of units. -/
theorem quotient_onto_of_whole (whole : number.WholeOver divisor) :
    (number.onto divisor).quotient = number.quotient := by
  obtain ⟨count, same⟩ := whole
  have crosswise : number.raw * divisor = count * number.divisor := by
    rw [quotient, div_eq_div_iff (Nat.cast_ne_zero.mpr (Nat.ne_of_gt positive))
      (Nat.cast_ne_zero.mpr (Nat.ne_of_gt divisorPositive))] at same
    exact_mod_cast same
  rw [same, onto, rescale, crosswise, Int.mul_tdiv_cancel _ (by omega)]
  rfl

end Onto

/-- Two operands by their divisors, one with the smaller divisor first. Equal divisors leave
either operand first. -/
inductive ByDivisor (left right : ScaledRational) : ScaledRational → ScaledRational → Prop where
  | kept (le : left.divisor ≤ right.divisor) : ByDivisor left right left right
  | swapped (le : right.divisor ≤ left.divisor) : ByDivisor left right right left

/-- One of two operands has the smaller divisor. -/
theorem exists_byDivisor (left right : ScaledRational) :
    ∃ coarse fine, ByDivisor left right coarse fine := by
  rcases Nat.le_total left.divisor right.divisor with le | le
  · exact ⟨left, right, .kept le⟩
  · exact ⟨right, left, .swapped le⟩

section Operands

variable {left right : ScaledRational} (leftPositive : 0 < left.divisor)
  (rightPositive : 0 < right.divisor)
include leftPositive rightPositive

/-- Operands are aligned by bringing both over the smaller divisor. -/
theorem align_eq_onto :
    align left right = ((left.onto (min left.divisor right.divisor)).raw,
      (right.onto (min left.divisor right.divisor)).raw, min left.divisor right.divisor) :=
  align_of_pos leftPositive rightPositive

/-- The quotient of a sum is the sum of the aligned quotients. -/
theorem quotient_add :
    (left.add right).quotient = (left.onto (min left.divisor right.divisor)).quotient +
      (right.onto (min left.divisor right.divisor)).quotient := by
  rw [add_eq, align_eq_onto leftPositive rightPositive, quotient, Int.cast_add, add_div]
  rfl

/-- The quotient of a difference is the difference of the aligned quotients. -/
theorem quotient_sub :
    (left.sub right).quotient = (left.onto (min left.divisor right.divisor)).quotient -
      (right.onto (min left.divisor right.divisor)).quotient := by
  rw [sub_eq, align_eq_onto leftPositive rightPositive, quotient, Int.cast_sub, sub_div]
  rfl

/-- A product is that of the operands over the smaller divisor, cut off. -/
theorem cutsOff_mul :
    (left.mul right).CutsOff ((left.onto (min left.divisor right.divisor)).quotient *
      (right.onto (min left.divisor right.divisor)).quotient) := by
  have positive : 0 < min left.divisor right.divisor :=
    Nat.lt_min.mpr ⟨leftPositive, rightPositive⟩
  rw [mul_eq, align_eq_onto leftPositive rightPositive, quotient, quotient, div_mul_div_comm,
    ← div_div, ← Int.cast_mul]
  exact cutsOff_tdiv _ positive positive

end Operands

namespace ByDivisor

variable {left right coarse fine : ScaledRational} (ordered : ByDivisor left right coarse fine)
include ordered

/-- The smaller divisor is that of the coarser operand. -/
theorem min_eq : min left.divisor right.divisor = coarse.divisor := by
  cases ordered with
  | kept le => exact Nat.min_eq_left le
  | swapped le => exact Nat.min_eq_right le

/-- An exact product does not depend on which operand is the coarser one. -/
theorem mul_quotient : left.quotient * right.quotient = coarse.quotient * fine.quotient := by
  cases ordered with
  | kept => rfl
  | swapped => exact mul_comm _ _

variable (leftPositive : 0 < left.divisor) (rightPositive : 0 < right.divisor)
include leftPositive rightPositive

/-- Both divisors stay positive when the operands are told apart by them. -/
theorem positive : 0 < coarse.divisor ∧ 0 < fine.divisor := by
  cases ordered with
  | kept => exact ⟨leftPositive, rightPositive⟩
  | swapped => exact ⟨rightPositive, leftPositive⟩

/-- The finer operand loses less than one unit of the smaller divisor. -/
theorem operand_error_lt :
    |fine.quotient - (fine.onto coarse.divisor).quotient| < 1 / coarse.divisor := by
  obtain ⟨coarsePositive, finePositive⟩ := ordered.positive leftPositive rightPositive
  exact (cutsOff_onto finePositive coarsePositive).error_lt

/-- A sum is off by what the finer operand loses. -/
theorem abs_add_error :
    |(left.add right).quotient - (left.quotient + right.quotient)| =
      |fine.quotient - (fine.onto coarse.divisor).quotient| := by
  rw [quotient_add leftPositive rightPositive, ordered.min_eq, abs_sub_comm]
  cases ordered with
  | kept => rw [onto_self leftPositive, add_sub_add_left_eq_sub]
  | swapped => rw [onto_self rightPositive, add_sub_add_right_eq_sub]

/-- So is a difference. -/
theorem abs_sub_error :
    |(left.sub right).quotient - (left.quotient - right.quotient)| =
      |fine.quotient - (fine.onto coarse.divisor).quotient| := by
  rw [quotient_sub leftPositive rightPositive, ordered.min_eq]
  cases ordered with
  | kept => rw [onto_self leftPositive, sub_sub_sub_cancel_left]
  | swapped => rw [onto_self rightPositive, sub_sub_sub_cancel_right, abs_sub_comm]

/-- A product is that of the coarser operand and what is left of the finer one, cut off. -/
theorem cutsOff_product :
    (left.mul right).CutsOff (coarse.quotient * (fine.onto coarse.divisor).quotient) := by
  have cuts := cutsOff_mul leftPositive rightPositive
  rw [ordered.min_eq] at cuts
  cases ordered with
  | kept => rwa [onto_self leftPositive] at cuts
  | swapped => rwa [onto_self rightPositive, mul_comm] at cuts

/-- A product lies between zero and the exact one. -/
theorem toward_mul : Toward (left.mul right).quotient (left.quotient * right.quotient) := by
  obtain ⟨coarsePositive, finePositive⟩ := ordered.positive leftPositive rightPositive
  have product := (ordered.cutsOff_product leftPositive rightPositive).toward
  have operand := (cutsOff_onto finePositive coarsePositive).toward
  rw [ordered.mul_quotient]
  exact product.trans (operand.mul_left coarse.quotient)

/-- A product of aligned operands loses less than one unit of the smaller divisor. -/
theorem product_error_lt :
    |coarse.quotient * (fine.onto coarse.divisor).quotient - (left.mul right).quotient| <
      1 / coarse.divisor := by
  have error := (ordered.cutsOff_product leftPositive rightPositive).error_lt
  have divisor : (left.mul right).divisor = coarse.divisor := by
    rw [← ordered.min_eq]
    exact divisor_align left right
  rwa [divisor] at error

/-- What the finer operand loses counts as often as the coarser operand says, what the product
loses once. -/
theorem abs_mul_error_lt :
    |(left.mul right).quotient - left.quotient * right.quotient| <
      (1 + |coarse.quotient|) / coarse.divisor := by
  have operand := ordered.operand_error_lt leftPositive rightPositive
  have product := ordered.product_error_lt leftPositive rightPositive
  have scaled : |coarse.quotient * fine.quotient -
      coarse.quotient * (fine.onto coarse.divisor).quotient| ≤
        |coarse.quotient| * (1 / coarse.divisor) := by
    rw [← mul_sub, abs_mul]
    exact mul_le_mul_of_nonneg_left operand.le (abs_nonneg _)
  rw [ordered.mul_quotient, abs_sub_comm]
  calc |coarse.quotient * fine.quotient - (left.mul right).quotient|
      ≤ |coarse.quotient * fine.quotient -
            coarse.quotient * (fine.onto coarse.divisor).quotient| +
          |coarse.quotient * (fine.onto coarse.divisor).quotient -
            (left.mul right).quotient| := abs_sub_le _ _ _
    _ < |coarse.quotient| * (1 / coarse.divisor) + 1 / coarse.divisor :=
        add_lt_add_of_le_of_lt scaled product
    _ = (1 + |coarse.quotient|) / coarse.divisor := by
        rw [mul_one_div, ← add_div, add_comm]

end ByDivisor

/-- How far sums, differences and products are from the exact ones. -/
structure Accurate (left right : ScaledRational) : Prop where
  /-- A sum is off by less than one unit of the smaller divisor. -/
  sum : |(left.add right).quotient - (left.quotient + right.quotient)| <
    1 / (min left.divisor right.divisor : Nat)
  /-- So is a difference. -/
  difference : |(left.sub right).quotient - (left.quotient - right.quotient)| <
    1 / (min left.divisor right.divisor : Nat)
  /-- Both are exact if the finer operand is a whole number of these units. -/
  whole : ∀ coarse fine, ByDivisor left right coarse fine → fine.WholeOver coarse.divisor →
    (left.add right).quotient = left.quotient + right.quotient ∧
      (left.sub right).quotient = left.quotient - right.quotient
  /-- A product is no farther from zero than the exact one, and not on the other side of it. -/
  toward : Toward (left.mul right).quotient (left.quotient * right.quotient)
  /-- A product is off by less than one unit, and by less than the magnitude of the coarser
  operand counted in units on top of it. -/
  product : ∀ coarse fine, ByDivisor left right coarse fine →
    |(left.mul right).quotient - left.quotient * right.quotient| <
      (1 + |coarse.quotient|) / coarse.divisor

/-- Sums, differences and products of numbers with positive divisors are accurate. -/
theorem accurate {left right : ScaledRational} (leftPositive : 0 < left.divisor)
    (rightPositive : 0 < right.divisor) : Accurate left right := by
  obtain ⟨coarse, fine, ordered⟩ := exists_byDivisor left right
  have operand := ordered.operand_error_lt leftPositive rightPositive
  refine ⟨?sum, ?difference, ?whole, ordered.toward_mul leftPositive rightPositive, ?product⟩
  case sum => rwa [ordered.abs_add_error leftPositive rightPositive, ordered.min_eq]
  case difference => rwa [ordered.abs_sub_error leftPositive rightPositive, ordered.min_eq]
  case whole =>
    -- Equal divisors leave a choice of the finer operand, so it is not the one above.
    intro coarse fine ordered whole
    obtain ⟨coarsePositive, finePositive⟩ := ordered.positive leftPositive rightPositive
    have kept : |fine.quotient - (fine.onto coarse.divisor).quotient| = 0 := by
      rw [quotient_onto_of_whole finePositive coarsePositive whole, sub_self, abs_zero]
    have sum := ordered.abs_add_error leftPositive rightPositive
    have difference := ordered.abs_sub_error leftPositive rightPositive
    rw [kept, abs_eq_zero, sub_eq_zero] at sum difference
    exact ⟨sum, difference⟩
  case product =>
    intro coarse fine ordered
    exact ordered.abs_mul_error_lt leftPositive rightPositive

/-- Minus 2.7 times 1.25 is minus three over quarters, where minus 3.375 is exact. -/
theorem accurate_quarters :
    0 < (⟨-27, 10⟩ : ScaledRational).divisor ∧ 0 < (⟨5, 4⟩ : ScaledRational).divisor ∧
      mul ⟨-27, 10⟩ ⟨5, 4⟩ = ⟨-12, 4⟩ ∧
      |quotient ⟨-12, 4⟩ - quotient ⟨-27, 10⟩ * quotient ⟨5, 4⟩| < (1 + |quotient ⟨5, 4⟩|) / 4 := by
  have bounds : Accurate ⟨-27, 10⟩ ⟨5, 4⟩ := accurate (by decide) (by decide)
  exact ⟨by decide, by decide, rfl, bounds.product _ _ (.swapped (by decide))⟩

end FixedLayout.ScaledRational
