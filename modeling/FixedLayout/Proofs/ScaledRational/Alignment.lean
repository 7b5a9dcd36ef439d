import FixedLayout.Proofs.ScaledRational.Truncation

/-!
# Operations over the smaller divisor

The three ways to align two numbers are one: both are rescaled onto the smaller divisor, where
one of them has nothing to lose. An operation reads nothing of its operands but their aligned
raw values, so it does the same with what they become by rebasing; and it may take its operands
in either order as far as the operation on integers does. A sum or a difference has the smaller
divisor, so aligning it with the right operand once more truncates that operand as it did before.
-/

namespace FixedLayout.ScaledRational

/-- An operation on two numbers. -/
inductive Operation where
  | add
  | sub
  | mul
  | div

/-- What an operation makes of two numbers. -/
def Operation.apply : Operation → ScaledRational → ScaledRational →
    Except ZeroDivisor ScaledRational
  | add, left, right => .ok (left.add right)
  | sub, left, right => .ok (left.sub right)
  | mul, left, right => .ok (left.mul right)
  | div, left, right => left.div right

/-- An operation depends on the aligned operands alone. -/
theorem Operation.apply_eq_of_align {left right first second : ScaledRational}
    (same : align left right = align first second) (operation : Operation) :
    operation.apply left right = operation.apply first second := by
  cases operation with
  | add => rw [apply, apply, ScaledRational.add, ScaledRational.add, same]
  | sub => rw [apply, apply, ScaledRational.sub, ScaledRational.sub, same]
  | mul => rw [apply, apply, ScaledRational.mul, ScaledRational.mul, same]
  | div => rw [apply, apply, ScaledRational.div, ScaledRational.div, same]

/-- What it makes has the smaller divisor. -/
theorem Operation.divisor_of_apply {operation : Operation} {left right result : ScaledRational}
    (made : operation.apply left right = .ok result) :
    result.divisor = min left.divisor right.divisor := by
  cases operation with
  | add | sub | mul =>
      cases made
      exact divisor_align left right
  | div => exact divisor_of_div made

/-- A sum is that of the aligned numbers. -/
theorem add_eq (left right : ScaledRational) :
    left.add right =
      ⟨(align left right).1 + (align left right).2.1, (align left right).2.2⟩ := rfl

/-- A difference is that of the aligned numbers. -/
theorem sub_eq (left right : ScaledRational) :
    left.sub right =
      ⟨(align left right).1 - (align left right).2.1, (align left right).2.2⟩ := rfl

/-- A product is that of the aligned numbers, divided by their divisor once more. -/
theorem mul_eq (left right : ScaledRational) :
    left.mul right =
      ⟨((align left right).1 * (align left right).2.1).tdiv (align left right).2.2,
        (align left right).2.2⟩ := rfl

/-- Numbers over one divisor are aligned as they are. -/
theorem align_mk (leftRaw rightRaw : Int) (divisor : Nat) :
    align ⟨leftRaw, divisor⟩ ⟨rightRaw, divisor⟩ = (leftRaw, rightRaw, divisor) := if_pos rfl

section Operands

variable {left right : ScaledRational} (leftPositive : 0 < left.divisor)
  (rightPositive : 0 < right.divisor)
include leftPositive rightPositive

/-- Both operands are rescaled onto the smaller divisor, in whichever order they are given. -/
theorem align_of_pos :
    align left right =
      (rescale left.raw left.divisor (min left.divisor right.divisor),
        rescale right.raw right.divisor (min left.divisor right.divisor),
        min left.divisor right.divisor) := by
  rcases Nat.lt_trichotomy left.divisor right.divisor with smaller | same | greater
  · rw [align, if_neg (Nat.ne_of_lt smaller), if_pos smaller,
      Nat.min_eq_left (Nat.le_of_lt smaller), rescale_self leftPositive]
  · rw [align, if_pos same, ← same, Nat.min_self, rescale_self leftPositive,
      rescale_self leftPositive]
  · rw [align, if_neg (Nat.ne_of_gt greater), if_neg (Nat.lt_asymm greater),
      Nat.min_eq_right (Nat.le_of_lt greater), rescale_self rightPositive]

/-- Operands that change places are aligned alike and change places. -/
theorem align_swap :
    align right left = ((align left right).2.1, (align left right).1, (align left right).2.2) := by
  rw [align_of_pos leftPositive rightPositive, align_of_pos rightPositive leftPositive,
    Nat.min_comm right.divisor left.divisor]

/-- A number over the smaller divisor is kept by another alignment with the right operand, which
truncates that operand once more as before. -/
theorem align_again (raw : Int) :
    align ⟨raw, (align left right).2.2⟩ right =
      (raw, (align left right).2.1, (align left right).2.2) := by
  have positive := divisor_align_pos leftPositive rightPositive
  -- The smaller divisor is still the smaller one when it stands on the left.
  have least : min (align left right).2.2 right.divisor = (align left right).2.2 := by
    rw [divisor_align]
    omega
  rw [align_of_pos positive rightPositive, least, rescale_self positive,
    align_of_pos leftPositive rightPositive]

/-- The raw value of the left operand over the smaller divisor is what rebasing it yields. -/
theorem rebase_align :
    left.rebase (align left right).2.2 = .ok ⟨(align left right).1, (align left right).2.2⟩ := by
  rw [rebase_of_pos leftPositive (divisor_align_pos leftPositive rightPositive),
    align_of_pos leftPositive rightPositive]

end Operands

/-- Operations on two numbers go by way of what the numbers become over the smaller divisor. -/
structure FactorsThroughRebase (left right : ScaledRational) : Prop where
  /-- Both numbers are rebased onto the smaller divisor, and every operation makes of them what
  it makes of the rebased ones, or is refused as it is for those. -/
  factored : ∃ first second, left.rebase (min left.divisor right.divisor) = .ok first ∧
    right.rebase (min left.divisor right.divisor) = .ok second ∧
    ∀ operation : Operation, operation.apply left right = operation.apply first second
  /-- What an operation makes has the smaller divisor. -/
  divisor : ∀ (operation : Operation) (result : ScaledRational),
    operation.apply left right = .ok result → result.divisor = min left.divisor right.divisor
  /-- Sums do not depend on the order. -/
  add_comm : left.add right = right.add left
  /-- Products do not depend on the order. -/
  mul_comm : left.mul right = right.mul left
  /-- Differences change sides with it. -/
  sub_swap : left.sub right = (right.sub left).negate
  /-- Adding and subtracting a number leaves the other one over the smaller divisor. -/
  add_sub : left.rebase (min left.divisor right.divisor) = .ok ((left.add right).sub right)
  /-- So does subtracting and adding it. -/
  sub_add : left.rebase (min left.divisor right.divisor) = .ok ((left.sub right).add right)

/-- Numbers with positive divisors, whether equal or not, are combined over the smaller one. -/
theorem factorsThroughRebase {left right : ScaledRational} (leftPositive : 0 < left.divisor)
    (rightPositive : 0 < right.divisor) : FactorsThroughRebase left right := by
  have swap := align_swap leftPositive rightPositive
  refine ⟨?factored, fun _ _ => Operation.divisor_of_apply, ?add_comm, ?mul_comm, ?sub_swap,
    ?add_sub, ?sub_add⟩
  case factored =>
    have positive : 0 < min left.divisor right.divisor :=
      Nat.lt_min.mpr ⟨leftPositive, rightPositive⟩
    refine ⟨_, _, rebase_of_pos leftPositive positive, rebase_of_pos rightPositive positive, ?_⟩
    refine Operation.apply_eq_of_align ?_
    rw [align_of_pos leftPositive rightPositive, align_mk]
  case add_comm =>
    rw [add_eq, add_eq, swap, Int.add_comm (align left right).1]
  case mul_comm =>
    rw [mul_eq, mul_eq, swap, Int.mul_comm (align left right).1]
  case sub_swap =>
    rw [sub_eq, sub_eq, swap, negate, Int.neg_sub]
  case add_sub =>
    rw [← divisor_align, rebase_align leftPositive rightPositive, sub_eq, add_eq,
      align_again leftPositive rightPositive, Int.add_sub_cancel]
  case sub_add =>
    rw [← divisor_align, rebase_align leftPositive rightPositive, add_eq, sub_eq,
      align_again leftPositive rightPositive, Int.sub_add_cancel]

/-- Minus 2.7 is brought onto quarters to be added to, and what that cuts off does not come back
when the sum is undone. -/
theorem factorsThroughRebase_quarters :
    0 < (⟨-27, 10⟩ : ScaledRational).divisor ∧ 0 < (⟨-3, 4⟩ : ScaledRational).divisor ∧
      add ⟨-27, 10⟩ ⟨-3, 4⟩ = ⟨-13, 4⟩ ∧
      rebase ⟨-27, 10⟩ 4 = .ok (sub (add ⟨-27, 10⟩ ⟨-3, 4⟩) ⟨-3, 4⟩) := by
  have factors : FactorsThroughRebase ⟨-27, 10⟩ ⟨-3, 4⟩ :=
    factorsThroughRebase (by decide) (by decide)
  exact ⟨by decide, by decide, rfl, factors.add_sub⟩

end FixedLayout.ScaledRational
