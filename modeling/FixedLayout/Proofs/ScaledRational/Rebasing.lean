import FixedLayout.Proofs.ScaledRational.Truncation
import FixedLayout.Proofs.ScaledRational.Worksheets

/-!
# Rebasing

Two equivalences say all about rebasing a number with a positive divisor: when it is refused,
and which number it yields. The second mentions no division: the raw value is the one that
`Truncates` leaves. A number that is rebased in its cell is refused and changed just as a copy
of it would be, and no other cell is touched.
-/

namespace FixedLayout.ScaledRational

/-- A number is rebased to the one number over the divisor that truncates its quotient. -/
theorem rebase_eq_ok_iff {number rebased : ScaledRational} (positive : 0 < number.divisor)
    {divisor : Nat} :
    number.rebase divisor = .ok rebased ↔ 0 < divisor ∧ rebased.divisor = divisor ∧
      Truncates number.raw.sign (number.raw.natAbs * divisor) number.divisor rebased.raw := by
  constructor
  · intro yields
    obtain ⟨rfl, divisorPositive⟩ := divisor_of_rebase yields
    have truncates := truncates_rescale number.raw positive divisorPositive
    rw [rebase_of_pos positive divisorPositive] at yields
    refine ⟨divisorPositive, rfl, ?_⟩
    rw [← congrArg raw (Except.ok.inj yields)]
    exact truncates
  · rintro ⟨divisorPositive, rfl, truncates⟩
    have same := (truncates_rescale number.raw positive divisorPositive).unique truncates
    rw [rebase_of_pos positive divisorPositive, same]

namespace Worksheet

variable {sheet : Worksheet} {cell divisor : Nat} {number rebased : ScaledRational}
  (operand : sheet.cell? cell = some number)
include operand

/-- A cell with a number in it takes another one; the other cells stay. -/
theorem cell?_set (other : Nat) :
    cell? (sheet.set cell (some rebased)) other =
      if other = cell then some rebased else sheet.cell? other := by
  have inside : cell < sheet.length :=
    (List.getElem?_eq_some_iff.mp (Option.join_eq_some_iff.mp operand)).1
  by_cases here : other = cell
  · rw [if_pos here, here, cell?, List.getElem?_set_self inside]
    rfl
  · rw [if_neg here, cell?, List.getElem?_set_ne (Ne.symm here), cell?]

/-- Rebasing in place to zero is refused and leaves the worksheet as it was. -/
theorem perform_rebaseInPlace_zero :
    sheet.perform (.rebaseInPlace cell 0) = (.rebased (.error .zeroDivisor) number, sheet) := by
  rw [perform, operand]
  rfl

/-- What a number can be rebased to takes its place. -/
theorem perform_rebaseInPlace_of_ok (yields : number.rebase divisor = .ok rebased) :
    sheet.perform (.rebaseInPlace cell divisor) =
      (.rebased (.ok ()) rebased, sheet.set cell (some rebased)) := by
  rw [perform, operand]
  simp only [yields]

end Worksheet

/-- Rebasing is exact truncation toward zero, of a copy and in a cell. -/
structure RebasesExactly (number : ScaledRational) : Prop where
  /-- A copy is refused exactly over a divisor of zero. -/
  refused_iff : ∀ divisor, number.rebase divisor = .error .zeroDivisor ↔ divisor = 0
  /-- Otherwise it becomes the one number over the divisor whose raw value truncates the
  quotient toward zero. -/
  yields_iff : ∀ divisor rebased, number.rebase divisor = .ok rebased ↔
    0 < divisor ∧ rebased.divisor = divisor ∧
      Truncates number.raw.sign (number.raw.natAbs * divisor) number.divisor rebased.raw
  /-- Over its own divisor the number is left as it is, and that is what the truncation says. -/
  kept : number.rebase number.divisor = .ok number ∧
    rescale number.raw number.divisor number.divisor = number.raw
  /-- In a cell a divisor of zero is refused as well, and the worksheet is unchanged. -/
  refusedInPlace : ∀ (sheet : Worksheet) cell, sheet.cell? cell = some number →
    sheet.perform (.rebaseInPlace cell 0) = (.rebased (.error .zeroDivisor) number, sheet)
  /-- Over any other divisor the cell comes to hold what a copy becomes, and is the only cell
  that changes. -/
  yieldsInPlace : ∀ (sheet : Worksheet) cell divisor, sheet.cell? cell = some number →
    0 < divisor → ∃ rebased, number.rebase divisor = .ok rebased ∧
      (sheet.perform (.rebaseInPlace cell divisor)).1 = .rebased (.ok ()) rebased ∧
      ∀ other, (sheet.perform (.rebaseInPlace cell divisor)).2.cell? other =
        if other = cell then some rebased else sheet.cell? other

/-- A number with a positive divisor is rebased exactly. -/
theorem rebasesExactly {number : ScaledRational} (positive : 0 < number.divisor) :
    number.RebasesExactly where
  refused_iff := fun _ => rebase_eq_error_iff
  yields_iff := fun _ _ => rebase_eq_ok_iff positive
  kept := by
    have same : rescale number.raw number.divisor number.divisor = number.raw :=
      rescale_self positive
    rw [rebase_of_pos positive positive, same]
    exact ⟨rfl, rfl⟩
  refusedInPlace := fun _ _ operand => Worksheet.perform_rebaseInPlace_zero operand
  yieldsInPlace := by
    intro sheet cell divisor operand divisorPositive
    have yields := rebase_of_pos positive divisorPositive
    refine ⟨_, yields, ?_, ?_⟩
    · rw [Worksheet.perform_rebaseInPlace_of_ok operand yields]
    · intro other
      rw [Worksheet.perform_rebaseInPlace_of_ok operand yields]
      exact Worksheet.cell?_set operand other

/-- Minus 1.9 over one is minus one, not minus two. -/
theorem rebasesExactly_negative :
    0 < (⟨-19, 10⟩ : ScaledRational).divisor ∧
      (⟨-19, 10⟩ : ScaledRational).rebase 1 = .ok ⟨-1, 1⟩ ∧ Truncates (-1) 19 10 (-1) := by
  have exactly : RebasesExactly ⟨-19, 10⟩ := rebasesExactly (by decide)
  exact ⟨by decide, rfl, ((exactly.yields_iff 1 ⟨-1, 1⟩).mp rfl).2.2⟩

end FixedLayout.ScaledRational
