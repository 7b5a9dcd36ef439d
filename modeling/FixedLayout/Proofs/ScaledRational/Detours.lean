import FixedLayout.Proofs.ScaledRational.Truncation

/-!
# Detours

A number that is rebased by way of another divisor is truncated twice. Each time it moves toward
zero, so it comes out no farther from zero than if it had been rebased at once. What it loses by
the detour is less than one unit for the second truncation and, for the first, less than one unit
of the divisor on the way. Nothing is lost on the way over a multiple of the divisor.
-/

namespace FixedLayout.ScaledRational

section Magnitudes

variable {outwardSign onwardSign sign raw between chained direct : Int}
  {source middle last : Nat}
  (outward : Truncates outwardSign (raw.natAbs * middle) source between)
  (onward : Truncates onwardSign (between.natAbs * last) middle chained)
  (atOnce : Truncates sign (raw.natAbs * last) source direct)
include outward onward atOnce

/-- A detour leads no farther from zero. -/
theorem natAbs_le_of_detour (middlePositive : 0 < middle) : chained.natAbs ≤ direct.natAbs := by
  -- Each truncation is multiplied out with the divisors of the other, so that `between` cancels.
  have scaled : chained.natAbs * source * middle ≤ raw.natAbs * last * middle :=
    calc chained.natAbs * source * middle
        = chained.natAbs * middle * source := by ac_rfl
      _ ≤ between.natAbs * last * source := Nat.mul_le_mul_right source onward.reached
      _ = between.natAbs * source * last := by ac_rfl
      _ ≤ raw.natAbs * middle * last := Nat.mul_le_mul_right last outward.reached
      _ = raw.natAbs * last * middle := by ac_rfl
  have within : chained.natAbs * source ≤ raw.natAbs * last :=
    Nat.le_of_mul_le_mul_right scaled middlePositive
  have short : chained.natAbs * source < (direct.natAbs + 1) * source :=
    Nat.lt_of_le_of_lt within atOnce.missed
  exact Nat.le_of_lt_succ (Nat.lt_of_mul_lt_mul_right short)

/-- What is lost by it is bounded by both truncations. -/
theorem loss_of_detour (lastPositive : 0 < last) :
    (direct.natAbs - chained.natAbs) * middle < last + middle := by
  have scaled : direct.natAbs * middle * source < (between.natAbs + 1) * last * source :=
    calc direct.natAbs * middle * source
        = direct.natAbs * source * middle := by ac_rfl
      _ ≤ raw.natAbs * last * middle := Nat.mul_le_mul_right middle atOnce.reached
      _ = raw.natAbs * middle * last := by ac_rfl
      _ < (between.natAbs + 1) * source * last :=
          Nat.mul_lt_mul_of_pos_right outward.missed lastPositive
      _ = (between.natAbs + 1) * last * source := by ac_rfl
  have first : direct.natAbs * middle < (between.natAbs + 1) * last :=
    Nat.lt_of_mul_lt_mul_right scaled
  have second : between.natAbs * last < (chained.natAbs + 1) * middle := onward.missed
  rw [Nat.add_mul, Nat.one_mul] at first second
  rw [Nat.sub_mul]
  omega

end Magnitudes

/-- Both ways end on the same side of zero. -/
theorem rescale_rescale_mul_nonneg (raw : Int) (source middle last : Nat) :
    0 ≤ rescale (rescale raw source middle) middle last * rescale raw source last := by
  rcases Int.le_total 0 raw with nonneg | nonpos
  · exact Int.mul_nonneg (rescale_nonneg (rescale_nonneg nonneg)) (rescale_nonneg nonneg)
  · exact Int.mul_nonneg_of_nonpos_of_nonpos (rescale_nonpos (rescale_nonpos nonpos))
      (rescale_nonpos nonpos)

/-- The number over the last divisor, brought there by way of another one. -/
def rebaseVia (number : ScaledRational) (middle last : Nat) :
    Except ZeroDivisor ScaledRational := do
  let between ← number.rebase middle
  between.rebase last

section Numbers

variable {number : ScaledRational} (positive : 0 < number.divisor) {middle last : Nat}
  (middlePositive : 0 < middle)
include positive middlePositive

/-- To a positive divisor a detour is two rescalings, one after the other. -/
theorem rebaseVia_of_pos (lastPositive : 0 < last) :
    number.rebaseVia middle last =
      .ok ⟨rescale (rescale number.raw number.divisor middle) middle last, last⟩ := by
  rw [rebaseVia, rebase_of_pos positive middlePositive]
  exact rebase_of_pos middlePositive lastPositive

/-- By way of a multiple of its divisor a number is rebased as if at once. -/
theorem rebaseVia_of_dvd (divides : number.divisor ∣ middle) (last : Nat) :
    number.rebaseVia middle last = number.rebase last := by
  rcases Nat.eq_zero_or_pos last with zero | lastPositive
  · rw [zero, rebaseVia, rebase_of_pos positive middlePositive]
    rfl
  · obtain ⟨factor, multiple⟩ := divides
    have factorPositive : 0 < factor := by
      rw [multiple] at middlePositive
      exact Nat.pos_of_mul_pos_left middlePositive
    rw [rebaseVia_of_pos positive middlePositive lastPositive,
      rebase_of_pos positive lastPositive, multiple, rescale_multiple positive,
      rescale_mul_mul factorPositive]

end Numbers

/-- A number lies between zero and another one over the same divisor and falls short of it by
less than the units of two truncations, one over that divisor and one over `middle`. -/
structure FallsShort (chained direct : ScaledRational) (middle : Nat) : Prop where
  /-- The divisors agree. -/
  divisor_eq : chained.divisor = direct.divisor
  /-- The numbers are not on opposite sides of zero. -/
  side : 0 ≤ chained.raw * direct.raw
  /-- The first one is no farther from zero. -/
  nearer : chained.raw.natAbs ≤ direct.raw.natAbs
  /-- What is missing is less than the two units together, all of it written over the product of
  the divisors. -/
  loss : (direct.raw.natAbs - chained.raw.natAbs) * middle < direct.divisor + middle

/-- A detour falls short of rebasing at once. -/
theorem exists_fallsShort {number : ScaledRational} (positive : 0 < number.divisor)
    {middle last : Nat} (middlePositive : 0 < middle) (lastPositive : 0 < last) :
    ∃ chained direct, number.rebaseVia middle last = .ok chained ∧
      number.rebase last = .ok direct ∧ direct.divisor = last ∧
      FallsShort chained direct middle := by
  have outward := truncates_rescale number.raw positive middlePositive
  have onward := truncates_rescale (rescale number.raw number.divisor middle) middlePositive
    lastPositive
  have atOnce := truncates_rescale number.raw positive lastPositive
  refine ⟨_, _, rebaseVia_of_pos positive middlePositive lastPositive,
    rebase_of_pos positive lastPositive, rfl, rfl, ?side, ?nearer, ?loss⟩
  case side => exact rescale_rescale_mul_nonneg number.raw number.divisor middle last
  case nearer => exact natAbs_le_of_detour outward onward atOnce middlePositive
  case loss => exact loss_of_detour outward onward atOnce lastPositive

/-- What becomes of a number on a detour. -/
structure BoundsDetours (number : ScaledRational) : Prop where
  /-- A detour is never refused and falls short of rebasing at once. -/
  bounded : ∀ middle last, 0 < middle → 0 < last → ∃ chained direct,
    number.rebaseVia middle last = .ok chained ∧ number.rebase last = .ok direct ∧
      direct.divisor = last ∧ FallsShort chained direct middle
  /-- Over a multiple of the divisor of the number it makes no difference. -/
  lossless : ∀ middle last, 0 < middle → number.divisor ∣ middle →
    number.rebaseVia middle last = number.rebase last
  /-- From there the number comes back as it was. -/
  restored : ∀ middle, 0 < middle → number.divisor ∣ middle →
    number.rebaseVia middle number.divisor = .ok number
  /-- From any divisor, a smaller or a greater one, a number comes back that falls short of it. -/
  roundTrip : ∀ middle, 0 < middle → ∃ back,
    number.rebaseVia middle number.divisor = .ok back ∧ FallsShort back number middle
  /-- Rebasing a second time onto the same divisor changes nothing. -/
  settled : ∀ middle, number.rebaseVia middle middle = number.rebase middle

/-- Numbers with a positive divisor lose little by detours, and gain nothing. -/
theorem boundsDetours {number : ScaledRational} (positive : 0 < number.divisor) :
    number.BoundsDetours := by
  have own : number.rebase number.divisor = .ok number := by
    rw [rebase_of_pos positive positive, rescale_self positive]
  refine ⟨?bounded, ?lossless, ?restored, ?roundTrip, ?settled⟩
  case bounded =>
    intro middle last middlePositive lastPositive
    exact exists_fallsShort positive middlePositive lastPositive
  case lossless =>
    intro middle last middlePositive divides
    exact rebaseVia_of_dvd positive middlePositive divides last
  case restored =>
    intro middle middlePositive divides
    rw [rebaseVia_of_dvd positive middlePositive divides, own]
  case roundTrip =>
    intro middle middlePositive
    obtain ⟨back, direct, returned, yields, -, short⟩ :=
      exists_fallsShort positive middlePositive positive
    rw [own] at yields
    cases yields
    exact ⟨back, returned, short⟩
  case settled =>
    intro middle
    rcases Nat.eq_zero_or_pos middle with zero | middlePositive
    · rw [zero]
      rfl
    · rw [rebaseVia_of_pos positive middlePositive middlePositive, rescale_self middlePositive,
        rebase_of_pos positive middlePositive]

/-- Over a greater divisor that is no multiple a number need not come back: from fifths by way
of eighths, three fifths are two. -/
theorem boundsDetours_eighths :
    0 < (⟨-3, 5⟩ : ScaledRational).divisor ∧
      (⟨-3, 5⟩ : ScaledRational).rebaseVia 8 5 = .ok ⟨-2, 5⟩ ∧ FallsShort ⟨-2, 5⟩ ⟨-3, 5⟩ 8 := by
  refine ⟨by decide, rfl, ?_⟩
  have bounds : BoundsDetours ⟨-3, 5⟩ := boundsDetours (by decide)
  obtain ⟨back, returned, short⟩ := bounds.roundTrip 8 (by decide)
  cases returned
  exact short

end FixedLayout.ScaledRational
