import FixedLayout.TestProgram
import Mathlib.Data.List.Forall2

/-!
# Increments over unbounded integers

An increment is refused by one of three checks of 64 bits. `State.AdvancedBy` says without them
what an increment that is not refused makes of a state, and a run of increments advances a state
by the sum of its amounts. Only that sum decides about the run, so neither the order of the
amounts nor how they are grouped matters. Where refused increments are skipped, the state is
advanced by the sum of the others, and the second property keeps its distance from twice the
first.
-/

namespace FixedLayout.TestProgram.State

/-- The state after all of some increments, unless one of them overflows. -/
def increments? (state : State) (amounts : List UInt64) : Option State :=
  amounts.foldlM increment? state

/-- The state after some increments, of which those that overflow are skipped. -/
def finish (state : State) (amounts : List UInt64) : State :=
  amounts.foldl (fun state amount => (state.increment? amount).getD state) state

/-- The amounts of the increments that succeed where those that overflow are skipped. -/
def succeeded (state : State) (amounts : List UInt64) : List UInt64 :=
  (amounts.zip (state.incrementAll amounts)).filterMap fun (amount, outcome) =>
    outcome.map fun _ => amount

/-- The sum of some amounts, which need not fit 64 bits. -/
def total : List UInt64 → Nat
  | [] => 0
  | amount :: amounts => amount.toNat + total amounts

/-- How far the second property is ahead of twice the first. -/
def lead (state : State) : Int := (state.property2.toNat : Int) - 2 * state.property1.toNat

/-- A state with its first property larger by some amount and its second by twice as much. That
the amount is added to a number and not to a word is what excludes wrapping around. -/
structure AdvancedBy (state : State) (amount : Nat) (next : State) : Prop where
  property1_eq : next.property1.toNat = state.property1.toNat + amount
  property2_eq : next.property2.toNat = state.property2.toNat + 2 * amount

@[simp] theorem total_nil : total [] = 0 := rfl

@[simp] theorem total_cons (amount : UInt64) (amounts : List UInt64) :
    total (amount :: amounts) = amount.toNat + total amounts := rfl

/-- The total of two lists is that of both totals. -/
@[simp] theorem total_append (front back : List UInt64) :
    total (front ++ back) = total front + total back := by
  induction front with
  | nil => simp
  | cons amount front inductionHypothesis => simp [inductionHypothesis, Nat.add_assoc]

/-- The order of the amounts does not count. -/
theorem total_eq_of_perm {amounts others : List UInt64} (same : amounts.Perm others) :
    total amounts = total others := by
  induction same with
  | nil => rfl
  | cons amount _ inductionHypothesis => simp [inductionHypothesis]
  | swap first second amounts => simp [Nat.add_left_comm]
  | trans _ _ first second => exact first.trans second

/-- Amounts may be added in groups, if the sum of each group is an amount again. -/
theorem total_flatten {groups : List (List UInt64)} {sums : List UInt64}
    (fits : List.Forall₂ (fun group sum => total group = sum.toNat) groups sums) :
    total groups.flatten = total sums := by
  induction fits with
  | nil => rfl
  | cons head _ inductionHypothesis =>
      rw [List.flatten_cons, total_append, total_cons, head, inductionHypothesis]

section Advance

variable {state middle next other : State} {amount further : Nat}

/-- An advance by zero changes nothing. -/
theorem AdvancedBy.refl (state : State) : state.AdvancedBy 0 state := ⟨rfl, rfl⟩

/-- Advances add up. -/
theorem AdvancedBy.trans (first : state.AdvancedBy amount middle)
    (second : middle.AdvancedBy further next) : state.AdvancedBy (amount + further) next where
  property1_eq := by rw [second.property1_eq, first.property1_eq, Nat.add_assoc]
  property2_eq := by rw [second.property2_eq, first.property2_eq, Nat.mul_add, Nat.add_assoc]

/-- An amount leads to at most one state. -/
theorem AdvancedBy.unique (left : state.AdvancedBy amount next)
    (right : state.AdvancedBy amount other) : next = other := by
  cases next
  cases other
  rw [State.mk.injEq, ← UInt64.toNat_inj, ← UInt64.toNat_inj]
  exact ⟨left.property1_eq.trans right.property1_eq.symm,
    left.property2_eq.trans right.property2_eq.symm⟩

/-- An amount leads to a state exactly if neither property outgrows 64 bits. -/
theorem exists_advancedBy_iff :
    (∃ next, state.AdvancedBy amount next) ↔
      state.property1.toNat + amount < 2 ^ 64 ∧ state.property2.toNat + 2 * amount < 2 ^ 64 := by
  constructor
  · rintro ⟨next, advanced⟩
    rw [← advanced.property1_eq, ← advanced.property2_eq]
    exact ⟨next.property1.toNat_lt, next.property2.toNat_lt⟩
  · rintro ⟨first, second⟩
    exact ⟨⟨UInt64.ofNat (state.property1.toNat + amount),
        UInt64.ofNat (state.property2.toNat + 2 * amount)⟩,
      UInt64.toNat_ofNat_of_lt' first, UInt64.toNat_ofNat_of_lt' second⟩

/-- A state that is reached by two amounts together is reached through one that is reached by
the first of them: sums that fit in the end fit on the way. -/
theorem AdvancedBy.split (advanced : state.AdvancedBy (amount + further) next) :
    ∃ middle, state.AdvancedBy amount middle ∧ middle.AdvancedBy further next := by
  obtain ⟨first, second⟩ := exists_advancedBy_iff.mp ⟨next, advanced⟩
  obtain ⟨middle, reached⟩ : ∃ middle, state.AdvancedBy amount middle :=
    exists_advancedBy_iff.mpr ⟨by omega, by omega⟩
  refine ⟨middle, reached, ?_, ?_⟩
  · rw [advanced.property1_eq, reached.property1_eq, Nat.add_assoc]
  · rw [advanced.property2_eq, reached.property2_eq, Nat.mul_add, Nat.add_assoc]

/-- Whatever the amount, the lead of the second property stays. -/
theorem AdvancedBy.lead_eq (advanced : state.AdvancedBy amount next) : next.lead = state.lead := by
  rw [lead, lead, advanced.property1_eq, advanced.property2_eq]
  omega

end Advance

/-- A checked addition yields a word exactly if this is the exact sum. -/
theorem checkedAdd_eq_some_iff {left right sum : UInt64} :
    checkedAdd left right = some sum ↔ sum.toNat = left.toNat + right.toNat := by
  rw [checkedAdd]
  by_cases fits : left.toNat + right.toNat < 2 ^ 64
  · have exact : (left + right).toNat = left.toNat + right.toNat := by
      rw [UInt64.toNat_add, Nat.mod_eq_of_lt fits]
    rw [if_pos fits, Option.some.injEq, ← UInt64.toNat_inj, exact, eq_comm]
  · have small := sum.toNat_lt
    rw [if_neg fits]
    constructor
    · intro impossible
      cases impossible
    · intro same
      omega

variable {state next : State} {amount : UInt64} {amounts others : List UInt64}

/-- The three checks of an increment together say that the state can be advanced. -/
theorem increment?_eq_some_iff :
    state.increment? amount = some next ↔ state.AdvancedBy amount.toNat next := by
  simp only [increment?, Option.bind_eq_bind, Option.bind_eq_some_iff, checkedAdd_eq_some_iff]
  constructor
  · rintro ⟨property1, first, twice, doubled, property2, second, same⟩
    cases same
    refine ⟨first, ?_⟩
    calc property2.toNat = state.property2.toNat + twice.toNat := second
      _ = state.property2.toNat + 2 * amount.toNat := by rw [doubled, Nat.two_mul]
  · intro advanced
    -- Twice the amount fits on its own, since the second property has taken it in.
    have doubled : 2 * amount.toNat < 2 ^ 64 := by
      have := next.property2.toNat_lt
      have := advanced.property2_eq
      omega
    refine ⟨next.property1, advanced.property1_eq, UInt64.ofNat (2 * amount.toNat), ?_,
      next.property2, ?_, rfl⟩
    · rw [UInt64.toNat_ofNat_of_lt' doubled]
      omega
    · rw [UInt64.toNat_ofNat_of_lt' doubled]
      exact advanced.property2_eq

/-- Increments are made one after the other, and all fail with one of them. -/
theorem increments?_cons (state : State) (amount : UInt64) (amounts : List UInt64) :
    state.increments? (amount :: amounts) =
      (state.increment? amount).bind fun next => next.increments? amounts := rfl

/-- A run of increments succeeds exactly if the state can be advanced by their sum. -/
theorem increments?_eq_some_iff :
    state.increments? amounts = some next ↔ state.AdvancedBy (total amounts) next := by
  induction amounts generalizing state with
  | nil =>
      constructor
      · intro same
        cases same
        exact .refl _
      · intro advanced
        exact congrArg some ((AdvancedBy.refl state).unique advanced)
  | cons amount amounts inductionHypothesis =>
      rw [increments?_cons, Option.bind_eq_some_iff, total_cons]
      simp only [increment?_eq_some_iff, inductionHypothesis]
      constructor
      · rintro ⟨middle, first, others⟩
        exact first.trans others
      · exact AdvancedBy.split

/-- Runs of increments with one sum come to the same, success or not. -/
theorem increments?_eq_of_total_eq (same : total amounts = total others) :
    state.increments? amounts = state.increments? others := by
  ext next
  rw [increments?_eq_some_iff, increments?_eq_some_iff, same]

/-- An increment that succeeds is counted, and the others go on behind it. -/
theorem succeeded_cons_of_some (succeeds : state.increment? amount = some next) :
    state.succeeded (amount :: amounts) = amount :: next.succeeded amounts := by
  simp [succeeded, incrementAll, succeeds]

/-- An increment that overflows is passed over. -/
theorem succeeded_cons_of_none (overflows : state.increment? amount = none) :
    state.succeeded (amount :: amounts) = state.succeeded amounts := by
  simp [succeeded, incrementAll, overflows]

/-- The other increments go on behind the first, or from where it started if it overflows. -/
theorem finish_cons (state : State) (amount : UInt64) (amounts : List UInt64) :
    state.finish (amount :: amounts) =
      ((state.increment? amount).getD state).finish amounts := rfl

/-- Where overflowing increments are skipped, the state is advanced by the sum of the others. -/
theorem advancedBy_finish (state : State) (amounts : List UInt64) :
    state.AdvancedBy (total (state.succeeded amounts)) (state.finish amounts) := by
  induction amounts generalizing state with
  | nil => exact .refl state
  | cons amount amounts inductionHypothesis =>
      rw [finish_cons]
      cases outcome : state.increment? amount with
      | none =>
          rw [succeeded_cons_of_none outcome]
          exact inductionHypothesis state
      | some next =>
          rw [succeeded_cons_of_some outcome, total_cons]
          exact (increment?_eq_some_iff.mp outcome).trans (inductionHypothesis next)

/-- Every outcome of a run is that of the increment of the state that the ones before it left. -/
theorem getElem?_incrementAll (state : State) (amounts : List UInt64) (index : Nat) :
    (state.incrementAll amounts)[index]? =
      amounts[index]?.map (state.finish (amounts.take index)).increment? := by
  induction amounts generalizing state index with
  | nil => rfl
  | cons amount amounts inductionHypothesis =>
      cases index with
      | zero => rfl
      | succ index =>
          rw [incrementAll, List.getElem?_cons_succ, inductionHypothesis, List.take_succ_cons,
            finish_cons, List.getElem?_cons_succ]

/-- What increments do to a state, in terms of sums that are not bounded. -/
structure AddsExactly (state : State) : Prop where
  /-- All of some increments succeed exactly if neither property outgrows 64 bits in the end. -/
  succeeds_iff : ∀ amounts, (∃ final, state.increments? amounts = some final) ↔
    state.property1.toNat + total amounts < 2 ^ 64 ∧
      state.property2.toNat + 2 * total amounts < 2 ^ 64
  /-- The properties are then larger by the sum and by twice the sum. -/
  advances : ∀ amounts final, state.increments? amounts = some final →
    state.AdvancedBy (total amounts) final
  /-- In another order the same amounts succeed or fail alike, with the same result. -/
  reordered : ∀ amounts others, amounts.Perm others →
    state.increments? amounts = state.increments? others
  /-- So does one increment for each of some groups of adjacent amounts, where their sums fit. -/
  grouped : ∀ groups sums, List.Forall₂ (fun group sum => total group = sum.toNat) groups sums →
    state.increments? groups.flatten = state.increments? sums
  /-- Where overflowing increments are skipped, each one is tried on the state that those before
  it left. -/
  tried : ∀ amounts index, (state.incrementAll amounts)[index]? =
    amounts[index]?.map (state.finish (amounts.take index)).increment?
  /-- In the end the properties are larger by the sum of the amounts that succeeded and by twice
  that sum. -/
  skipping : ∀ amounts, state.AdvancedBy (total (state.succeeded amounts)) (state.finish amounts)
  /-- The second property keeps its distance from twice the first, whatever is tried. -/
  lead_eq : ∀ amounts, (state.finish amounts).lead = state.lead

/-- Increments add to every state exactly. -/
theorem addsExactly (state : State) : state.AddsExactly where
  succeeds_iff := by
    intro amounts
    simp only [increments?_eq_some_iff]
    exact exists_advancedBy_iff
  advances := fun _ _ succeeds => increments?_eq_some_iff.mp succeeds
  reordered := fun _ _ same => increments?_eq_of_total_eq (total_eq_of_perm same)
  grouped := fun _ _ fits => increments?_eq_of_total_eq (total_flatten fits)
  tried := state.getElem?_incrementAll
  skipping := state.advancedBy_finish
  lead_eq := fun amounts => (state.advancedBy_finish amounts).lead_eq

-- The second increment would take the second property to 2 ^ 64, so only the others count.
example :
    (⟨0, 2 ^ 64 - 4⟩ : State).incrementAll [1, 1, 0] =
        [some ⟨1, 2 ^ 64 - 2⟩, none, some ⟨1, 2 ^ 64 - 2⟩] ∧
      (⟨0, 2 ^ 64 - 4⟩ : State).succeeded [1, 1, 0] = [1, 0] := by decide +kernel

end FixedLayout.TestProgram.State
