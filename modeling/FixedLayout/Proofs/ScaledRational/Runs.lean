import FixedLayout.Proofs.ScaledRational.Worksheets

/-!
# Runs with guarded divisions

A guarded run makes its divisions through the guarded operations and yields nothing as soon
as one of them has nothing to divide by. On a worksheet without zero divisors no step does
that, and no step brings a zero divisor in; so a guarded run from the empty worksheet comes to
an end and shows what the run shows.
-/

namespace FixedLayout.ScaledRational.Worksheet

/-- The result of a guarded operation on one cell, or that there is no operand; none if the
operation yields nothing. -/
def withCell? {Result : Type} (sheet : Worksheet) (cell : Nat)
    (operation? : ScaledRational → Option Result) : Option (Option Result) :=
  match sheet.cell? cell with
  | some number => (operation? number).map some
  | none => some none

/-- The result of a guarded operation on two cells, or that an operand is missing; none if the
operation yields nothing. -/
def withCells? {Result : Type} (sheet : Worksheet) (left right : Nat)
    (operation? : ScaledRational → ScaledRational → Option Result) : Option (Option Result) :=
  match sheet.cell? left, sheet.cell? right with
  | some first, some second => (operation? first second).map some
  | _, _ => some none

/-- What a step shows and the worksheet after it, with guarded divisions. -/
def perform? (sheet : Worksheet) : Step → Option (Shown × Worksheet)
  | .make raw divisor => some (sheet.append (some (ScaledRational.make raw divisor)))
  | .ofDecimals raw decimals =>
      some (sheet.append (some (.ok (ScaledRational.ofDecimals raw decimals))))
  | .rebase cell divisor =>
      (sheet.withCell? cell fun number => number.rebase? divisor).map sheet.append
  | .add left right =>
      (sheet.withCells? left right fun a b => (a.add? b).map .ok).map sheet.append
  | .sub left right =>
      (sheet.withCells? left right fun a b => (a.sub? b).map .ok).map sheet.append
  | .mul left right =>
      (sheet.withCells? left right fun a b => (a.mul? b).map .ok).map sheet.append
  | .div left right => (sheet.withCells? left right fun a b => a.div? b).map sheet.append
  | .rebaseInPlace cell divisor =>
      match sheet.cell? cell with
      | none => some (.noOperand, sheet)
      | some number =>
          match number.rebase? divisor with
          | some (.ok rebased) => some (.rebased (.ok ()) rebased, sheet.set cell (some rebased))
          | some (.error error) => some (.rebased (.error error) number, sheet)
          | none => none
  | .approximate cell =>
      (sheet.withCell? cell approximate?).map fun result => (display .approximation result, sheet)
  | .text cell => some (sheet.perform (.text cell))
  | .parts cell => some (sheet.perform (.parts cell))
  | .same left right => some (sheet.perform (.same left right))

/-- What each step shows, with guarded divisions; nothing if one of them had no value. -/
def run? : Worksheet → List Step → Option (List Shown)
  | _, [] => some []
  | sheet, step :: steps => do
      let (shown, next) ← sheet.perform? step
      let others ← run? next steps
      some (shown :: others)

/-- The worksheet after some steps. -/
def finish (sheet : Worksheet) (steps : List Step) : Worksheet :=
  steps.foldl (fun sheet step => (sheet.perform step).2) sheet

section Steps

variable {Result : Type} {sheet : Worksheet} (positive : sheet.Positive)
include positive

/-- An operation that has a result on positive divisors has one on every cell. -/
theorem Positive.withCell?_eq {cell : Nat} {operation? : ScaledRational → Option Result}
    {operation : ScaledRational → Result}
    (defined : ∀ {number : ScaledRational}, 0 < number.divisor →
      operation? number = some (operation number)) :
    sheet.withCell? cell operation? = some (sheet.withCell cell operation) := by
  rw [withCell?, withCell]
  cases operand : sheet.cell? cell with
  | none => rfl
  | some number =>
      change (operation? number).map some = _
      rw [defined (positive number (mem_of_cell? operand))]
      rfl

/-- An operation that has a result on positive divisors has one on every two cells. -/
theorem Positive.withCells?_eq {left right : Nat}
    {operation? : ScaledRational → ScaledRational → Option Result}
    {operation : ScaledRational → ScaledRational → Result}
    (defined : ∀ {first second : ScaledRational}, 0 < first.divisor → 0 < second.divisor →
      operation? first second = some (operation first second)) :
    sheet.withCells? left right operation? = some (sheet.withCells left right operation) := by
  rw [withCells?, withCells]
  cases leftOperand : sheet.cell? left with
  | none => rfl
  | some first =>
      cases rightOperand : sheet.cell? right with
      | none => rfl
      | some second =>
          change (operation? first second).map some = _
          rw [defined (positive first (mem_of_cell? leftOperand))
            (positive second (mem_of_cell? rightOperand))]
          rfl

/-- Without zero divisors, guarded divisions do not change what a step does. -/
theorem Positive.perform?_eq (step : Step) : sheet.perform? step = some (sheet.perform step) := by
  cases step with
  | make | ofDecimals | text | parts | same => rfl
  | rebase cell divisor =>
      rw [perform?, positive.withCell?_eq fun operand => rebase?_eq operand divisor]
      rfl
  | add left right =>
      rw [perform?, positive.withCells?_eq fun leftOperand rightOperand =>
        congrArg (Option.map Except.ok) (add?_eq leftOperand rightOperand)]
      rfl
  | sub left right =>
      rw [perform?, positive.withCells?_eq fun leftOperand rightOperand =>
        congrArg (Option.map Except.ok) (sub?_eq leftOperand rightOperand)]
      rfl
  | mul left right =>
      rw [perform?, positive.withCells?_eq fun leftOperand rightOperand =>
        congrArg (Option.map Except.ok) (mul?_eq leftOperand rightOperand)]
      rfl
  | div left right =>
      rw [perform?, positive.withCells?_eq div?_eq]
      rfl
  | rebaseInPlace cell divisor =>
      rw [perform?, perform]
      cases operand : sheet.cell? cell with
      | none => rfl
      | some number =>
          simp only [rebase?_eq (positive number (mem_of_cell? operand))]
          rcases number.rebase divisor with _ | _ <;> rfl
  | approximate cell =>
      rw [perform?, positive.withCell?_eq approximate?_eq]
      rfl

end Steps

/-- A step keeps the divisors positive. -/
theorem Positive.perform {sheet : Worksheet} (positive : sheet.Positive) (step : Step) :
    (sheet.perform step).2.Positive :=
  (performs_perform sheet step).positive positive

/-- Without zero divisors, a guarded run shows what the run shows. -/
theorem Positive.run?_eq {sheet : Worksheet} (positive : sheet.Positive) (steps : List Step) :
    sheet.run? steps = some (sheet.run steps) := by
  induction steps generalizing sheet with
  | nil => rfl
  | cons step steps inductionHypothesis =>
      rw [run?, positive.perform?_eq step, run]
      simp only [Option.bind_eq_bind, Option.bind_some, inductionHypothesis (positive.perform step)]

/-- A run keeps the divisors positive. -/
theorem Positive.finish {sheet : Worksheet} (positive : sheet.Positive) (steps : List Step) :
    (sheet.finish steps).Positive := by
  induction steps generalizing sheet with
  | nil => exact positive
  | cons step steps inductionHypothesis => exact inductionHypothesis (positive.perform step)

/-- A worksheet without cells has no divisor that could be zero. -/
theorem positive_empty : Positive [] := nofun

/-- A run shows what each step does on the worksheet that the steps before it have left. -/
theorem getElem?_run (earlier : List Step) (step : Step) (later : List Step) (sheet : Worksheet) :
    (sheet.run (earlier ++ step :: later))[earlier.length]? =
      some ((sheet.finish earlier).perform step).1 := by
  induction earlier generalizing sheet with
  | nil => rfl
  | cons first earlier inductionHypothesis => exact inductionHypothesis (sheet.perform first).2

/-- A worksheet on which nothing is ever divided by zero. -/
structure DividesSafely (sheet : Worksheet) : Prop where
  /-- The divisor of every number is positive. -/
  positive : ∀ cell number, sheet.cell? cell = some number → 0 < number.divisor
  /-- So is that of every number that a step shows. -/
  shown : ∀ step number, (sheet.perform step).1.number? = some number → 0 < number.divisor
  /-- No division that a step makes has nothing to divide by. -/
  defined : ∀ step, sheet.perform? step = some (sheet.perform step)
  /-- The one error of a step is that it was asked for a zero. -/
  refused_iff : ∀ step error,
    (sheet.perform step).1.error? = some error ↔ error = .zeroDivisor ∧ AsksForZero sheet step
  /-- A step with an error changes no number. -/
  unchanged : ∀ step error, (sheet.perform step).1.error? = some error →
    ∀ cell, (sheet.perform step).2.cell? cell = sheet.cell? cell

/-- Over positive divisors no step divides by zero. -/
theorem Positive.dividesSafely {sheet : Worksheet} (positive : sheet.Positive) :
    sheet.DividesSafely where
  positive := fun _ number operand => positive number (mem_of_cell? operand)
  shown := fun step _ shows => (performs_perform sheet step).divisor_pos positive shows
  defined := positive.perform?_eq
  refused_iff := by
    intro step error
    constructor
    · intro failed
      exact ⟨rfl, (performs_perform sheet step).asksForZero failed⟩
    · rintro ⟨rfl, asks⟩
      exact asks.error?_perform
  unchanged := fun step _ failed => (performs_perform sheet step).cell?_eq failed

/-- Wherever a run from the empty worksheet has come to, nothing is divided by zero, the run
shows what its next step does there, and no division of the whole run was by zero. -/
theorem dividesSafely_finish (steps : List Step) :
    DividesSafely (finish [] steps) ∧
      (∀ step later, (run [] (steps ++ step :: later))[steps.length]? =
        some ((finish [] steps).perform step).1) ∧
      run? [] steps = some (run [] steps) := by
  refine ⟨(positive_empty.finish steps).dividesSafely, ?_, positive_empty.run?_eq steps⟩
  intro step later
  exact getElem?_run steps step later []

/-- A number that is small beside the other operand vanishes, and a division by it is refused
like one by zero. -/
example :
    AsksForZero (finish [] [.make 1 10, .make 1 1000]) (.div 0 1) ∧
      run [] [.make 1 10, .make 1 1000, .div 0 1, .rebaseInPlace 0 0, .parts 0] =
        [.number ⟨1, 10⟩, .number ⟨1, 1000⟩, .failed .zeroDivisor,
          .rebased (.error .zeroDivisor) ⟨1, 10⟩, .parts ⟨1, 10⟩] :=
  ⟨.div rfl rfl rfl, rfl⟩

end FixedLayout.ScaledRational.Worksheet
