import FixedLayout.ScaledRational.Worksheet
import FixedLayout.Proofs.ScaledRational.Divisions

/-!
# Divisors on worksheets

`Worksheet.Performs` lists all that a step can do: fill the next cell, leave it empty, rebase
one cell, or only look. From it follows that no divisor on a worksheet becomes zero, that a
step is refused exactly when it asks for a zero divisor or for a division by what vanishes,
and that a refused step leaves every cell as it was.
-/

namespace FixedLayout.ScaledRational

/-- The number that a step shows. -/
def Shown.number? : Shown → Option ScaledRational
  | .number shown | .rebased _ shown | .parts shown => some shown
  | .failed _ | .noOperand | .approximation _ | .text _ | .same _ => none

/-- The error that a step shows. -/
def Shown.error? : Shown → Option ZeroDivisor
  | .failed error | .rebased (.error error) _ => some error
  | .rebased (.ok _) _ | .number _ | .parts _ | .noOperand | .approximation _ | .text _
  | .same _ => none

/-- The two cells that a step combines, and what it makes of their numbers. -/
def Step.combination? : Step →
    Option (Nat × Nat × (ScaledRational → ScaledRational → Except ZeroDivisor ScaledRational))
  | .add left right => some (left, right, fun first second => .ok (first.add second))
  | .sub left right => some (left, right, fun first second => .ok (first.sub second))
  | .mul left right => some (left, right, fun first second => .ok (first.mul second))
  | .div left right => some (left, right, ScaledRational.div)
  | .make _ _ | .ofDecimals _ _ | .rebase _ _ | .rebaseInPlace _ _ | .approximate _ | .text _
  | .parts _ | .same _ _ => none

/-- Whatever is made of two numbers has the smaller one of their divisors. -/
theorem Step.divisor_of_combination {step : Step} {left right : Nat}
    {operation : ScaledRational → ScaledRational → Except ZeroDivisor ScaledRational}
    {first second number : ScaledRational}
    (combines : step.combination? = some (left, right, operation))
    (made : operation first second = .ok number) :
    number.divisor = min first.divisor second.divisor := by
  cases step with
  | add =>
      cases combines
      cases made
      exact divisor_align first second
  | sub =>
      cases combines
      cases made
      exact divisor_align first second
  | mul =>
      cases combines
      cases made
      exact divisor_align first second
  | div =>
      cases combines
      exact divisor_of_div made
  | make | ofDecimals | rebase | rebaseInPlace | approximate | text | parts | same =>
      cases combines

namespace Worksheet

/-- No divisor on the worksheet is zero. -/
def Positive (sheet : Worksheet) : Prop :=
  ∀ number, some number ∈ sheet → 0 < number.divisor

/-- A step that asks for a divisor of zero, or for a division by what vanishes over the
smaller divisor. -/
inductive AsksForZero (sheet : Worksheet) : Step → Prop where
  | make {raw : Int} : AsksForZero sheet (.make raw 0)
  | rebase {cell : Nat} {number : ScaledRational} (operand : sheet.cell? cell = some number) :
      AsksForZero sheet (.rebase cell 0)
  | rebaseInPlace {cell : Nat} {number : ScaledRational}
      (operand : sheet.cell? cell = some number) : AsksForZero sheet (.rebaseInPlace cell 0)
  | div {left right : Nat} {first second : ScaledRational}
      (leftOperand : sheet.cell? left = some first) (rightOperand : sheet.cell? right = some second)
      (vanishes : (align first second).2.1 = 0) : AsksForZero sheet (.div left right)

/-- The outcome of a step that makes a number from operands that are there. -/
inductive Makes (sheet : Worksheet) : Step → Except ZeroDivisor ScaledRational → Prop where
  | make {raw : Int} {divisor : Nat} :
      Makes sheet (.make raw divisor) (ScaledRational.make raw divisor)
  | ofDecimals {raw : Int} {decimals : Nat} :
      Makes sheet (.ofDecimals raw decimals) (.ok (ScaledRational.ofDecimals raw decimals))
  | rebase {cell divisor : Nat} {number : ScaledRational}
      (operand : sheet.cell? cell = some number) :
      Makes sheet (.rebase cell divisor) (number.rebase divisor)
  | combine {step : Step} {left right : Nat} {first second : ScaledRational}
      {operation : ScaledRational → ScaledRational → Except ZeroDivisor ScaledRational}
      (combines : step.combination? = some (left, right, operation))
      (leftOperand : sheet.cell? left = some first)
      (rightOperand : sheet.cell? right = some second) :
      Makes sheet step (operation first second)

/-- All that a step can do to a worksheet: what it shows and the worksheet after it. -/
inductive Performs (sheet : Worksheet) : Step → Shown → Worksheet → Prop where
  | made {step : Step} {number : ScaledRational} (makes : Makes sheet step (.ok number)) :
      Performs sheet step (.number number) (sheet ++ [some number])
  | failed {step : Step} {error : ZeroDivisor} (makes : Makes sheet step (.error error)) :
      Performs sheet step (.failed error) (sheet ++ [none])
  | missing {step : Step} : Performs sheet step .noOperand (sheet ++ [none])
  | rebased {cell divisor : Nat} {number rebased : ScaledRational}
      (operand : sheet.cell? cell = some number) (outcome : number.rebase divisor = .ok rebased) :
      Performs sheet (.rebaseInPlace cell divisor) (.rebased (.ok ()) rebased)
        (sheet.set cell (some rebased))
  | refused {cell divisor : Nat} {number : ScaledRational} {error : ZeroDivisor}
      (operand : sheet.cell? cell = some number)
      (outcome : number.rebase divisor = .error error) :
      Performs sheet (.rebaseInPlace cell divisor) (.rebased (.error error) number) sheet
  | looked {step : Step} {shown : Shown} (harmless : shown.error? = none)
      (held : ∀ number, shown.number? = some number → some number ∈ sheet) :
      Performs sheet step shown sheet

section Cells

variable {sheet : Worksheet} {cell : Nat} {number : ScaledRational}

/-- The number of a cell is on the worksheet. -/
theorem mem_of_cell? (found : sheet.cell? cell = some number) : some number ∈ sheet :=
  List.mem_of_getElem? (Option.join_eq_some_iff.mp found)

/-- An empty cell at the end holds nothing, like no cell. -/
theorem cell?_append_none (sheet : Worksheet) (cell : Nat) :
    cell? (sheet ++ [none]) cell = sheet.cell? cell := by
  rw [cell?, cell?]
  rcases Nat.lt_trichotomy cell sheet.length with inside | here | beyond
  · rw [List.getElem?_append_left inside]
  · rw [here, List.getElem?_concat_length, List.getElem?_eq_none (Nat.le_refl _)]
    rfl
  · rw [List.getElem?_eq_none (Nat.le_of_lt beyond), List.getElem?_eq_none]
    rw [List.length_append]
    exact beyond

end Cells

/-- An operation on a cell has a result exactly if there is a number in the cell. -/
theorem withCell_eq_some_iff {Result : Type} {sheet : Worksheet} {cell : Nat} {result : Result}
    {operation : ScaledRational → Result} :
    sheet.withCell cell operation = some result ↔
      ∃ number, sheet.cell? cell = some number ∧ operation number = result :=
  Option.map_eq_some_iff

/-- A step that combines two cells makes what it makes of the numbers in them. -/
theorem makes_of_withCells {sheet : Worksheet} {step : Step} {left right : Nat}
    {operation : ScaledRational → ScaledRational → Except ZeroDivisor ScaledRational}
    (combines : step.combination? = some (left, right, operation))
    (outcome : Except ZeroDivisor ScaledRational)
    (made : sheet.withCells left right operation = some outcome) : Makes sheet step outcome := by
  simp only [withCells, Option.bind_eq_bind, Option.bind_eq_some_iff, Option.some.injEq] at made
  obtain ⟨first, leftOperand, second, rightOperand, rfl⟩ := made
  exact .combine combines leftOperand rightOperand

/-- Putting an outcome that the step makes into the next cell is something it can do. -/
theorem Performs.append {sheet : Worksheet} {step : Step}
    {result : Option (Except ZeroDivisor ScaledRational)}
    (makes : ∀ outcome, result = some outcome → Makes sheet step outcome) :
    Performs sheet step (sheet.append result).1 (sheet.append result).2 := by
  rcases result with _ | (error | number)
  · exact .missing
  · exact .failed (makes _ rfl)
  · exact .made (makes _ rfl)

/-- Showing something of the operands is something that a step can do. -/
theorem Performs.display {Result : Type} {sheet : Worksheet} {step : Step}
    {present : Result → Shown} {result : Option Result}
    (harmless : ∀ value, (present value).error? = none)
    (held : ∀ value number, result = some value → (present value).number? = some number →
      some number ∈ sheet) :
    Performs sheet step (display present result) sheet := by
  rcases result with _ | value
  · exact .looked rfl nofun
  · exact .looked (harmless value) fun number => held value number rfl

/-- Every step does one of these things. -/
theorem performs_perform (sheet : Worksheet) (step : Step) :
    Performs sheet step (sheet.perform step).1 (sheet.perform step).2 := by
  cases step with
  | make raw divisor =>
      refine .append ?_
      rintro _ ⟨⟩
      exact .make
  | ofDecimals raw decimals =>
      refine .append ?_
      rintro _ ⟨⟩
      exact .ofDecimals
  | rebase cell divisor =>
      refine .append fun outcome made => ?_
      obtain ⟨number, operand, rfl⟩ := withCell_eq_some_iff.mp made
      exact .rebase operand
  | add left right => exact .append (makes_of_withCells rfl)
  | sub left right => exact .append (makes_of_withCells rfl)
  | mul left right => exact .append (makes_of_withCells rfl)
  | div left right => exact .append (makes_of_withCells rfl)
  | rebaseInPlace cell divisor =>
      rw [perform]
      split
      case h_1 => exact .looked rfl nofun
      case h_2 number operand =>
        split
        case h_1 rebased outcome => exact .rebased operand outcome
        case h_2 error outcome => exact .refused operand outcome
  | approximate cell => exact .display (fun _ => rfl) nofun
  | text cell => exact .display (fun _ => rfl) nofun
  | parts cell =>
      refine .display (fun _ => rfl) fun value number found shown => ?_
      obtain ⟨held, operand, rfl⟩ := withCell_eq_some_iff.mp found
      cases shown
      exact mem_of_cell? operand
  | same left right => exact .display (fun _ => rfl) nofun

section Outcomes

variable {sheet : Worksheet} {step : Step}

/-- From positive divisors only positive divisors are made. -/
theorem Makes.divisor_pos {outcome : Except ZeroDivisor ScaledRational} {number : ScaledRational}
    (makes : Makes sheet step outcome) (positive : sheet.Positive) (made : outcome = .ok number) :
    0 < number.divisor := by
  cases makes with
  | make => exact (divisor_of_make made).2
  | ofDecimals =>
      cases made
      exact Nat.pow_pos (by decide)
  | rebase => exact (divisor_of_rebase made).2
  | combine combines leftOperand rightOperand =>
      rw [Step.divisor_of_combination combines made]
      exact Nat.lt_min.mpr
        ⟨positive _ (mem_of_cell? leftOperand), positive _ (mem_of_cell? rightOperand)⟩

/-- A number is not made only where a zero was asked for. -/
theorem Makes.asksForZero {outcome : Except ZeroDivisor ScaledRational} {error : ZeroDivisor}
    (makes : Makes sheet step outcome) (failed : outcome = .error error) :
    AsksForZero sheet step := by
  cases makes with
  | make =>
      cases make_eq_error_iff.mp failed
      exact .make
  | ofDecimals => cases failed
  | rebase operand =>
      cases rebase_eq_error_iff.mp failed
      exact .rebase operand
  | combine combines leftOperand rightOperand =>
      cases step with
      | div =>
          cases combines
          exact .div leftOperand rightOperand (div_eq_error_iff.mp failed)
      | add | sub | mul =>
          cases combines
          cases failed
      | make | ofDecimals | rebase | rebaseInPlace | approximate | text | parts | same =>
          cases combines

variable {shown : Shown} {next : Worksheet} (performs : Performs sheet step shown next)
include performs

/-- Divisors stay positive, whatever a step does. -/
theorem Performs.positive (positive : sheet.Positive) : next.Positive := by
  intro number member
  cases performs with
  | made makes =>
      rcases List.mem_append.mp member with old | new
      · exact positive number old
      · cases List.mem_singleton.mp new
        exact makes.divisor_pos positive rfl
  | failed | missing =>
      rcases List.mem_append.mp member with old | new
      · exact positive number old
      -- The cell that is added holds no number.
      · cases List.mem_singleton.mp new
  | rebased operand outcome =>
      rcases List.mem_or_eq_of_mem_set member with old | new
      · exact positive number old
      · cases new
        exact (divisor_of_rebase outcome).2
  | refused => exact positive number member
  | looked => exact positive number member

/-- So do the divisors of the numbers that it shows. -/
theorem Performs.divisor_pos {number : ScaledRational} (positive : sheet.Positive)
    (shows : shown.number? = some number) : 0 < number.divisor := by
  cases performs with
  | made makes =>
      cases shows
      exact makes.divisor_pos positive rfl
  | failed | missing => cases shows
  | rebased operand outcome =>
      cases shows
      exact (divisor_of_rebase outcome).2
  | refused operand =>
      cases shows
      exact positive _ (mem_of_cell? operand)
  | looked _ held => exact positive _ (held _ shows)

/-- A step that is refused leaves every cell as it was. -/
theorem Performs.cell?_eq {error : ZeroDivisor} (failed : shown.error? = some error)
    (cell : Nat) : next.cell? cell = sheet.cell? cell := by
  cases performs with
  | made | missing | rebased => cases failed
  | failed => exact cell?_append_none sheet cell
  | refused => rfl
  | looked => rfl

/-- A step is refused only if it asks for a zero. -/
theorem Performs.asksForZero {error : ZeroDivisor} (failed : shown.error? = some error) :
    AsksForZero sheet step := by
  cases performs with
  | made | missing | rebased => cases failed
  | failed makes => exact makes.asksForZero rfl
  | refused operand outcome =>
      cases rebase_eq_error_iff.mp outcome
      exact .rebaseInPlace operand
  | looked harmless =>
      rw [harmless] at failed
      cases failed

end Outcomes

/-- A step that asks for a zero is refused. -/
theorem AsksForZero.error?_perform {sheet : Worksheet} {step : Step}
    (asks : AsksForZero sheet step) :
    (sheet.perform step).1.error? = some .zeroDivisor := by
  cases asks with
  | make => rfl
  | rebase operand =>
      rw [perform, withCell, operand]
      rfl
  | rebaseInPlace operand =>
      rw [perform, operand]
      rfl
  | div leftOperand rightOperand vanishes =>
      rw [perform, withCells, leftOperand, rightOperand]
      simp only [Option.bind_eq_bind, Option.bind_some, div_of_eq_zero vanishes]
      rfl

end Worksheet

end FixedLayout.ScaledRational
