import FixedLayout.ScaledRational.Basic

/-!
# Worksheets

A worksheet is a row of cells, each with a number or empty. A step that makes a
number fills the next cell; if it fails, or an operand cell is empty, the next cell
stays empty. Only rebasing in place changes a cell.
-/

namespace FixedLayout.ScaledRational

/-- One step on a worksheet. Cells are counted from zero. -/
inductive Step where
  | make (raw : Int) (divisor : Nat)
  | ofDecimals (raw : Int) (decimals : Nat)
  | rebase (cell divisor : Nat)
  | add (left right : Nat)
  | sub (left right : Nat)
  | mul (left right : Nat)
  | div (left right : Nat)
  | rebaseInPlace (cell divisor : Nat)
  | approximate (cell : Nat)
  | text (cell : Nat)
  | parts (cell : Nat)
  | same (left right : Nat)

/-- What a step shows. -/
inductive Shown where
  | number (number : ScaledRational)
  | failed (error : ZeroDivisor)
  | noOperand
  | rebased (outcome : Except ZeroDivisor Unit) (number : ScaledRational)
  | approximation (value : Binary64)
  | text (value : String)
  | parts (number : ScaledRational)
  | same (value : Bool)

/-- The cells of a worksheet. -/
abbrev Worksheet : Type := List (Option ScaledRational)

namespace Worksheet

/-- The number in a cell. -/
def cell? (sheet : Worksheet) (cell : Nat) : Option ScaledRational := (sheet[cell]?).join

/-- What is shown for the result of a step that makes a number, and the worksheet
with the next cell. -/
def append (sheet : Worksheet) (result : Option (Except ZeroDivisor ScaledRational)) :
    Shown × Worksheet :=
  match result with
  | none => (.noOperand, sheet ++ [none])
  | some (.error error) => (.failed error, sheet ++ [none])
  | some (.ok number) => (.number number, sheet ++ [some number])

/-- The result of an operation on one cell. -/
def withCell {Result : Type} (sheet : Worksheet) (cell : Nat)
    (operation : ScaledRational → Result) : Option Result :=
  (sheet.cell? cell).map operation

/-- The result of an operation on two cells. -/
def withCells {Result : Type} (sheet : Worksheet) (left right : Nat)
    (operation : ScaledRational → ScaledRational → Result) : Option Result := do
  let left ← sheet.cell? left
  let right ← sheet.cell? right
  some (operation left right)

/-- What is shown of a result, if there were operands. -/
def display {Result : Type} (present : Result → Shown) (result : Option Result) : Shown :=
  match result with
  | none => .noOperand
  | some value => present value

/-- What a step shows and the worksheet after it. -/
def perform (sheet : Worksheet) : Step → Shown × Worksheet
  | .make raw divisor => sheet.append (some (ScaledRational.make raw divisor))
  | .ofDecimals raw decimals => sheet.append (some (.ok (ScaledRational.ofDecimals raw decimals)))
  | .rebase cell divisor => sheet.append (sheet.withCell cell fun number => number.rebase divisor)
  | .add left right => sheet.append (sheet.withCells left right fun a b => .ok (a.add b))
  | .sub left right => sheet.append (sheet.withCells left right fun a b => .ok (a.sub b))
  | .mul left right => sheet.append (sheet.withCells left right fun a b => .ok (a.mul b))
  | .div left right => sheet.append (sheet.withCells left right fun a b => a.div b)
  | .rebaseInPlace cell divisor =>
      match sheet.cell? cell with
      | none => (.noOperand, sheet)
      | some number =>
          match number.rebase divisor with
          | .ok rebased => (.rebased (.ok ()) rebased, sheet.set cell (some rebased))
          | .error error => (.rebased (.error error) number, sheet)
  | .approximate cell =>
      (display .approximation (sheet.withCell cell ScaledRational.approximate), sheet)
  | .text cell => (display .text (sheet.withCell cell ScaledRational.text), sheet)
  | .parts cell => (display .parts (sheet.withCell cell id), sheet)
  | .same left right =>
      (display .same (sheet.withCells left right fun a b => decide (a = b)), sheet)

/-- What each step shows. -/
def run : Worksheet → List Step → List Shown
  | _, [] => []
  | sheet, step :: steps =>
      let (shown, next) := sheet.perform step
      shown :: run next steps

end Worksheet

end FixedLayout.ScaledRational
