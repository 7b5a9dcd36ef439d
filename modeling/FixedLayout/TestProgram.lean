import FixedLayout.Registry.Basic
import FixedLayout.Typed

/-!
# The test program

The bundled program takes three instructions and keeps one state account. An
increment adds its amount to the first property and twice the amount to the
second. A recursion calls the program again with one less depth and increments
once the depth is used up.
-/

namespace FixedLayout.TestProgram

/-- An instruction of the program. -/
inductive Instruction where
  | helloWorld
  | incrementNumber (amount : UInt64)
  | recurseThenIncrementNumber (callDepth : UInt8) (amount : UInt64)
  deriving DecidableEq

/-- The state account of the program. -/
structure State where
  property1 : UInt64
  property2 : UInt64
  deriving DecidableEq

namespace Instruction

/-- The name of the type in schemas and messages. -/
def typeName : String := "TestProgramInstruction"

/-- The layout of instructions. -/
def declared : EnumLayout where
  name := typeName
  variants :=
    [⟨"HelloWorld", none⟩,
      ⟨"IncrementNumber", some [⟨"amount", .u64⟩]⟩,
      ⟨"RecurseThenIncrementNumber", some [⟨"call_depth", .u8⟩, ⟨"amount", .u64⟩]⟩]

/-- The name of the variant of an instruction. -/
def variantName : Instruction → String
  | helloWorld => "HelloWorld"
  | incrementNumber _ => "IncrementNumber"
  | recurseThenIncrementNumber _ _ => "RecurseThenIncrementNumber"

/-- The entries of the payload of an instruction. -/
def payload : Instruction → Option Entries
  | helloWorld => none
  | incrementNumber amount => some [("amount", Word.ofUInt64 amount)]
  | recurseThenIncrementNumber callDepth amount =>
      some [("call_depth", Word.ofUInt8 callDepth), ("amount", Word.ofUInt64 amount)]

/-- An instruction as a value. -/
def toValue (instruction : Instruction) : Value :=
  .enum instruction.variantName instruction.payload

/-- The payload of a variant that must carry one. -/
def requirePayload (variant : String) : Option Entries → Except LayoutError Entries
  | some entries => .ok entries
  | none => .error (.missingPayload typeName variant)

/-- The instruction that a value stands for. -/
def ofValue (value : Value) : Except LayoutError Instruction := do
  let (variant, payload) ← value.toEnum typeName
  if variant = "HelloWorld" then pure helloWorld
  else if variant = "IncrementNumber" then do
    let entries ← requirePayload variant payload
    let amount ← entries.require .u64 typeName "amount"
    pure (incrementNumber (UInt64.ofNat amount.value))
  else if variant = "RecurseThenIncrementNumber" then do
    let entries ← requirePayload variant payload
    let callDepth ← entries.require .u8 typeName "call_depth"
    let amount ← entries.require .u64 typeName "amount"
    pure (recurseThenIncrementNumber (UInt8.ofNat callDepth.value) (UInt64.ofNat amount.value))
  else throw (.unknownVariant typeName variant)

instance : Typed Instruction where
  layout := .enum declared
  toValue := toValue
  ofValue := ofValue

/-- The instruction whose encoding is all of the bytes. -/
def unpack (data : List UInt8) : Except LayoutError Instruction := Typed.decodeExact data

/-- The instruction that a recursion step calls next. -/
def nextHop? : Instruction → Option Instruction
  | recurseThenIncrementNumber callDepth amount =>
      if callDepth = 0 then some (incrementNumber amount)
      else some (recurseThenIncrementNumber (callDepth - 1) amount)
  | helloWorld => none
  | incrementNumber _ => none

/-- How many hops an instruction still has. -/
def hopCount : Instruction → Nat
  | recurseThenIncrementNumber callDepth _ => callDepth.toNat + 1
  | helloWorld => 0
  | incrementNumber _ => 0

/-- Each hop leaves fewer hops to go. -/
theorem hopCount_lt_of_nextHop? {instruction next : Instruction}
    (hop : instruction.nextHop? = some next) : next.hopCount < instruction.hopCount := by
  cases instruction with
  | helloWorld => cases hop
  | incrementNumber amount => cases hop
  | recurseThenIncrementNumber callDepth amount =>
      simp only [nextHop?] at hop
      split at hop
      · cases hop
        simp [hopCount]
      · next positive =>
          cases hop
          have nonzero : callDepth.toNat ≠ 0 := fun zero =>
            positive (UInt8.toNat_inj.mp (by simpa using zero))
          have bound : callDepth.toNat < 256 := callDepth.toNat_lt
          simp only [hopCount, UInt8.toNat_sub, UInt8.toNat_one]
          omega

/-- All instructions that follow an instruction by hops, the next one first. -/
def hops (instruction : Instruction) : List Instruction :=
  match _ : instruction.nextHop? with
  | none => []
  | some next => next :: hops next
termination_by instruction.hopCount
decreasing_by exact hopCount_lt_of_nextHop? ‹_›

end Instruction

namespace State

/-- The name of the type in schemas and messages. -/
def typeName : String := "TestProgramState"

/-- The layout of states. -/
def declared : StructLayout where
  name := typeName
  fields := [⟨"property1", .u64⟩, ⟨"property2", .u64⟩]

/-- A state as a value. -/
def toValue (state : State) : Value :=
  .struct
    [("property1", Word.ofUInt64 state.property1), ("property2", Word.ofUInt64 state.property2)]

/-- The state that a value stands for. -/
def ofValue (value : Value) : Except LayoutError State := do
  let entries ← value.toStruct typeName
  let property1 ← entries.require .u64 typeName "property1"
  let property2 ← entries.require .u64 typeName "property2"
  pure ⟨UInt64.ofNat property1.value, UInt64.ofNat property2.value⟩

instance : Typed State where
  layout := .struct declared
  toValue := toValue
  ofValue := ofValue

/-- The sum of two 64-bit integers, if it fits. -/
def checkedAdd (left right : UInt64) : Option UInt64 :=
  if left.toNat + right.toNat < 2 ^ 64 then some (left + right) else none

/-- The state after an increment, unless a property would overflow. -/
def increment? (state : State) (amount : UInt64) : Option State := do
  let property1 ← checkedAdd state.property1 amount
  let twice ← checkedAdd amount amount
  let property2 ← checkedAdd state.property2 twice
  some ⟨property1, property2⟩

/-- The outcome of each increment in turn; one that overflows leaves the state. -/
def incrementAll : State → List UInt64 → List (Option State)
  | _, [] => []
  | state, amount :: amounts =>
      let next := state.increment? amount
      next :: incrementAll (next.getD state) amounts

end State

/-- The layouts of the program, the instruction first. -/
def layouts : List Layout := [.enum Instruction.declared, .struct State.declared]

/-- The registry of the layouts of the program. -/
def registry : Except LayoutError Registry := Registry.ofLayouts layouts

end FixedLayout.TestProgram
