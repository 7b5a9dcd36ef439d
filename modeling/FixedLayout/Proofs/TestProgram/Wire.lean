import FixedLayout.Proofs.Typed
import FixedLayout.TestProgram

/-!
# The test program on the wire

The layouts of instructions and of states are lawful: they name the same fields with the
same widths in the same order as the conversions of the two types. So the typed path agrees
with the wire for both, for every amount and whatever bytes arrive. The conversions look names
up, so they also understand values with their entries in another order or repeated.
-/

namespace FixedLayout

namespace TestProgram

namespace Instruction

/-- The value of an instruction shows the declared layout. -/
theorem shows_toValue (instruction : Instruction) :
    (Layout.enum declared).Shows instruction.toValue := by
  cases instruction with
  | helloWorld =>
      exact @Layout.Shows.enum declared ⟨"HelloWorld", none⟩ none (by simp [declared]) rfl
  | incrementNumber amount =>
      exact @Layout.Shows.enum declared ⟨"IncrementNumber", some [⟨"amount", .u64⟩]⟩
        (incrementNumber amount).payload (by simp [declared]) rfl
  | recurseThenIncrementNumber callDepth amount =>
      exact @Layout.Shows.enum declared
        ⟨"RecurseThenIncrementNumber", some [⟨"call_depth", .u8⟩, ⟨"amount", .u64⟩]⟩
        (recurseThenIncrementNumber callDepth amount).payload (by simp [declared]) rfl

/-- Every value that shows the declared layout is that of an instruction. -/
theorem exists_toValue {value : Value} (shown : (Layout.enum declared).Shows value) :
    ∃ instruction, toValue instruction = value := by
  cases shown with
  | @enum _ variant payload member complete =>
      simp only [declared, List.mem_cons, List.not_mem_nil, or_false] at member
      rcases member with rfl | rfl | rfl
      · exact ⟨helloWorld, by rw [Option.map_eq_none_iff.mp complete]; rfl⟩
      · obtain ⟨entries, rfl, shown⟩ := Option.map_eq_some_iff.mp complete
        obtain ⟨amount, others, rfl, typed, rest⟩ := Entries.shape_eq_cons_iff.mp shown
        rw [Entries.shape_eq_nil_iff.mp rest]
        refine ⟨incrementNumber (UInt64.ofNat amount.value), ?_⟩
        rw [toValue, payload, Word.ofUInt64_ofNat typed, variantName]
      · obtain ⟨entries, rfl, shown⟩ := Option.map_eq_some_iff.mp complete
        obtain ⟨callDepth, others, rfl, depthTyped, rest⟩ := Entries.shape_eq_cons_iff.mp shown
        obtain ⟨amount, others, rfl, typed, rest⟩ := Entries.shape_eq_cons_iff.mp rest
        rw [Entries.shape_eq_nil_iff.mp rest]
        refine ⟨recurseThenIncrementNumber (UInt8.ofNat callDepth.value)
          (UInt64.ofNat amount.value), ?_⟩
        rw [toValue, payload, Word.ofUInt8_ofNat depthTyped, Word.ofUInt64_ofNat typed,
          variantName]

/-- The conversion needs the variant and the first words of the declared names. -/
theorem ofValue_of_offers {value : Value} {instruction : Instruction}
    (offers : value.Offers instruction.toValue) : ofValue value = .ok instruction := by
  cases instruction with
  | helloWorld =>
      cases offers
      rfl
  | incrementNumber amount =>
      cases offers with
      | @payload _ entries _ offers =>
          obtain ⟨amountGiven, -⟩ := List.forall_mem_cons.mp offers
          have amountRead : entries.require .u64 typeName "amount" = .ok (Word.ofUInt64 amount) :=
            Entries.require_of_lookup amountGiven rfl typeName
          change (do
            let amount ← entries.require .u64 typeName "amount"
            pure (incrementNumber (UInt64.ofNat amount.value))) = _
          rw [amountRead]
          change Except.ok (incrementNumber (UInt64.ofNat amount.toNat)) = _
          rw [UInt64.ofNat_toNat]
  | recurseThenIncrementNumber callDepth amount =>
      cases offers with
      | @payload _ entries _ offers =>
          obtain ⟨depthGiven, others⟩ := List.forall_mem_cons.mp offers
          obtain ⟨amountGiven, -⟩ := List.forall_mem_cons.mp others
          have depthRead : entries.require .u8 typeName "call_depth" =
              .ok (Word.ofUInt8 callDepth) :=
            Entries.require_of_lookup depthGiven rfl typeName
          have amountRead : entries.require .u64 typeName "amount" = .ok (Word.ofUInt64 amount) :=
            Entries.require_of_lookup amountGiven rfl typeName
          change (do
            let callDepth ← entries.require .u8 typeName "call_depth"
            let amount ← entries.require .u64 typeName "amount"
            pure (recurseThenIncrementNumber (UInt8.ofNat callDepth.value)
              (UInt64.ofNat amount.value))) = _
          rw [depthRead, amountRead]
          change Except.ok (recurseThenIncrementNumber (UInt8.ofNat callDepth.toNat)
            (UInt64.ofNat amount.toNat)) = _
          rw [UInt8.ofNat_toNat, UInt64.ofNat_toNat]

instance : Typed.ReadsOffers Instruction where
  ofValue_of_offers := ofValue_of_offers

instance : Typed.Lawful Instruction where
  validate_layout := rfl
  shows_toValue := shows_toValue
  exists_toValue := fun _ => exists_toValue
  ofValue_toValue := fun instruction =>
    Typed.ofValue_toValue_of_shows rfl (shows_toValue instruction)

end Instruction

namespace State

/-- Every value that shows the declared layout is that of a state. -/
theorem exists_toValue {value : Value} (shown : (Layout.struct declared).Shows value) :
    ∃ state, toValue state = value := by
  cases shown with
  | @struct _ entries complete =>
      obtain ⟨first, others, rfl, firstTyped, rest⟩ := Entries.shape_eq_cons_iff.mp complete
      obtain ⟨second, others, rfl, secondTyped, rest⟩ := Entries.shape_eq_cons_iff.mp rest
      rw [Entries.shape_eq_nil_iff.mp rest]
      refine ⟨⟨UInt64.ofNat first.value, UInt64.ofNat second.value⟩, ?_⟩
      rw [toValue, Word.ofUInt64_ofNat firstTyped, Word.ofUInt64_ofNat secondTyped]

/-- The conversion needs the first words of the declared names. -/
theorem ofValue_of_offers {value : Value} {state : State} (offers : value.Offers state.toValue) :
    ofValue value = .ok state := by
  cases offers with
  | @struct entries _ offers =>
      obtain ⟨firstGiven, others⟩ := List.forall_mem_cons.mp offers
      obtain ⟨secondGiven, -⟩ := List.forall_mem_cons.mp others
      have firstRead : entries.require .u64 typeName "property1" =
          .ok (Word.ofUInt64 state.property1) :=
        Entries.require_of_lookup firstGiven rfl typeName
      have secondRead : entries.require .u64 typeName "property2" =
          .ok (Word.ofUInt64 state.property2) :=
        Entries.require_of_lookup secondGiven rfl typeName
      change (do
        let property1 ← entries.require .u64 typeName "property1"
        let property2 ← entries.require .u64 typeName "property2"
        pure (State.mk (UInt64.ofNat property1.value) (UInt64.ofNat property2.value))) = _
      rw [firstRead, secondRead]
      change Except.ok (State.mk (UInt64.ofNat state.property1.toNat)
        (UInt64.ofNat state.property2.toNat)) = _
      rw [UInt64.ofNat_toNat, UInt64.ofNat_toNat]

instance : Typed.ReadsOffers State where
  ofValue_of_offers := ofValue_of_offers

instance : Typed.Lawful State where
  validate_layout := rfl
  shows_toValue := fun _ => .struct rfl
  exists_toValue := fun _ => exists_toValue
  ofValue_toValue := fun _ => Typed.ofValue_toValue_of_shows rfl (.struct rfl)

end State

/-- The typed path agrees with the wire for instructions and for states, and an instruction
is unpacked from its encoding and from no other bytes. -/
theorem agreesWithWire_instruction_and_state :
    Typed.AgreesWithWire Instruction ∧ Typed.AgreesWithWire State ∧
      ∀ data instruction, Instruction.unpack data = .ok instruction ↔
        Typed.encode instruction = .ok data := by
  have instructions := Typed.agreesWithWire_of_lawful Instruction
  exact ⟨instructions, Typed.agreesWithWire_of_lawful State, instructions.exact_iff⟩

-- The depth stands in front of the amount, lowest byte first.
example : Typed.encode (Instruction.recurseThenIncrementNumber 3 1337) =
    .ok [2, 3, 57, 5, 0, 0, 0, 0, 0, 0] := rfl

/-- The typed path understands every value that the codec accepts as an instruction or as a
state. -/
theorem understands_instruction_and_state :
    Typed.Understands Instruction ∧ Typed.Understands State :=
  ⟨Typed.understands_of_lawful Instruction, Typed.understands_of_lawful State⟩

end TestProgram

end FixedLayout
