import FixedLayout.TestProgram

/-!
# The hops of an instruction

A hop is a partial step, and `Hop` says all that it can be: the depth of a recursion is counted
down, or, where none is left, an increment takes the place of the recursion. From it follows
where each hop of a run leads to, so that a run ends in exactly one increment. The amount stays
the same, and with it all bytes of the encoding but the tag and the depth.
-/

namespace FixedLayout.TestProgram.Instruction

/-- The instruction that some hops lead to, if there are as many. -/
def hop? (instruction : Instruction) : Nat → Option Instruction
  | 0 => some instruction
  | count + 1 => instruction.nextHop?.bind fun next => next.hop? count

/-- A hop from an instruction to the one that it calls next. -/
inductive Hop : Instruction → Instruction → Prop where
  | countDown {depth left amount} (less : left.toNat + 1 = depth.toNat) :
      Hop (recurseThenIncrementNumber depth amount) (recurseThenIncrementNumber left amount)
  | increment {amount} : Hop (recurseThenIncrementNumber 0 amount) (incrementNumber amount)

/-- Bytes of which only the second, which stands for a depth, has changed: it was one more than
the depth that is left. -/
def CountsDepthDown (left : UInt8) (before after : List UInt8) : Prop :=
  ∃ tag depth amount, depth.toNat = left.toNat + 1 ∧
    before = tag :: depth :: amount ∧ after = tag :: left :: amount

/-- Bytes without the second one, which stood for a depth of zero, and with another tag. -/
def DropsDepth (before after : List UInt8) : Prop :=
  ∃ tag other amount, tag ≠ other ∧ before = tag :: 0 :: amount ∧ after = other :: amount

/-- Two instructions with encodings that are related in the given way. -/
def OnWire (relation : List UInt8 → List UInt8 → Prop) (before after : Instruction) : Prop :=
  ∃ beforeBytes afterBytes, Typed.encode before = .ok beforeBytes ∧
    Typed.encode after = .ok afterBytes ∧ relation beforeBytes afterBytes

section Steps

variable {instruction next : Instruction} {depth left : UInt8} {amount : UInt64} {index : Nat}

/-- A depth that is not used up is counted down without wrapping around. -/
theorem toNat_sub_one_add_one (positive : 0 < depth.toNat) :
    (depth - 1).toNat + 1 = depth.toNat := by
  have bound := depth.toNat_lt
  rw [UInt8.toNat_sub, UInt8.toNat_one]
  omega

/-- The next instruction is the one that is a hop away. -/
theorem nextHop?_eq_some_iff : instruction.nextHop? = some next ↔ Hop instruction next := by
  constructor
  · intro hop
    cases instruction with
    | helloWorld => cases hop
    | incrementNumber amount => cases hop
    | recurseThenIncrementNumber depth amount =>
        rw [nextHop?] at hop
        split at hop
        · next zero =>
            cases hop
            rw [zero]
            exact .increment
        · next nonzero =>
            cases hop
            refine .countDown (toNat_sub_one_add_one (Nat.pos_of_ne_zero fun zero => nonzero ?_))
            exact UInt8.toNat_inj.mp zero
  · intro hop
    cases hop with
    | increment => rfl
    | @countDown depth left amount less =>
        have positive : 0 < depth.toNat := Nat.lt_of_lt_of_eq left.toNat.succ_pos less
        have nonzero : depth ≠ 0 := by
          rintro rfl
          exact Nat.lt_irrefl 0 positive
        have counted : depth - 1 = left := UInt8.toNat_inj.mp
          (Nat.add_right_cancel ((toNat_sub_one_add_one positive).trans less.symm))
        rw [nextHop?, if_neg nonzero, counted]

/-- Where no instruction is next, no hop is made. -/
theorem hops_eq_nil (ends : instruction.nextHop? = none) : instruction.hops = [] := by
  rw [hops]
  split
  · rfl
  · next found =>
      rw [ends] at found
      cases found

/-- The hops of an instruction are the first one and those of the instruction it leads to. -/
theorem hops_eq_cons (hop : instruction.nextHop? = some next) :
    instruction.hops = next :: next.hops := by
  rw [hops]
  split
  · next ends =>
      rw [hop] at ends
      cases ends
  · next found =>
      rw [hop] at found
      cases found
      rfl

/-- One hop more goes on from where the others lead. -/
theorem hop?_succ (instruction : Instruction) (count : Nat) :
    instruction.hop? (count + 1) = (instruction.hop? count).bind nextHop? := by
  induction count generalizing instruction with
  | zero =>
      rw [hop?, hop?, Option.bind_some]
      exact Option.bind_fun_some _
  | succ count inductionHypothesis =>
      rw [hop?, hop?, Option.bind_assoc]
      simp only [inductionHypothesis]

/-- The listed hops are where single hops lead to, one after the other. -/
theorem getElem?_hops (instruction : Instruction) (index : Nat) :
    instruction.hops[index]? = instruction.hop? (index + 1) := by
  induction instruction using hops.induct generalizing index with
  | case1 instruction ends =>
      rw [hops_eq_nil ends, hop?, ends]
      rfl
  | case2 instruction next hop inductionHypothesis =>
      rw [hops_eq_cons hop, hop?, hop, Option.bind_some]
      cases index with
      | zero => rfl
      | succ index => exact inductionHypothesis index

/-- A hop leaves one hop less to go. -/
theorem Hop.hopCount_eq (hop : Hop instruction next) :
    instruction.hopCount = next.hopCount + 1 := by
  cases hop with
  | countDown less => rw [hopCount, hopCount, less]
  | increment => rfl

/-- An instruction without a hop is no recursion. -/
theorem hopCount_eq_zero (ends : instruction.nextHop? = none) : instruction.hopCount = 0 := by
  cases instruction with
  | helloWorld => rfl
  | incrementNumber => rfl
  | recurseThenIncrementNumber depth amount =>
      rw [nextHop?] at ends
      split at ends <;> cases ends

/-- There are as many hops as the instruction counts. -/
theorem length_hops (instruction : Instruction) :
    instruction.hops.length = instruction.hopCount := by
  induction instruction using hops.induct with
  | case1 instruction ends => rw [hops_eq_nil ends, hopCount_eq_zero ends, List.length_nil]
  | case2 instruction next hop inductionHypothesis =>
      rw [hops_eq_cons hop, List.length_cons, inductionHypothesis,
        (nextHop?_eq_some_iff.mp hop).hopCount_eq]

/-- As long as the depth lasts, hops lead to a recursion with as much less depth. -/
theorem exists_hop?_eq_recursion (depth : UInt8) (amount : UInt64) (lasts : index ≤ depth.toNat) :
    ∃ left : UInt8, left.toNat + index = depth.toNat ∧
      (recurseThenIncrementNumber depth amount).hop? index =
        some (recurseThenIncrementNumber left amount) := by
  induction index with
  | zero => exact ⟨depth, rfl, rfl⟩
  | succ index inductionHypothesis =>
      obtain ⟨current, remaining, reached⟩ := inductionHypothesis (Nat.le_of_succ_le lasts)
      have less := toNat_sub_one_add_one (show 0 < current.toNat by omega)
      refine ⟨current - 1, by omega, ?_⟩
      rw [hop?_succ, reached, Option.bind_some, nextHop?_eq_some_iff]
      exact .countDown less

/-- As many hops as the depth counts use it up. -/
theorem hop?_depth (depth : UInt8) (amount : UInt64) :
    (recurseThenIncrementNumber depth amount).hop? depth.toNat =
      some (recurseThenIncrementNumber 0 amount) := by
  obtain ⟨left, remaining, reached⟩ :=
    exists_hop?_eq_recursion depth amount (Nat.le_refl depth.toNat)
  have used : left = 0 := UInt8.toNat_inj.mp (Nat.add_eq_right.mp remaining)
  rwa [used] at reached

end Steps

/-- A recursion is written as its tag, its depth and its amount. -/
theorem encode_recursion (depth : UInt8) (amount : UInt64) :
    Typed.encode (recurseThenIncrementNumber depth amount) =
      .ok (2 :: depth :: LittleEndian.encode 8 amount.toNat) := by
  have shown : Typed.encode (recurseThenIncrementNumber depth amount) =
      .ok (2 :: UInt8.ofNat depth.toNat :: LittleEndian.encode 8 amount.toNat) := rfl
  rw [shown, UInt8.ofNat_toNat]

/-- An increment is written as its tag and its amount. -/
theorem encode_increment (amount : UInt64) :
    Typed.encode (incrementNumber amount) = .ok (1 :: LittleEndian.encode 8 amount.toNat) := rfl

/-- A hop that counts down changes the depth on the wire and nothing else. -/
theorem onWire_countDown {depth left : UInt8} (less : left.toNat + 1 = depth.toNat)
    (amount : UInt64) :
    OnWire (CountsDepthDown left) (recurseThenIncrementNumber depth amount)
      (recurseThenIncrementNumber left amount) :=
  ⟨_, _, encode_recursion depth amount, encode_recursion left amount,
    2, depth, _, less.symm, rfl, rfl⟩

/-- The last hop changes the tag on the wire and drops the depth. -/
theorem onWire_increment (amount : UInt64) :
    OnWire DropsDepth (recurseThenIncrementNumber 0 amount) (incrementNumber amount) :=
  ⟨_, _, encode_recursion 0 amount, encode_increment amount, 2, 1, _, by decide, rfl, rfl⟩

/-- Hops end, and those of a recursion count its depth down and end in one increment. -/
structure EndInOneIncrement : Prop where
  /-- From every instruction hops come to an end. -/
  terminates : ∀ instruction : Instruction, ∃ count, instruction.hop? count = none
  /-- Until then they are listed in order. -/
  listed : ∀ (instruction : Instruction) index,
    instruction.hops[index]? = instruction.hop? (index + 1)
  /-- Only a recursion has a hop at all. -/
  standing : helloWorld.hops = [] ∧ ∀ amount, (incrementNumber amount).hops = []
  /-- A recursion has one hop more than its depth. -/
  length_hops : ∀ depth amount,
    (recurseThenIncrementNumber depth amount).hops.length = depth.toNat + 1
  /-- Every hop but the last one leads to the recursion with one less depth, never less than zero,
  and changes nothing but the depth in the encoding. -/
  counted : ∀ depth amount index, index < depth.toNat → ∃ before left,
    left.toNat + (index + 1) = depth.toNat ∧
      (recurseThenIncrementNumber depth amount).hop? index = some before ∧
      (recurseThenIncrementNumber depth amount).hop? (index + 1) =
        some (recurseThenIncrementNumber left amount) ∧
      OnWire (CountsDepthDown left) before (recurseThenIncrementNumber left amount)
  /-- The last hop leads to the increment, drops the depth from the encoding and changes the
  tag. -/
  last : ∀ depth amount, ∃ before,
    (recurseThenIncrementNumber depth amount).hop? depth.toNat = some before ∧
      (recurseThenIncrementNumber depth amount).hop? (depth.toNat + 1) =
        some (incrementNumber amount) ∧
      OnWire DropsDepth before (incrementNumber amount)

/-- Hops of any instruction end, and those of a recursion end in an increment. -/
theorem endInOneIncrement : EndInOneIncrement where
  terminates := by
    intro instruction
    refine ⟨instruction.hops.length + 1, ?_⟩
    rw [← getElem?_hops]
    exact List.getElem?_eq_none (Nat.le_refl _)
  listed := getElem?_hops
  standing := ⟨hops_eq_nil rfl, fun _ => hops_eq_nil rfl⟩
  length_hops := fun depth amount => length_hops (recurseThenIncrementNumber depth amount)
  counted := by
    intro depth amount index lasts
    obtain ⟨before, earlier, reached⟩ :=
      exists_hop?_eq_recursion depth amount (Nat.le_of_lt lasts)
    obtain ⟨left, remaining, next⟩ := exists_hop?_eq_recursion depth amount lasts
    exact ⟨_, left, remaining, reached, next, onWire_countDown (by omega) amount⟩
  last := by
    intro depth amount
    refine ⟨_, hop?_depth depth amount, ?_, onWire_increment amount⟩
    rw [hop?_succ, hop?_depth, Option.bind_some, nextHop?_eq_some_iff]
    exact .increment

end FixedLayout.TestProgram.Instruction
