/-!
# Captured values

A captured value carries the time and the slot at which it was seen. A zero in
either stamp marks a value that was never populated, and such a value is never
fresh.
-/

namespace FixedLayout

/-- A value with the milliseconds and the slot of its capture. -/
structure Captured (α : Type) where
  value : α
  timestamp : UInt64
  slot : UInt64
  deriving DecidableEq

namespace Captured

variable {α β : Type}

/-- A value that was never populated. -/
def unpopulated (value : α) : Captured α := ⟨value, 0, 0⟩

/-- Whether both stamps are set. -/
def isPopulated (captured : Captured α) : Bool := captured.timestamp != 0 && captured.slot != 0

/-- The value, if it is populated and at most `tolerance` milliseconds old at `now`.
A capture stamped later than `now` has age zero. -/
def fresh? (captured : Captured α) (tolerance now : UInt64) : Option α :=
  if captured.isPopulated then
    if now.toNat - captured.timestamp.toNat ≤ tolerance.toNat then some captured.value else none
  else none

/-- The transformed value under the same stamps. -/
def map (transform : α → β) (captured : Captured α) : Captured β :=
  ⟨transform captured.value, captured.timestamp, captured.slot⟩

end Captured

end FixedLayout
