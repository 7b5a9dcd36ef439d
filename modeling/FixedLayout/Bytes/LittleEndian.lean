import FixedLayout.Power

/-!
# Little-endian integers

A natural number is written as a fixed count of bytes, least significant byte
first. Numbers too large for the count lose their high part, so callers state
the bound `n < 256 ^ width` where they need the number back.
-/

namespace FixedLayout.LittleEndian

/-- The lowest `width` bytes of `n`, least significant first. -/
def encode : Nat → Nat → List UInt8
  | 0, _ => []
  | width + 1, n => UInt8.ofNat n :: encode width (n / 256)

/-- The number whose bytes, least significant first, are given. -/
def decode : List UInt8 → Nat
  | [] => 0
  | byte :: rest => byte.toNat + 256 * decode rest

/-- Exactly `width` bytes are written. -/
@[simp] theorem length_encode (width n : Nat) : (encode width n).length = width := by
  induction width generalizing n with
  | zero => rfl
  | succ width inductionHypothesis => simp [encode, inductionHypothesis]

/-- A number read from some bytes fits in as many bytes. -/
theorem decode_lt (bytes : List UInt8) : decode bytes < 256 ^ bytes.length := by
  induction bytes with
  | nil => simp [decode]
  | cons byte rest inductionHypothesis =>
      have small : byte.toNat < 256 := byte.toNat_lt
      simp only [decode, List.length_cons, Nat.pow_succ]
      omega

end FixedLayout.LittleEndian
