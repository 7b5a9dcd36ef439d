import FixedLayout.Binary64.Basic

/-!
# Long integers as binary64 numbers

A natural number consists of limbs of 64 bits. One of a single limb is rounded as
it is. Of a longer one the leading 64 bits are rounded, after their last bit was
set if lower bits show that the number is greater. In each limb below the top one
only as many of the lowest bits are looked at as the top limb is wide, so a number
just above the middle of two neighbours may be taken for the middle.
-/

namespace FixedLayout.Binary64

/-- How many bits the top limb of a number has; a positive number has its highest
bit there. -/
def topWidth (value : Nat) : Nat := value.log2 % 64 + 1

/-- Whether one of the lowest `count` limbs has a bit among its lowest `width` ones. -/
def hasLowBits (width : Nat) : Nat → Nat → Bool
  | 0, _ => false
  | count + 1, value => value % 2 ^ width != 0 || hasLowBits width count (value / 2 ^ 64)

/-- The leading 64 bits of a number of several limbs, the last one set if the bits
below are seen to hold anything. -/
def leadingBits (value : Nat) : Nat :=
  let leading := value / 2 ^ (value.log2 - 63)
  if hasLowBits (topWidth value) (value.log2 / 64) value then leading ||| 1 else leading

/-- The number that a natural number of any length is rounded to, with the given sign. -/
def ofLimbs (negative : Bool) (value : Nat) : Binary64 :=
  if value < 2 ^ 64 then round negative value 1
  else roundScaled negative (leadingBits value) 1 (value.log2 - 63)

/-- The number that an integer of any length is rounded to. -/
def ofLongInt (value : Int) : Binary64 := ofLimbs (value < 0) value.natAbs

end FixedLayout.Binary64
