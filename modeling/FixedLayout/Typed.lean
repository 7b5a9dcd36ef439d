import FixedLayout.Codec.Decode
import FixedLayout.Codec.Encode

/-!
# Typed values

A type takes part in the codec by its layout and by conversions to and from
values. The bytes are the work of the codec alone.
-/

namespace FixedLayout

/-- A type with a layout. -/
class Typed (α : Type) where
  layout : Layout
  toValue : α → Value
  ofValue : Value → Except LayoutError α

namespace Typed

variable {α : Type} [Typed α]

/-- The encoding of a typed value. -/
def encode (item : α) : Except LayoutError (List UInt8) :=
  (layout α).encode (toValue item)

/-- The typed value at the front of some bytes, and the bytes after it. -/
def decode (data : List UInt8) : Except LayoutError (α × List UInt8) := do
  let (value, rest) ← (layout α).decode data
  let item ← ofValue value
  pure (item, rest)

/-- The typed value whose encoding is all of the bytes. -/
def decodeExact (data : List UInt8) : Except LayoutError α := do
  let value ← (layout α).decodeExact data
  ofValue value

/-- The width of a typed value, or of one of its variants. -/
def sizeOf (α : Type) [Typed α] (variant : Option String) : Except LayoutError Nat :=
  (layout α).sizeOf variant

end Typed

end FixedLayout
