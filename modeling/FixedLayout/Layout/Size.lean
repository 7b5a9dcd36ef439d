import FixedLayout.Layout.Basic
import FixedLayout.Value.Basic

/-!
# Encoded sizes

Sizes follow from layouts alone. The size of an enum without a chosen variant is
that of its largest one.
-/

namespace FixedLayout

/-- The width of the discriminant. -/
def discriminantSize : Nat := 1

/-- The sum of the widths of some fields. -/
def fieldsSize : List Field → Nat
  | [] => 0
  | field :: fields => field.type.width + fieldsSize fields

/-- The width of a variant: its discriminant and its payload. -/
def Variant.size (variant : Variant) : Nat :=
  discriminantSize + (variant.payload.map fieldsSize).getD 0

/-- The width of a struct. -/
def StructLayout.size (declared : StructLayout) : Nat := fieldsSize declared.fields

/-- The width of the largest variant, 0 if there is none. -/
def EnumLayout.greatestSize (declared : EnumLayout) : Nat :=
  (declared.variants.map Variant.size).max?.getD 0

namespace Layout

/-- The width of an encoding: of the chosen variant of an enum, of its largest one
if none is chosen. A struct has one width whatever is chosen. -/
def sizeOf (layout : Layout) (variant : Option String) : Except LayoutError Nat :=
  match layout, variant with
  | struct declared, _ => .ok declared.size
  | enum declared, none => .ok declared.greatestSize
  | enum declared, some name => do
      let (_, found) ← declared.find name
      pure found.size

/-- The width that the encoding of a value will have. Only the kind and the variant
of the value are looked at. -/
def encodedLength (layout : Layout) (value : Value) : Except LayoutError Nat :=
  match layout, value with
  | struct declared, .struct _ => .ok declared.size
  | enum declared, .enum variant _ => do
      let (_, found) ← declared.find variant
      pure found.size
  | layout, _ => .error (.kindMismatch layout.name layout.kind)

end Layout

end FixedLayout
