import FixedLayout.Layout.Size
import FixedLayout.Registry.Basic

/-!
# Size tables

A size table holds the widths of every type and variant of a registry, so that a
width is looked up by name alone. Both kinds of names are keys of a map: of a
repeated one the last width counts.
-/

namespace FixedLayout

/-- The widths of one type. -/
inductive TypeSizes where
  | struct (size : Nat)
  | enum (variants : List (String × Nat)) (greatest : Nat)

/-- The widths of a layout. -/
def TypeSizes.ofLayout : Layout → TypeSizes
  | .struct declared => struct declared.size
  | .enum declared =>
      enum (Json.settleMembers (declared.variants.map fun variant => (variant.name, variant.size)))
        declared.greatestSize

/-- The widths of the types of a registry, by name. -/
structure SizeTable where
  types : List (String × TypeSizes)

namespace SizeTable

/-- The table of a registry. -/
def ofRegistry (registry : Registry) : SizeTable :=
  ⟨Json.settleMembers
    (registry.layouts.map fun layout => (layout.name, TypeSizes.ofLayout layout))⟩

/-- The width of a type, or of one of its variants. -/
def sizeOf (table : SizeTable) (type : String) (variant : Option String) :
    Except LayoutError Nat :=
  match table.types.lookup type, variant with
  | none, _ => .error (.unknownType type)
  | some (.struct size), _ => .ok size
  | some (.enum _ greatest), none => .ok greatest
  | some (.enum variants _), some name =>
      match variants.lookup name with
      | some size => .ok size
      | none => .error (.unknownVariant type name)

end SizeTable

end FixedLayout
