import FixedLayout.Error

/-!
# Layouts

A layout is the whole wire contract of a type. The order of the fields is the
order of their bytes, and the position of a variant is its discriminant byte. A
layout is plain data: nothing here requires its names to be distinct.
-/

namespace FixedLayout

/-- A named field. -/
structure Field where
  name : String
  type : FieldType
  deriving DecidableEq

/-- A variant of an enum; without a payload it is its discriminant alone. -/
structure Variant where
  name : String
  payload : Option (List Field)
  deriving DecidableEq

/-- A fixed list of fields with nothing between them. -/
structure StructLayout where
  name : String
  fields : List Field
  deriving DecidableEq

/-- A choice of one variant. -/
structure EnumLayout where
  name : String
  variants : List Variant
  deriving DecidableEq

/-- The layout of a type. -/
inductive Layout where
  | struct (declared : StructLayout)
  | enum (declared : EnumLayout)
  deriving DecidableEq

namespace Layout

/-- The name of the type. -/
def name : Layout → String
  | struct declared => declared.name
  | enum declared => declared.name

/-- The kind of the type. -/
def kind : Layout → Kind
  | struct _ => .struct
  | enum _ => .enum

end Layout

namespace EnumLayout

/-- The greatest number of variants that one discriminant byte tells apart. -/
def greatestCount : Nat := 256

/-- The discriminant of the first variant with the given name. A variant declared
too far back for one byte has none. -/
def tag? (declared : EnumLayout) (name : String) : Option UInt8 :=
  match declared.variants.findIdx? fun variant => variant.name == name with
  | none => none
  | some index => if index < greatestCount then some (UInt8.ofNat index) else none

/-- The variant with the given discriminant. -/
def variantAt? (declared : EnumLayout) (tag : UInt8) : Option Variant :=
  declared.variants[tag.toNat]?

/-- The variant with the given name, together with its discriminant. -/
def find (declared : EnumLayout) (name : String) : Except LayoutError (UInt8 × Variant) :=
  match declared.tag? name with
  | none => .error (.unknownVariant declared.name name)
  | some tag =>
      match declared.variantAt? tag with
      | none => .error (.unknownVariant declared.name name)
      | some variant => .ok (tag, variant)

/-- How messages name a variant as the owner of fields. -/
def ownerName (declared : EnumLayout) (variant : Variant) : String :=
  declared.name ++ "::" ++ variant.name

end EnumLayout

end FixedLayout
