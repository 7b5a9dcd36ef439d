import FixedLayout.Layout.Basic

/-!
# Well-formed declarations

A declaration is well formed if its names tell its parts apart and its variants
fit one discriminant byte. Checking it reports the first fault: too many variants
before anything else, then the variants in order, each one's name before its
fields.
-/

namespace FixedLayout

/-- The first name that equals one before it, or one of those already seen. -/
def firstRepeat : List String → List String → Option String
  | _, [] => none
  | seen, name :: names => if name ∈ seen then some name else firstRepeat (name :: seen) names

/-- The first repeated field of an owner. -/
def fieldFault? (owner : String) (fields : List Field) : Option DeclarationFault :=
  (firstRepeat [] (fields.map Field.name)).map (.repeatedField owner)

namespace EnumLayout

/-- The first fault among variants, given the names of those before them. -/
def variantFault? (declared : EnumLayout) : List String → List Variant → Option DeclarationFault
  | _, [] => none
  | seen, variant :: variants =>
      if variant.name ∈ seen then some (.repeatedVariant declared.name variant.name)
      else
        match variant.payload.bind (fieldFault? (declared.ownerName variant)) with
        | some fault => some fault
        | none => variantFault? declared (variant.name :: seen) variants

/-- The first fault of an enum. -/
def fault? (declared : EnumLayout) : Option DeclarationFault :=
  if greatestCount < declared.variants.length then
    some (.tooManyVariants declared.name declared.variants.length)
  else variantFault? declared [] declared.variants

end EnumLayout

namespace Layout

/-- The first fault of a declaration. -/
def fault? : Layout → Option DeclarationFault
  | struct declared => fieldFault? declared.name declared.fields
  | enum declared => declared.fault?

/-- Refuses a declaration that has a fault. -/
def validate (layout : Layout) : Except LayoutError Unit :=
  match layout.fault? with
  | none => .ok ()
  | some fault => .error (.invalidSchema (.declaration fault))

end Layout

end FixedLayout
