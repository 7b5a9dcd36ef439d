import FixedLayout.Layout.Size

/-!
# Sizes of fields and variants

The size of some fields splits with the list of them, and the size of a variant is
its discriminant and the size of its fields if it carries any.
-/

namespace FixedLayout

@[simp] theorem fieldsSize_nil : fieldsSize [] = 0 := rfl

@[simp] theorem fieldsSize_cons (field : Field) (fields : List Field) :
    fieldsSize (field :: fields) = field.type.width + fieldsSize fields := rfl

/-- Fields that follow others add their width. -/
@[simp] theorem fieldsSize_append (front back : List Field) :
    fieldsSize (front ++ back) = fieldsSize front + fieldsSize back := by
  induction front with
  | nil => simp
  | cons field front inductionHypothesis => simp [inductionHypothesis, Nat.add_assoc]

namespace Variant

/-- A variant without payload is as wide as its discriminant. -/
theorem size_of_bare {variant : Variant} (bare : variant.payload = none) :
    variant.size = discriminantSize := by
  simp [size, bare]

/-- The fields of a payload add their width to that of the discriminant. -/
theorem size_of_payload {variant : Variant} {fields : List Field}
    (carries : variant.payload = some fields) :
    variant.size = discriminantSize + fieldsSize fields := by
  simp [size, carries]

/-- No variant is narrower than its discriminant. -/
theorem discriminantSize_le (variant : Variant) : discriminantSize ≤ variant.size :=
  Nat.le_add_right _ _

end Variant

end FixedLayout
