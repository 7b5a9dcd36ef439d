/-!
# Kinds

Layouts and values are of two kinds: structs, which are lists of fields, and
enums, which choose one of several variants.
-/

namespace FixedLayout

/-- The kind of a layout or of a value. -/
inductive Kind where
  | struct
  | enum
  deriving DecidableEq, Repr

namespace Kind

/-- The name of the kind in schema texts and messages. -/
def name : Kind → String
  | struct => "struct"
  | enum => "enum"

/-- The kind with the given name. -/
def ofName? (text : String) : Option Kind :=
  [struct, enum].find? fun kind => kind.name == text

end Kind

end FixedLayout
