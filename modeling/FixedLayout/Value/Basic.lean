import FixedLayout.Error

/-!
# Values

A value pairs names with words and need not match any layout. Names may repeat;
looking one up finds its first entry.
-/

namespace FixedLayout

/-- Named words, in order. -/
abbrev Entries : Type := List (String × Word)

/-- A value: the entries of a struct, or a variant of an enum with the entries of
its payload if it carries one. -/
inductive Value where
  | struct (entries : Entries)
  | enum (variant : String) (payload : Option Entries)
  deriving DecidableEq

/-- The word under `field`, which must be there and have the given type. -/
def Entries.require (entries : Entries) (type : FieldType) (owner field : String) :
    Except LayoutError Word :=
  match entries.lookup field with
  | none => .error (.missingField owner field)
  | some word =>
      if word.type = type then .ok word
      else .error (.fieldTypeMismatch owner field type word.type)

namespace Value

/-- The kind of a value. -/
def kind : Value → Kind
  | struct _ => .struct
  | enum _ _ => .enum

/-- The entries of a struct value. -/
def asStruct? : Value → Option Entries
  | struct entries => some entries
  | enum _ _ => none

/-- The variant and the payload of an enum value. -/
def asEnum? : Value → Option (String × Option Entries)
  | struct _ => none
  | enum variant payload => some (variant, payload)

/-- The entries of a value that has to be a struct of the given type. -/
def toStruct (type : String) : Value → Except LayoutError Entries
  | struct entries => .ok entries
  | enum _ _ => .error (.kindMismatch type .struct)

/-- The variant and the payload of a value that has to be an enum of the given type. -/
def toEnum (type : String) : Value → Except LayoutError (String × Option Entries)
  | struct _ => .error (.kindMismatch type .enum)
  | enum variant payload => .ok (variant, payload)

end Value

end FixedLayout
