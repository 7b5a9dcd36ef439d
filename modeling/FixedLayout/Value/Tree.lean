import FixedLayout.Json.Printer
import FixedLayout.Layout.Basic
import FixedLayout.Value.Basic

/-!
# Values as JSON trees

A struct is an object keyed by field name. An enum is the bare name of a variant,
or an object with a `variant` and its `fields`. Integers below `2 ^ 64` are numbers
and greater ones strings of digits; a string of digits is read for any type. A
field that is absent is left out of the value, so that the encoder reports it.
-/

namespace FixedLayout

/-- Why a text is not a natural number below `2 ^ 128`. -/
inductive DigitsFault where
  | empty
  | invalidDigit
  | tooLarge
  deriving DecidableEq

/-- The text of a fault. -/
def DigitsFault.message : DigitsFault → String
  | empty => "cannot parse integer from empty string"
  | invalidDigit => "invalid digit found in string"
  | tooLarge => "number too large to fit in target type"

/-- Why a tree is not an integer of a field. -/
inductive IntegerFault where
  | notUnsigned (number : Json.Number)
  | digits (text : String) (fault : DigitsFault)
  | notInteger (tree : Json)
  | tooWide (value : Nat) (type : FieldType)

/-- The text of a fault. -/
def IntegerFault.message : IntegerFault → String
  | notUnsigned number => number.text ++ " is not an unsigned integer"
  | digits text fault => "`" ++ text ++ "` is not an unsigned integer: " ++ fault.message
  | notInteger tree => "expected an integer, found " ++ tree.compact
  | tooWide value type => toString value ++ " does not fit in " ++ type.name

/-- Why a tree is not a value of a layout. -/
inductive TreeFault where
  | notObject (type : String)
  | noVariantName (type : String)
  | notVariant (type : String)
  | fieldsNotObject (variant : String)
  | noFields (variant : String)
  | undeclaredField (owner field : String)
  | notField (owner field : String) (fault : IntegerFault)
  | layout (error : LayoutError)

/-- The text of a fault. -/
def TreeFault.message : TreeFault → String
  | notObject type => "`" ++ type ++ "` expects a JSON object"
  | noVariantName type => "`" ++ type ++ "` expects a `variant` name"
  | notVariant type => "`" ++ type ++ "` expects a variant name or object"
  | fieldsNotObject variant => "`" ++ variant ++ "` fields must be an object"
  | noFields variant => "variant `" ++ variant ++ "` carries no fields"
  | undeclaredField owner field => "`" ++ owner ++ "` has no field `" ++ field ++ "`"
  | notField owner field fault => "field `" ++ owner ++ "." ++ field ++ "`: " ++ fault.message
  | layout error => error.message

namespace Value

/-- The number that digits denote behind a number read before, one digit at a time.
The first fault from the left is reported. -/
def readDigits : Nat → List Char → Except DigitsFault Nat
  | value, [] => .ok value
  | value, digit :: digits =>
      if Json.Literal.isDigit digit then
        let next := 10 * value + Json.Literal.digitValue digit
        if next < 2 ^ 128 then readDigits next digits else .error .tooLarge
      else .error .invalidDigit

/-- The natural number that a text denotes: digits, perhaps behind a plus sign. -/
def readNatural : List Char → Except DigitsFault Nat
  | [] => .error .empty
  | ['+'] => .error .invalidDigit
  | '+' :: digits => readDigits 0 digits
  | digits => readDigits 0 digits

/-- The natural number that a tree denotes. -/
def readInteger : Json → Except IntegerFault Nat
  | .number (.unsigned value) => .ok value.toNat
  | .number number => .error (.notUnsigned number)
  | .string text =>
      match readNatural text.toList with
      | .ok value => .ok value
      | .error fault => .error (.digits text fault)
  | tree => .error (.notInteger tree)

/-- The word of the given type that a tree denotes. -/
def readWord (type : FieldType) (tree : Json) : Except IntegerFault Word := do
  let value ← readInteger tree
  match Word.ofNat? type value with
  | some word => pure word
  | none => throw (.tooWide value type)

/-- The words of the declared fields that are members of an object, in declaration
order. -/
def readDeclared (owner : String) (members : List (String × Json)) :
    List Field → Except TreeFault Entries
  | [] => .ok []
  | field :: fields =>
      match members.lookup field.name with
      | none => readDeclared owner members fields
      | some tree =>
          match readWord field.type tree with
          | .error fault => .error (.notField owner field.name fault)
          | .ok word => do
              let entries ← readDeclared owner members fields
              pure ((field.name, word) :: entries)

/-- The entries that the members of an object describe; every member must be a
declared field. -/
def readEntries (owner : String) (fields : List Field) (members : List (String × Json)) :
    Except TreeFault Entries :=
  match members.find? fun member => fields.all fun field => field.name != member.1 with
  | some (name, _) => .error (.undeclaredField owner name)
  | none => readDeclared owner members fields

/-- The name of a variant, and its fields if they are given. -/
def readVariantName (declared : EnumLayout) : Json → Except TreeFault (String × Option Json)
  | .string name => .ok (name, none)
  | .object members =>
      match members.lookup "variant" with
      | some (.string name) => .ok (name, members.lookup "fields")
      | _ => .error (.noVariantName declared.name)
  | _ => .error (.notVariant declared.name)

/-- The payload of a variant. A variant with a payload may be given without fields. -/
def readPayload (variant : String) :
    Option (List Field) → Option Json → Except TreeFault (Option Entries)
  | some fields, some (.object members) => (readEntries variant fields members).map some
  | some _, some _ => .error (.fieldsNotObject variant)
  | some _, none => .ok (some [])
  | none, some _ => .error (.noFields variant)
  | none, none => .ok none

/-- The value that a tree describes under a layout. Objects must not repeat a key. -/
def ofTree (layout : Layout) (tree : Json) : Except TreeFault Value :=
  match layout with
  | .struct declared =>
      match tree with
      | .object members => (readEntries declared.name declared.fields members).map .struct
      | _ => .error (.notObject declared.name)
  | .enum declared => do
      let (name, fields) ← readVariantName declared tree
      match declared.find name with
      | .error error => throw (.layout error)
      | .ok (_, variant) =>
          let payload ← readPayload name variant.payload fields
          pure (.enum name payload)

/-- Entries as an object; of a repeated name the last entry, at the first place. -/
def entriesTree (entries : Entries) : Json :=
  .object (Json.settleMembers (entries.map fun entry => (entry.1, Json.ofNat entry.2.value)))

/-- A value as a tree. -/
def toTree : Value → Json
  | struct entries => entriesTree entries
  | enum variant none => .object [("variant", .string variant)]
  | enum variant (some entries) =>
      .object [("variant", .string variant), ("fields", entriesTree entries)]

end Value

end FixedLayout
