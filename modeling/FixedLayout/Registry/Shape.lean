import FixedLayout.Binary64.Shortest
import FixedLayout.Json.Basic
import FixedLayout.Text.Quotation

/-!
# Faults of shape

A registry text may be well-formed JSON and still not have the shape of a list of
schemas. A fault names what was found and what was wanted in its place.
-/

namespace FixedLayout.Registry

/-- What stands in a wrong place of a registry text. -/
inductive Found where
  | null
  | boolean (value : Bool)
  | integer (value : Int)
  | decimal (value : Binary64)
  | string (value : String)
  | sequence
  | map
  deriving DecidableEq

namespace Found

/-- What a tree is found to be. -/
def ofJson : Json → Found
  | .null => null
  | .bool value => boolean value
  | .number (.unsigned value) => integer value.toNat
  | .number (.negative magnitude) => integer (-magnitude)
  | .number (.binary value) => decimal value
  | .string value => string value
  | .array _ => sequence
  | .object _ => map

/-- How a message names what was found. -/
def describe : Found → String
  | null => "null"
  | boolean value => "boolean `" ++ toString value ++ "`"
  | integer value => "integer `" ++ toString value ++ "`"
  | decimal value => "floating point `" ++ value.text ++ "`"
  | string value => "string " ++ Text.quotation value
  | sequence => "sequence"
  | map => "map"

end Found

/-- The parts of a registry that are written as an object or as an array of two. -/
inductive Part where
  | field
  | variant
  | struct
  | enum
  deriving DecidableEq

/-- How a message names a part. -/
def Part.describe : Part → String
  | field => "struct FieldDef"
  | variant => "struct VariantDef"
  | struct => "struct StructSchema"
  | enum => "struct EnumSchema"

/-- What was wanted in a place. -/
inductive Wanted where
  | sequence
  | string
  | schema
  | kind
  | type
  | unit
  | part (entry : Part)
  deriving DecidableEq

/-- How a message names what was wanted. -/
def Wanted.describe : Wanted → String
  | sequence => "a sequence"
  | string => "a string"
  | schema => "internally tagged enum Schema"
  | kind => "variant identifier"
  | type => "string or map"
  | unit => "unit"
  | part entry => entry.describe

/-- A place at which a tree does not have the shape of a registry. -/
inductive ShapeFault where
  | wrongType (found : Found) (wanted : Wanted)
  | tooShort (length : Nat) (part : Part)
  | tooLong (length : Nat)
  | missingKey (key : String)
  | repeatedKey (key : String)
  | unknownKind (name : String)
  | unknownType (name : String)
  | notOneKey
  deriving DecidableEq

/-- The text of a fault. -/
def ShapeFault.message : ShapeFault → String
  | wrongType found wanted =>
      "invalid type: " ++ found.describe ++ ", expected " ++ wanted.describe
  | tooShort length part =>
      "invalid length " ++ toString length ++ ", expected " ++ part.describe ++ " with 2 elements"
  | tooLong length => "invalid length " ++ toString length ++ ", expected 2 elements in sequence"
  | missingKey key => "missing field `" ++ key ++ "`"
  | repeatedKey key => "duplicate field `" ++ key ++ "`"
  | unknownKind name => "unknown variant `" ++ name ++ "`, expected `struct` or `enum`"
  | unknownType name =>
      "unknown variant `" ++ name ++ "`, expected one of `u8`, `u16`, `u32`, `u64`, `u128`"
  | notOneKey => "invalid value: map, expected map with a single key"

end FixedLayout.Registry
