import FixedLayout.Json.Basic
import FixedLayout.Registry.Basic
import FixedLayout.Registry.Shape

/-!
# Layouts as JSON trees

A layout is written as an object with a `kind`, a `name` and its parts. It is read
from such an object with its keys in any order and other keys ignored, or from an
array of the same parts in order. A reader looks at parts one after the other and
reports the first fault it meets.
-/

namespace FixedLayout.Registry

/-- The result of reading a part of a tree. -/
abbrev Shaped (Result : Type) : Type := Except ShapeFault Result

/-- A name. -/
def readName : Json → Shaped String
  | .string name => .ok name
  | tree => .error (.wrongType (.ofJson tree) .string)

/-- A list of parts. -/
def readList {Result : Type} (readPart : Json → Shaped Result) : Json → Shaped (List Result)
  | .array elements => elements.mapM readPart
  | tree => .error (.wrongType (.ofJson tree) .sequence)

/-- A list of parts that may be absent. -/
def readOptionalList {Result : Type} (readPart : Json → Shaped Result) :
    Json → Shaped (Option (List Result))
  | .null => .ok none
  | tree => (readList readPart tree).map some

/-- The type with the given name. -/
def readTypeName (name : String) : Shaped FieldType :=
  match FieldType.ofName? name with
  | some type => .ok type
  | none => .error (.unknownType name)

/-- What stands under the name of a type: nothing, in either form. -/
def readUnit : Json → Shaped Unit
  | .null => .ok ()
  | .object [] => .ok ()
  | tree => .error (.wrongType (.ofJson tree) .unit)

/-- A type: its name, or an object with nothing under that name. -/
def readType : Json → Shaped FieldType
  | .string name => readTypeName name
  | .object [(name, content)] => do
      let type ← readTypeName name
      readUnit content
      pure type
  | .object _ => .error .notOneKey
  | tree => .error (.wrongType (.ofJson tree) .type)

/-- How a part with a name and one more component is read. The component stands
under `key`; where it may be absent it has a default. -/
structure PartReader (Component : Type) where
  part : Part
  key : String
  component : Json → Shaped Component
  absent : Option Component

namespace PartReader

variable {Component : Type}

/-- The name and the component found so far, after one more member of an object. -/
def readMember (reader : PartReader Component) (found : Option String × Option Component)
    (member : String × Json) : Shaped (Option String × Option Component) :=
  if member.1 = "name" then
    match found.1 with
    | some _ => .error (.repeatedKey "name")
    | none => (readName member.2).map fun name => (some name, found.2)
  else if member.1 = reader.key then
    match found.2 with
    | some _ => .error (.repeatedKey reader.key)
    | none => (reader.component member.2).map fun component => (found.1, some component)
  else .ok found

/-- The part that the members of an object describe. -/
def ofMembers (reader : PartReader Component) (members : List (String × Json)) :
    Shaped (String × Component) := do
  let found ← members.foldlM reader.readMember (none, none)
  match found with
  | (none, _) => throw (.missingKey "name")
  | (some name, some component) => pure (name, component)
  | (some name, none) =>
      match reader.absent with
      | some component => pure (name, component)
      | none => throw (.missingKey reader.key)

/-- The part whose components are the elements of an array. -/
def ofElements (reader : PartReader Component) : List Json → Shaped (String × Component)
  | [] => .error (.tooShort 0 reader.part)
  | [first] => do
      let name ← readName first
      match reader.absent with
      | some component => pure (name, component)
      | none => throw (.tooShort 1 reader.part)
  | [first, second] => do
      let name ← readName first
      let component ← reader.component second
      pure (name, component)
  | first :: second :: others => do
      let _ ← readName first
      let _ ← reader.component second
      throw (.tooLong (others.length + 2))

/-- The part that a tree describes in either form. -/
def read (reader : PartReader Component) : Json → Shaped (String × Component)
  | .object members => reader.ofMembers members
  | .array elements => reader.ofElements elements
  | tree => .error (.wrongType (.ofJson tree) (.part reader.part))

end PartReader

/-- Fields have a name and a type. -/
def fieldReader : PartReader FieldType := ⟨.field, "type", readType, none⟩

/-- A field. -/
def readField (tree : Json) : Shaped Field := do
  let (name, type) ← fieldReader.read tree
  pure ⟨name, type⟩

/-- Variants have a name and perhaps fields. -/
def variantReader : PartReader (Option (List Field)) :=
  ⟨.variant, "fields", readOptionalList readField, some none⟩

/-- A variant. -/
def readVariant (tree : Json) : Shaped Variant := do
  let (name, payload) ← variantReader.read tree
  pure ⟨name, payload⟩

/-- Structs have a name and fields, by default none. -/
def structReader : PartReader (List Field) := ⟨.struct, "fields", readList readField, some []⟩

/-- Enums have a name and variants. -/
def enumReader : PartReader (List Variant) := ⟨.enum, "variants", readList readVariant, none⟩

/-- The layout of the given kind that a tree without its kind describes. -/
def readBody (kind : Kind) (tree : Json) : Shaped Layout :=
  match kind with
  | .struct => do
      let (name, fields) ← structReader.read tree
      pure (.struct ⟨name, fields⟩)
  | .enum => do
      let (name, variants) ← enumReader.read tree
      pure (.enum ⟨name, variants⟩)

/-- A kind. -/
def readKind : Json → Shaped Kind
  | .string name =>
      match Kind.ofName? name with
      | some kind => .ok kind
      | none => .error (.unknownKind name)
  | tree => .error (.wrongType (.ofJson tree) .kind)

/-- The kind found so far, after one more member of an object. -/
def readKindMember (found : Option Kind) (member : String × Json) : Shaped (Option Kind) :=
  if member.1 = "kind" then
    match found with
    | some _ => .error (.repeatedKey "kind")
    | none => (readKind member.2).map some
  else .ok found

/-- The kind among some members, which must be complete up to the last. -/
def kindOfMembers (members : List (String × Json)) : Shaped (Option Kind) :=
  members.foldlM readKindMember none

/-- A layout. Its kind is found before anything else is looked at. -/
def readLayout : Json → Shaped Layout
  | .object members => do
      match ← kindOfMembers members with
      | none => throw (.missingKey "kind")
      | some kind => readBody kind (.object (members.filter fun member => member.1 != "kind"))
  | .array [] => .error (.missingKey "kind")
  | .array (first :: others) => do
      let kind ← readKind first
      readBody kind (.array others)
  | tree => .error (.wrongType (.ofJson tree) .schema)

/-- A list of layouts. -/
def readLayouts (tree : Json) : Shaped (List Layout) := readList readLayout tree

/-- A field as a tree. -/
def fieldTree (field : Field) : Json :=
  .object [("name", .string field.name), ("type", .string field.type.name)]

/-- A list of fields as a tree. -/
def fieldsTree (fields : List Field) : Json := .array (fields.map fieldTree)

/-- A variant as a tree; without a payload it has no fields. -/
def variantTree (variant : Variant) : Json :=
  .object
    (("name", .string variant.name) ::
      match variant.payload with
      | none => []
      | some fields => [("fields", fieldsTree fields)])

/-- A layout as a tree. -/
def layoutTree : Layout → Json
  | .struct declared =>
      .object
        [("kind", .string Kind.struct.name), ("name", .string declared.name),
          ("fields", fieldsTree declared.fields)]
  | .enum declared =>
      .object
        [("kind", .string Kind.enum.name), ("name", .string declared.name),
          ("variants", .array (declared.variants.map variantTree))]

/-- The layouts of a registry as a tree, in the order of registration. -/
def tree (registry : Registry) : Json := .array (registry.layouts.map layoutTree)

end FixedLayout.Registry
