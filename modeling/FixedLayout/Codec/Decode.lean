import FixedLayout.Bytes.Cursor
import FixedLayout.Layout.Size

/-!
# Decoding

The whole width of a record is checked before its first field is read, so a failed
read leaves the cursor at the start of the record. A short input is reported with
counts from that start.
-/

namespace FixedLayout

/-- A short read inside a record of which some bytes were already read. -/
def truncated (type : String) (alreadyRead : Nat) (failure : EndOfInput) : LayoutError :=
  .truncatedInput type (alreadyRead + failure.needed) (alreadyRead + failure.available)

/-- A reading inside a record, with short reads reported as a short record. -/
def withinRecord {Result : Type} (type : String) (alreadyRead : Nat)
    (reading : Reading EndOfInput Result) : Reading LayoutError Result :=
  ExceptT.adapt (truncated type alreadyRead) reading

/-- Reads fields in declaration order. -/
def readFields (type : String) : Nat → List Field → Reading LayoutError Entries
  | _, [] => pure []
  | alreadyRead, field :: fields => do
      let word ← withinRecord type alreadyRead (Cursor.word field.type)
      let entries ← readFields type (alreadyRead + field.type.width) fields
      pure ((field.name, word) :: entries)

/-- Reads a struct. -/
def StructLayout.read (declared : StructLayout) : Reading LayoutError Entries := do
  withinRecord declared.name 0 (Cursor.ensure declared.size)
  readFields declared.name 0 declared.fields

/-- Reads an enum: its discriminant, then the payload of the variant it selects. -/
def EnumLayout.read (declared : EnumLayout) : Reading LayoutError (String × Option Entries) := do
  let tag ← withinRecord declared.name 0 Cursor.peek
  match declared.variantAt? tag with
  | none => throw (.unknownDiscriminant declared.name tag)
  | some variant =>
      withinRecord declared.name 0 (Cursor.ensure variant.size)
      withinRecord declared.name 0 (Cursor.skip discriminantSize)
      match variant.payload with
      | none => pure (variant.name, none)
      | some fields => do
          let entries ← readFields declared.name 0 fields
          pure (variant.name, some entries)

namespace Layout

/-- Reads a value of the kind of the layout. -/
def read : Layout → Reading LayoutError Value
  | struct declared => do
      let entries ← declared.read
      pure (.struct entries)
  | enum declared => do
      let (variant, payload) ← declared.read
      pure (.enum variant payload)

/-- The value at the front of some bytes, and the bytes after it. -/
def decode (layout : Layout) (data : List UInt8) : Except LayoutError (Value × List UInt8) :=
  match layout.read.perform (Cursor.start data) with
  | (.ok value, cursor) => .ok (value, cursor.rest)
  | (.error error, _) => .error error

/-- The value whose encoding is all of the bytes. -/
def decodeExact (layout : Layout) (data : List UInt8) : Except LayoutError Value := do
  let (value, rest) ← layout.decode data
  if rest.isEmpty then pure value else throw (.trailingBytes layout.name rest.length)

end Layout

end FixedLayout
