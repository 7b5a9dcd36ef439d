import FixedLayout.Bytes.Output
import FixedLayout.Layout.Size

/-!
# Encoding

A struct is written field by field in declaration order, an enum as its
discriminant byte and then its payload. Everything that can fail is checked before
the first byte is written. Writing carries the output along, so what a failure
leaves behind is visible.
-/

namespace FixedLayout

/-- A computation that writes to an output and may fail; the output survives a failure. -/
abbrev Writing (Result : Type) : Type := ExceptT LayoutError (StateM Output) Result

/-- The outcome of a writing and the output it leaves. -/
def Writing.perform {Result : Type} (writing : Writing Result) (output : Output) :
    Except LayoutError Result × Output :=
  writing.run.run output

namespace Entries

/-- Checks that the first entry under a declared field is there and has its type. -/
def checkField (entries : Entries) (owner : String) (field : Field) : Except LayoutError Unit := do
  let _ ← entries.require field.type owner field.name
  pure ()

/-- The first entry whose name is not declared. -/
def undeclared? (entries : Entries) (fields : List Field) : Option (String × Word) :=
  entries.find? fun entry => fields.all fun field => field.name != entry.1

/-- Checks entries against the declared fields: every field in order first, then
the names of the entries in order. -/
def check (entries : Entries) (owner : String) (fields : List Field) :
    Except LayoutError Unit := do
  fields.forM (entries.checkField owner)
  match entries.undeclared? fields with
  | none => pure ()
  | some (name, _) => throw (.unknownField owner name)

end Entries

/-- Writes the first entry under each declared field, in declaration order. -/
def Output.putFields (output : Output) (fields : List Field) (entries : Entries) : Output :=
  fields.foldl
    (fun output field =>
      match entries.lookup field.name with
      | some word => output.putWord word
      | none => output)
    output

/-- Checks the entries of a struct and writes them. -/
def StructLayout.write (declared : StructLayout) (entries : Entries) : Writing Unit := do
  ofExcept (entries.check declared.name declared.fields)
  modify fun output => output.putFields declared.fields entries

/-- Writes the chosen variant of an enum: its discriminant, then its payload. -/
def EnumLayout.write (declared : EnumLayout) (name : String) (payload : Option Entries) :
    Writing Unit := do
  let (tag, variant) ← ofExcept (declared.find name)
  match variant.payload, payload with
  | none, none => modify fun output => output.putByte tag
  | some fields, some entries =>
      ofExcept (entries.check (declared.ownerName variant) fields)
      modify fun output => (output.putByte tag).putFields fields entries
  | none, some _ => throw (.unexpectedPayload declared.name variant.name)
  | some _, none => throw (.missingPayload declared.name variant.name)

namespace Layout

/-- Writes a value under a layout of its kind. -/
def write (layout : Layout) (value : Value) : Writing Unit :=
  match layout, value with
  | struct declared, .struct entries => declared.write entries
  | enum declared, .enum variant payload => declared.write variant payload
  | layout, _ => throw (.kindMismatch layout.name layout.kind)

/-- Measures a value and writes it behind what the output holds. -/
def encodeInto (layout : Layout) (value : Value) : Writing Unit := do
  let _ ← ofExcept (layout.encodedLength value)
  layout.write value

/-- The encoding of a value. -/
def encode (layout : Layout) (value : Value) : Except LayoutError (List UInt8) :=
  match (layout.encodeInto value).perform Output.empty with
  | (.ok _, output) => .ok output.bytes
  | (.error error, _) => .error error

end Layout

end FixedLayout
