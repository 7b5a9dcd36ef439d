import FixedLayout.Base64
import FixedLayout.Codec.Decode
import FixedLayout.Codec.Encode
import FixedLayout.CommandLine.Arguments
import FixedLayout.Registry.Text
import FixedLayout.SizeTable
import FixedLayout.TestProgram
import FixedLayout.Text.Blank
import FixedLayout.Value.Tree

/-!
# Commands

Each command answers with one text or one failure. The registry is loaded first,
then the type is looked up, then the given text is read, then the value is
converted. Nothing is answered of a command that fails on its way.
-/

namespace FixedLayout.CommandLine

/-- Why a file cannot be read. -/
inductive FileFault where
  | notFound
  | other (cause : String)
  deriving DecidableEq

/-- The text of a fault. -/
def FileFault.message : FileFault → String
  | notFound => "No such file or directory (os error 2)"
  | other cause => cause

/-- Why a command fails. -/
inductive Failure where
  | usage (fault : UsageFault)
  | unreadableFile (file : String) (fault : FileFault)
  | invalidRegistry (file : String) (error : LayoutError)
  | malformedValue
  | invalidBase64
  | zeroWidth (type : String)
  | tree (fault : TreeFault)
  | layout (error : LayoutError)

/-- The text of a failure. A failure of usage is reported with a help text instead. -/
def Failure.message : Failure → String
  | usage _ => ""
  | unreadableFile file fault => "read " ++ file ++ ": " ++ fault.message
  | invalidRegistry file error => "parse " ++ file ++ ": " ++ error.message
  | malformedValue => "parse --value: json syntax"
  | invalidBase64 => "decode --data as base64"
  | zeroWidth type => "`" ++ type ++ "` is zero bytes wide; cannot decode it repeatedly"
  | tree fault => fault.message
  | layout error => error.message

/-- The outcome of a part of a command. -/
abbrev Outcome (Result : Type) : Type := Except Failure Result

/-- The outcome of an operation on layouts. -/
def ofLayout {Result : Type} : Except LayoutError Result → Outcome Result
  | .ok result => .ok result
  | .error error => .error (.layout error)

/-- The registry of a file, whose content is read by `contentOf`, or the bundled one. -/
def loadRegistry (contentOf : String → Except FileFault String) : Option String → Outcome Registry
  | none => ofLayout TestProgram.registry
  | some file =>
      match contentOf file with
      | .error fault => .error (.unreadableFile file fault)
      | .ok text =>
          match Registry.ofText text with
          | .ok registry => .ok registry
          | .error error => .error (.invalidRegistry file error)

/-- A width as a tree. -/
def sizeTree (size : Nat) : Json := .number (.unsigned (UInt64.ofNat size))

/-- The widths of variants as members of an object. -/
def variantSizes (table : SizeTable) (type : String) (variants : List Variant) :
    Except LayoutError (List (String × Json)) :=
  variants.mapM fun variant => do
    let size ← table.sizeOf type (some variant.name)
    pure (variant.name, sizeTree size)

/-- The members that list the widths of the variants of an enum. -/
def variantMembers (table : SizeTable) : Layout → Except LayoutError (List (String × Json))
  | .struct _ => pure []
  | .enum declared => do
      let sizes ← variantSizes table declared.name declared.variants
      pure [("variant_sizes", .object (Json.settleMembers sizes))]

/-- The entry of a layout in the listing of a registry. -/
def listingEntry (table : SizeTable) (layout : Layout) : Except LayoutError Json := do
  let size ← table.sizeOf layout.name none
  let members ← variantMembers table layout
  pure
    (.object (("schema", Registry.layoutTree layout) :: ("size", sizeTree size) :: members))

/-- The layouts of a registry with their widths. -/
def listing (registry : Registry) : Except LayoutError Json := do
  let entries ← registry.layouts.mapM (listingEntry (SizeTable.ofRegistry registry))
  pure (.array entries)

/-- The width of a type or of one of its variants. -/
def sizeAnswer (registry : Registry) (type : String) (variant : Option String) :
    Outcome String := do
  let size ← ofLayout ((SizeTable.ofRegistry registry).sizeOf type variant)
  pure (toString size)

/-- The bytes of the value that a tree describes under a layout. -/
def encodeTree (layout : Layout) (tree : Json) : Outcome (List UInt8) :=
  match Value.ofTree layout tree with
  | .error (.layout error) => .error (.layout error)
  | .error fault => .error (.tree fault)
  | .ok value => ofLayout (layout.encode value)

/-- The encoding of a value given as JSON text, in base64. -/
def encodeAnswer (registry : Registry) (type text : String) : Outcome String := do
  let layout ← ofLayout (registry.get type)
  match Json.parse text with
  | .error _ => throw .malformedValue
  | .ok tree => do
      let bytes ← encodeTree layout tree.settle
      pure (String.ofList (Base64.encode bytes))

/-- The records that follow each other up to the end of the data. -/
def decodeRecords (layout : Layout) (data : List UInt8) : Outcome (List Value) :=
  match layout.decode data with
  | .error error => .error (.layout error)
  | .ok (value, rest) =>
      if _ : rest.length < data.length then
        if rest.isEmpty then .ok [value]
        else do
          let values ← decodeRecords layout rest
          pure (value :: values)
      else .error (.zeroWidth layout.name)
termination_by data.length

/-- The first record of the data, with the bytes after it. -/
def decodeFirst (layout : Layout) (data : List UInt8) : Outcome Json := do
  let (value, rest) ← ofLayout (layout.decode data)
  pure
    (.object
      [("value", value.toTree), ("remainder", .string (String.ofList (Base64.encode rest)))])

/-- The values of base64 data as JSON text. -/
def decodeAnswer (registry : Registry) (type text : String) (all : Bool) : Outcome String := do
  let layout ← ofLayout (registry.get type)
  match Base64.decode (Text.trim text.toList) with
  | none => throw .invalidBase64
  | some data =>
      if all then do
        let values ← decodeRecords layout data
        pure (Json.array (values.map Value.toTree)).pretty
      else do
        let tree ← decodeFirst layout data
        pure tree.pretty

/-- The answer of a command on a registry. -/
def run (registry : Registry) : Command → Outcome String
  | .schemas => do
      let tree ← ofLayout (listing registry)
      pure tree.pretty
  | .size type variant => sizeAnswer registry type variant
  | .encode type text => encodeAnswer registry type text
  | .decode type text all => decodeAnswer registry type text all

/-- The answer to a command line. -/
def respond (contentOf : String → Except FileFault String) (words : List String) :
    Outcome String :=
  match parse words with
  | .error fault => .error (.usage fault)
  | .ok invocation => do
      let registry ← loadRegistry contentOf invocation.registryFile
      run registry invocation.command

end FixedLayout.CommandLine
