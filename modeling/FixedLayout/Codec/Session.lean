import FixedLayout.Codec.Decode
import FixedLayout.Codec.Encode

/-!
# Encoding and decoding sessions

An encoding session is a list of steps on one output, a decoding session a list of
steps on one cursor. Steps may fail; the session goes on with the output or the
cursor that the failed step left.
-/

namespace FixedLayout

namespace Encoding

/-- One step on an output. Only `encode` starts from an empty output. -/
inductive Step where
  | encode (layout : Layout) (value : Value)
  | writeValue (layout : Layout) (value : Value)
  | writeStruct (declared : StructLayout) (entries : Entries)
  | writeEnum (declared : EnumLayout) (variant : String) (payload : Option Entries)
  | encodeInto (layout : Layout) (value : Value)
  | word (word : Word)
  | clear
  | flush

/-- Encodes one value from an empty output and takes the bytes away. -/
def encodeAlone (layout : Layout) (value : Value) : Writing (List UInt8) := do
  set Output.empty
  layout.write value
  let output ← get
  set output.flush.2
  pure output.flush.1

/-- A writing that returns no bytes. -/
def silently (writing : Writing Unit) : Writing (Option (List UInt8)) := do
  writing
  pure none

/-- The writing that a step stands for; some steps return bytes. -/
def writing : Step → Writing (Option (List UInt8))
  | .encode layout value => do
      let bytes ← encodeAlone layout value
      pure (some bytes)
  | .writeValue layout value => silently (layout.write value)
  | .writeStruct declared entries => silently (declared.write entries)
  | .writeEnum declared variant payload => silently (declared.write variant payload)
  | .encodeInto layout value => silently (layout.encodeInto value)
  | .word word => silently (modify fun output => output.putWord word)
  | .clear => silently (set Output.empty)
  | .flush => do
      let output ← get
      set output.flush.2
      pure (some output.flush.1)

/-- The outcome of each step, with the bytes written after it. -/
def run : List Step → Output → List (Except LayoutError (Option (List UInt8)) × List UInt8)
  | [], _ => []
  | step :: steps, output =>
      let (outcome, next) := (writing step).perform output
      (outcome, next.bytes) :: run steps next

end Encoding

namespace Decoding

/-- One step on a cursor. -/
inductive Step where
  | value (layout : Layout)
  | struct (declared : StructLayout)
  | enum (declared : EnumLayout)
  | word (type : FieldType)
  | skip (count : Nat)
  | reset (data : List UInt8)

/-- What a step read. -/
inductive Reply where
  | value (value : Value)
  | struct (entries : Entries)
  | enum (variant : String) (payload : Option Entries)
  | word (word : Word)
  | done
  | failed (error : LayoutError)
  | ended (failure : EndOfInput)

/-- The reply to a step and the cursor after it. -/
def perform (step : Step) (cursor : Cursor) : Reply × Cursor :=
  match step with
  | .value layout =>
      match layout.read.perform cursor with
      | (.ok value, next) => (.value value, next)
      | (.error error, next) => (.failed error, next)
  | .struct declared =>
      match declared.read.perform cursor with
      | (.ok entries, next) => (.struct entries, next)
      | (.error error, next) => (.failed error, next)
  | .enum declared =>
      match declared.read.perform cursor with
      | (.ok (variant, payload), next) => (.enum variant payload, next)
      | (.error error, next) => (.failed error, next)
  | .word type =>
      match (Cursor.word type).perform cursor with
      | (.ok word, next) => (.word word, next)
      | (.error failure, next) => (.ended failure, next)
  | .skip count =>
      match (Cursor.skip count).perform cursor with
      | (.ok _, next) => (.done, next)
      | (.error failure, next) => (.ended failure, next)
  | .reset data => (.done, Cursor.start data)

/-- The reply to each step, with the unread bytes after it. -/
def run : List Step → Cursor → List (Reply × List UInt8)
  | [], _ => []
  | step :: steps, cursor =>
      let (reply, next) := perform step cursor
      (reply, next.rest) :: run steps next

end Decoding

end FixedLayout
