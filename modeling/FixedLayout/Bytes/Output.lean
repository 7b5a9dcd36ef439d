import FixedLayout.Word

/-!
# Output

An output holds the bytes written so far. It grows at the end only, until it is
cleared or taken away as a whole.
-/

namespace FixedLayout

/-- The bytes written so far. -/
structure Output where
  bytes : List UInt8
  deriving DecidableEq

namespace Output

/-- The output to which nothing has been written. -/
def empty : Output := ⟨[]⟩

/-- Writes raw bytes. -/
def putBytes (output : Output) (bytes : List UInt8) : Output := ⟨output.bytes ++ bytes⟩

/-- Writes one byte. -/
def putByte (output : Output) (byte : UInt8) : Output := output.putBytes [byte]

/-- Writes one word. -/
def putWord (output : Output) (word : Word) : Output := output.putBytes word.bytes

/-- Takes the written bytes away and leaves the output empty. -/
def flush (output : Output) : List UInt8 × Output := (output.bytes, empty)

/-- One step of a writing session. -/
inductive Step where
  | word (word : Word)
  | bytes (bytes : List UInt8)
  | reserve (count : Nat)
  | clear
  | flush

/-- What a step returns and the output after it. Room reserved in advance does
not show in what is written. -/
def perform (output : Output) : Step → Option (List UInt8) × Output
  | .word word => (none, output.putWord word)
  | .bytes bytes => (none, output.putBytes bytes)
  | .reserve _ => (none, output)
  | .clear => (none, empty)
  | .flush => (some output.flush.1, output.flush.2)

end Output

end FixedLayout
