import FixedLayout.Bytes.LittleEndian

/-!
# Field types and words

Every field is an unsigned integer of one of five widths. A `Word` is such an
integer together with its type; that it fits is part of the word.
-/

namespace FixedLayout

/-- The unsigned integer types that a field may have. -/
inductive FieldType where
  | u8
  | u16
  | u32
  | u64
  | u128
  deriving DecidableEq, Repr

namespace FieldType

/-- Encoded width in bytes. -/
def width : FieldType → Nat
  | u8 => 1
  | u16 => 2
  | u32 => 4
  | u64 => 8
  | u128 => 16

/-- The name of the type in schema texts and messages. -/
def name : FieldType → String
  | u8 => "u8"
  | u16 => "u16"
  | u32 => "u32"
  | u64 => "u64"
  | u128 => "u128"

/-- Every type, narrowest first. -/
def all : List FieldType := [u8, u16, u32, u64, u128]

/-- The type with the given name. -/
def ofName? (text : String) : Option FieldType := all.find? fun type => type.name == text

/-- How many values the type has; they are the numbers below this one. -/
def capacity (type : FieldType) : Nat := 256 ^ type.width

end FieldType

/-- An unsigned integer that fits its type. -/
structure Word where
  type : FieldType
  value : Nat
  fits : value < type.capacity
  deriving DecidableEq

namespace Word

/-- The number `value` as a word of the given type, if it fits. -/
def ofNat? (type : FieldType) (value : Nat) : Option Word :=
  if fits : value < type.capacity then some ⟨type, value, fits⟩ else none

/-- The word of the given type read from the front of `bytes`. -/
def ofBytes (type : FieldType) (bytes : List UInt8) : Word where
  type := type
  value := LittleEndian.decode (bytes.take type.width)
  fits :=
    Nat.lt_of_lt_of_le (LittleEndian.decode_lt _)
      (Nat.pow_le_pow_right (by decide) (List.length_take_le _ _))

/-- The encoding of a word: its value in as many bytes as its type is wide. -/
def bytes (word : Word) : List UInt8 := LittleEndian.encode word.type.width word.value

/-- A word occupies exactly the width of its type. -/
@[simp] theorem length_bytes (word : Word) : word.bytes.length = word.type.width := by
  simp [bytes]

/-- A byte as a word. -/
def ofUInt8 (value : UInt8) : Word := ⟨.u8, value.toNat, value.toNat_lt⟩

/-- A 64-bit integer as a word. -/
def ofUInt64 (value : UInt64) : Word := ⟨.u64, value.toNat, value.toNat_lt⟩

end Word

end FixedLayout
