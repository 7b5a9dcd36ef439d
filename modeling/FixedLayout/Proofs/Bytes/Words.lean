import FixedLayout.Word

/-!
# Words and their bytes

A word and its little-endian bytes determine each other. `Word.ofBytes_bytes`
reads a written word back whatever follows it, and `Word.bytes_ofBytes` writes
a read word back to the bytes it was read from. `LittleEndian.encode_eq_digits`
says which digit of the number each byte is.
-/

namespace FixedLayout

namespace LittleEndian

/-- The digits of `n` to the base 256 at the lowest `width` places, lowest place first. -/
def digits (width n : Nat) : List UInt8 :=
  (List.range width).map fun place => UInt8.ofNat (n / 256 ^ place % 256)

/-- The bytes of a number are its digits to the base 256. -/
theorem encode_eq_digits (width n : Nat) : encode width n = digits width n := by
  induction width generalizing n with
  | zero => rfl
  | succ width inductionHypothesis =>
      have lowest : UInt8.ofNat (n % 256) = UInt8.ofNat n := by
        apply UInt8.toNat_inj.mp
        simp
      rw [encode, inductionHypothesis (n / 256), digits, digits, List.range_succ_eq_map]
      simp [lowest, Nat.div_div_eq_div_mul, Nat.pow_succ, Nat.mul_comm]

/-- A number that fits its width is read back from its bytes. -/
theorem decode_encode {width n : Nat} (fits : n < 256 ^ width) : decode (encode width n) = n := by
  induction width generalizing n with
  | zero =>
      have zero : n = 0 := by simpa using fits
      simp [encode, decode, zero]
  | succ width inductionHypothesis =>
      have highFits : n / 256 < 256 ^ width := by
        rw [Nat.pow_succ] at fits
        exact Nat.div_lt_of_lt_mul (by rwa [Nat.mul_comm])
      have low : (UInt8.ofNat n).toNat = n % 256 := by simp
      rw [encode, decode, inductionHypothesis highFits, low]
      exact Nat.mod_add_div n 256

/-- Bytes are written back from the number they were read as. -/
theorem encode_decode (bytes : List UInt8) : encode bytes.length (decode bytes) = bytes := by
  induction bytes with
  | nil => rfl
  | cons byte rest inductionHypothesis =>
      have small : byte.toNat < 256 := byte.toNat_lt
      have high : decode (byte :: rest) / 256 = decode rest := by
        simp only [decode]
        omega
      have low : UInt8.ofNat (decode (byte :: rest)) = byte := by
        apply UInt8.toNat_inj.mp
        rw [UInt8.toNat_ofNat', decode]
        omega
      rw [List.length_cons, encode, high, low, inductionHypothesis]

end LittleEndian

namespace Word

/-- Words are equal when their types and their values are; that the value fits
is no further part of them. -/
@[ext] theorem ext {left right : Word} (type : left.type = right.type)
    (value : left.value = right.value) : left = right := by
  cases left
  cases right
  cases type
  cases value
  rfl

/-- The type of a word read is the type asked for. -/
@[simp] theorem type_ofBytes (type : FieldType) (bytes : List UInt8) :
    (ofBytes type bytes).type = type := rfl

/-- Only as many bytes as the type is wide are read. -/
theorem ofBytes_take (type : FieldType) (bytes : List UInt8) :
    ofBytes type (bytes.take type.width) = ofBytes type bytes := by
  ext
  · rfl
  · simp [ofBytes, List.take_take]

/-- A written word is read back, whatever follows it. -/
@[simp] theorem ofBytes_bytes (word : Word) (rest : List UInt8) :
    ofBytes word.type (word.bytes ++ rest) = word := by
  have front : (word.bytes ++ rest).take word.type.width = word.bytes :=
    List.take_left' (length_bytes word)
  ext
  · rfl
  · change LittleEndian.decode ((word.bytes ++ rest).take word.type.width) = word.value
    rw [front]
    exact LittleEndian.decode_encode word.fits

/-- A word read is written back to the bytes it was read from. -/
theorem bytes_ofBytes {type : FieldType} {bytes : List UInt8} (enough : type.width ≤ bytes.length) :
    (ofBytes type bytes).bytes = bytes.take type.width := by
  have length : (bytes.take type.width).length = type.width := List.length_take_of_le enough
  have written := LittleEndian.encode_decode (bytes.take type.width)
  rw [length] at written
  exact written

/-- A byte-wide word is read from one byte. -/
theorem ofBytes_u8_cons (byte : UInt8) (behind : List UInt8) :
    ofBytes .u8 (byte :: behind) = ofUInt8 byte := by
  ext
  · rfl
  · simp [ofBytes, ofUInt8, FieldType.width, LittleEndian.decode]

/-- A byte-wide word is the word of a byte. -/
theorem ofUInt8_ofNat {word : Word} (typed : word.type = .u8) :
    ofUInt8 (UInt8.ofNat word.value) = word := by
  have small : word.value < 2 ^ 8 := by
    have fits := word.fits
    rw [typed] at fits
    exact fits
  ext
  · exact typed.symm
  · exact UInt8.toNat_ofNat_of_lt' small

/-- A word eight bytes wide is the word of a 64-bit integer. -/
theorem ofUInt64_ofNat {word : Word} (typed : word.type = .u64) :
    ofUInt64 (UInt64.ofNat word.value) = word := by
  have small : word.value < 2 ^ 64 := by
    have fits := word.fits
    rw [typed] at fits
    exact fits
  ext
  · exact typed.symm
  · exact UInt64.toNat_ofNat_of_lt' small

end Word

end FixedLayout
