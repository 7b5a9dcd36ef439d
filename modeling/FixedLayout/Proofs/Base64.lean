import FixedLayout.Base64
import FixedLayout.Text.Blank

/-!
# Base64 is read back

A digit leads back to its number, and from that a group of four characters to the bytes
it was written for: three in the middle of a text, one to three at its end.
`Base64.decode_encode` puts the groups together. No character of an encoding is white
space, so an encoding stays as it is where texts are trimmed.
-/

namespace FixedLayout.Base64

section Digits

variable {value : Nat}

/-- A digit leads back to its number. -/
theorem digit?_digit (small : value < 64) : digit? (digit value) = some value := by
  have all : ∀ value < 64, digit? (digit value) = some value := by decide
  exact all value small

/-- No digit is padding. -/
theorem digit_ne_padding (small : value < 64) : digit value ≠ '=' := by
  have all : ∀ value < 64, digit value ≠ '=' := by decide
  exact all value small

/-- No digit is a blank. -/
theorem isBlank_digit (small : value < 64) : Text.isBlank (digit value) = false := by
  have all : ∀ value < 64, Text.isBlank (digit value) = false := by decide
  exact all value small

end Digits

section Groups

variable {first second third : UInt8} {bits : Nat}

/-- A number whose remainder is a byte is narrowed to that byte. -/
theorem ofNat_eq_of_mod {number : Nat} {byte : UInt8} (same : number % 256 = byte.toNat) :
    UInt8.ofNat number = byte :=
  (UInt8.ofNat_eq_iff_mod_eq_toNat number byte).mpr same

/-- Three bytes are restored in the middle of a text. -/
theorem decodeInner_triple
    (row : bits = (first.toNat * 256 + second.toNat) * 256 + third.toNat) :
    decodeInner (digit (bits / 262144)) (digit (bits / 4096 % 64)) (digit (bits / 64 % 64))
      (digit (bits % 64)) = some [first, second, third] := by
  have firstSmall := first.toNat_lt
  have secondSmall := second.toNat_lt
  have thirdSmall := third.toNat_lt
  have whole : ((bits / 262144 * 64 + bits / 4096 % 64) * 64 + bits / 64 % 64) * 64 + bits % 64 =
      bits := by omega
  have firstBack : UInt8.ofNat (bits / 65536) = first := ofNat_eq_of_mod (by omega)
  have secondBack : UInt8.ofNat (bits / 256) = second := ofNat_eq_of_mod (by omega)
  have thirdBack : UInt8.ofNat bits = third := ofNat_eq_of_mod (by omega)
  simp (disch := omega) only [decodeInner, digit?_digit, Option.bind_eq_bind, Option.bind_some,
    whole, firstBack, secondBack, thirdBack]

/-- Three bytes are restored at the end of a text. -/
theorem decodeLast_triple
    (row : bits = (first.toNat * 256 + second.toNat) * 256 + third.toNat) :
    decodeLast (digit (bits / 262144)) (digit (bits / 4096 % 64)) (digit (bits / 64 % 64))
      (digit (bits % 64)) = some [first, second, third] := by
  have firstSmall := first.toNat_lt
  have secondSmall := second.toNat_lt
  have thirdSmall := third.toNat_lt
  have front : (bits / 262144 * 64 + bits / 4096 % 64) * 64 + bits / 64 % 64 = bits / 64 := by
    omega
  have firstBack : UInt8.ofNat (bits / 64 / 1024) = first := ofNat_eq_of_mod (by omega)
  have secondBack : UInt8.ofNat (bits / 64 / 4) = second := ofNat_eq_of_mod (by omega)
  have thirdBack : UInt8.ofNat (bits / 64 % 4 * 64 + bits % 64) = third :=
    ofNat_eq_of_mod (by omega)
  simp (disch := omega) only [decodeLast, digit?_digit, digit_ne_padding, Option.bind_eq_bind,
    Option.bind_some, if_false, front, firstBack, secondBack, thirdBack]

/-- A last group of two bytes is restored from its three digits. -/
theorem decodeLast_pair (row : bits = first.toNat * 256 + second.toNat) :
    decodeLast (digit (bits / 1024)) (digit (bits / 16 % 64)) (digit (bits % 16 * 4)) '=' =
      some [first, second] := by
  have firstSmall := first.toNat_lt
  have secondSmall := second.toNat_lt
  have whole : (bits / 1024 * 64 + bits / 16 % 64) * 64 + bits % 16 * 4 = 4 * bits := by omega
  have firstBack : UInt8.ofNat (4 * bits / 1024) = first := ofNat_eq_of_mod (by omega)
  have secondBack : UInt8.ofNat (4 * bits / 4) = second := ofNat_eq_of_mod (by omega)
  have spare : bits % 16 * 4 % 4 = 0 := by omega
  simp (disch := omega) only [decodeLast, digit?_digit, digit_ne_padding, Option.bind_eq_bind,
    Option.bind_some, if_false, if_true, whole, spare, firstBack, secondBack]

/-- A last byte of its own is restored from its two digits. -/
theorem decodeLast_single (byte : UInt8) :
    decodeLast (digit (byte.toNat / 4)) (digit (byte.toNat % 4 * 16)) '=' '=' = some [byte] := by
  have small := byte.toNat_lt
  have back : UInt8.ofNat (byte.toNat / 4 * 4 + byte.toNat % 4 * 16 / 16) = byte :=
    ofNat_eq_of_mod (by omega)
  have spare : byte.toNat % 4 * 16 % 16 = 0 := by omega
  simp (disch := omega) only [decodeLast, digit?_digit, Option.bind_eq_bind, Option.bind_some,
    if_true, true_and, spare, back]

end Groups

/-- Bytes are restored from their characters. -/
theorem decode_encode (bytes : List UInt8) : decode (encode bytes) = some bytes := by
  fun_induction encode bytes with
  | case1 => rfl
  | case2 byte => exact decodeLast_single byte
  | case3 first second => exact decodeLast_pair rfl
  | case4 first second third rest bits inductionHypothesis =>
      cases behind : encode rest with
      | nil =>
          rw [behind] at inductionHypothesis
          cases inductionHypothesis
          exact decodeLast_triple rfl
      | cons char chars =>
          rw [behind] at inductionHypothesis
          rw [decode, decodeInner_triple rfl, inductionHypothesis]
          · rfl
          · nofun

/-- No character of an encoding is white space. -/
theorem isBlank_of_mem_encode {bytes : List UInt8} :
    ∀ char ∈ encode bytes, Text.isBlank char = false := by
  have padding : Text.isBlank '=' = false := rfl
  fun_induction encode bytes with
  | case1 => nofun
  | case2 byte bits =>
      have small : bits < 2 ^ 8 := byte.toNat_lt
      simp (disch := omega) [padding, isBlank_digit]
  | case3 first second bits =>
      have small : bits < 2 ^ 16 := by
        have firstSmall := first.toNat_lt
        have secondSmall := second.toNat_lt
        omega
      simp (disch := omega) [padding, isBlank_digit]
  | case4 first second third rest bits inductionHypothesis =>
      have small : bits < 2 ^ 24 := by
        have firstSmall := first.toNat_lt
        have secondSmall := second.toNat_lt
        have thirdSmall := third.toNat_lt
        omega
      simp (disch := omega) only [List.forall_mem_cons, isBlank_digit, true_and]
      exact inductionHypothesis

end FixedLayout.Base64

namespace FixedLayout.Text

/-- A text without white space is not shortened. -/
theorem trim_of_solid {text : List Char} (solid : ∀ char ∈ text, isBlank char = false) :
    trim text = text := by
  have whole : ∀ {text : List Char}, (∀ char ∈ text, isBlank char = false) →
      text.dropWhile isBlank = text := by
    intro text solid
    cases text with
    | nil => rfl
    | cons char text =>
        exact List.dropWhile_cons_of_neg (Bool.not_eq_true _ ▸ solid char List.mem_cons_self)
  rw [trim, whole solid, whole (by simpa using solid), List.reverse_reverse]

end FixedLayout.Text
