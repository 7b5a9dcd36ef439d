/-!
# Base64

The standard alphabet with padding. Three bytes become four characters. A text is
accepted only if it is what the encoder writes: the padding is complete, stands at
the end only, and the bits that it leaves over are zero.
-/

namespace FixedLayout.Base64

/-- The character of a six-bit number. -/
def digit (value : Nat) : Char :=
  if value < 26 then Char.ofNat ('A'.toNat + value)
  else if value < 52 then Char.ofNat ('a'.toNat + (value - 26))
  else if value < 62 then Char.ofNat ('0'.toNat + (value - 52))
  else if value = 62 then '+'
  else '/'

/-- The six-bit number of a character. -/
def digit? (char : Char) : Option Nat :=
  if 'A' ≤ char ∧ char ≤ 'Z' then some (char.toNat - 'A'.toNat)
  else if 'a' ≤ char ∧ char ≤ 'z' then some (char.toNat - 'a'.toNat + 26)
  else if '0' ≤ char ∧ char ≤ '9' then some (char.toNat - '0'.toNat + 52)
  else if char = '+' then some 62
  else if char = '/' then some 63
  else none

/-- The characters of some bytes. -/
def encode : List UInt8 → List Char
  | [] => []
  | [first] =>
      let bits := first.toNat
      [digit (bits / 4), digit (bits % 4 * 16), '=', '=']
  | [first, second] =>
      let bits := first.toNat * 256 + second.toNat
      [digit (bits / 1024), digit (bits / 16 % 64), digit (bits % 16 * 4), '=']
  | first :: second :: third :: rest =>
      let bits := (first.toNat * 256 + second.toNat) * 256 + third.toNat
      digit (bits / 262144) :: digit (bits / 4096 % 64) :: digit (bits / 64 % 64) ::
        digit (bits % 64) :: encode rest

/-- The bytes of the last four characters, which may end in padding. -/
def decodeLast (first second third fourth : Char) : Option (List UInt8) := do
  let first ← digit? first
  let second ← digit? second
  if third = '=' then
    if fourth = '=' ∧ second % 16 = 0 then some [UInt8.ofNat (first * 4 + second / 16)] else none
  else
    let third ← digit? third
    let bits := (first * 64 + second) * 64 + third
    if fourth = '=' then
      if third % 4 = 0 then some [UInt8.ofNat (bits / 1024), UInt8.ofNat (bits / 4)] else none
    else
      let fourth ← digit? fourth
      some
        [UInt8.ofNat (bits / 1024), UInt8.ofNat (bits / 4), UInt8.ofNat (bits % 4 * 64 + fourth)]

/-- The bytes of four characters that are not the last ones. -/
def decodeInner (first second third fourth : Char) : Option (List UInt8) := do
  let first ← digit? first
  let second ← digit? second
  let third ← digit? third
  let fourth ← digit? fourth
  let bits := ((first * 64 + second) * 64 + third) * 64 + fourth
  some [UInt8.ofNat (bits / 65536), UInt8.ofNat (bits / 256), UInt8.ofNat bits]

/-- The bytes that some characters stand for. -/
def decode : List Char → Option (List UInt8)
  | [] => some []
  | [first, second, third, fourth] => decodeLast first second third fourth
  | first :: second :: third :: fourth :: rest => do
      let bytes ← decodeInner first second third fourth
      let others ← decode rest
      some (bytes ++ others)
  | _ => none

end FixedLayout.Base64
