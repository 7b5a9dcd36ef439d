/-!
# JSON strings

A string stands between double quotes. The writer escapes the quote, the
backslash and the controls below U+0020; the reader accepts every escape of the
format and refuses raw controls and surrogates that do not form a pair.
-/

namespace FixedLayout.Json.Quoted

/-- The value of a hexadecimal digit of either case. -/
def hexDigit? (char : Char) : Option Nat :=
  if '0' ≤ char ∧ char ≤ '9' then some (char.toNat - '0'.toNat)
  else if 'a' ≤ char ∧ char ≤ 'f' then some (char.toNat - 'a'.toNat + 10)
  else if 'A' ≤ char ∧ char ≤ 'F' then some (char.toNat - 'A'.toNat + 10)
  else none

/-- The code unit that four hexadecimal digits denote. -/
def codeUnit? (first second third fourth : Char) : Option Nat := do
  let first ← hexDigit? first
  let second ← hexDigit? second
  let third ← hexDigit? third
  let fourth ← hexDigit? fourth
  some (((first * 16 + second) * 16 + third) * 16 + fourth)

/-- Whether a code unit opens a surrogate pair. -/
def isHighSurrogate (unit : Nat) : Bool := 0xd800 ≤ unit && unit < 0xdc00

/-- Whether a code unit closes a surrogate pair. -/
def isLowSurrogate (unit : Nat) : Bool := 0xdc00 ≤ unit && unit < 0xe000

/-- The character of a surrogate pair. -/
def pairedChar (high low : Nat) : Char :=
  Char.ofNat (0x10000 + (high - 0xd800) * 0x400 + (low - 0xdc00))

/-- The character that a backslash and one more character stand for. -/
def shortEscape? : Char → Option Char
  | '"' => some '"'
  | '\\' => some '\\'
  | '/' => some '/'
  | 'b' => some '\x08'
  | 'f' => some '\x0c'
  | 'n' => some '\n'
  | 'r' => some '\r'
  | 't' => some '\t'
  | _ => none

/-- A character put in front of a string that was read. -/
def withChar (char : Char) : Option (List Char × List Char) → Option (List Char × List Char) :=
  Option.map fun read => (char :: read.1, read.2)

/-- The string after an opening quote and what follows its closing quote. -/
def read : List Char → Option (List Char × List Char)
  | [] => none
  | '"' :: rest => some ([], rest)
  | '\\' :: 'u' :: first :: second :: third :: fourth :: rest =>
      match codeUnit? first second third fourth with
      | none => none
      | some unit =>
          if isHighSurrogate unit then
            match rest with
            | '\\' :: 'u' :: first :: second :: third :: fourth :: rest =>
                match codeUnit? first second third fourth with
                | none => none
                | some low =>
                    if isLowSurrogate low then withChar (pairedChar unit low) (read rest) else none
            | _ => none
          else if isLowSurrogate unit then none
          else withChar (Char.ofNat unit) (read rest)
  | '\\' :: char :: rest =>
      match shortEscape? char with
      | none => none
      | some escaped => withChar escaped (read rest)
  | char :: rest => if char = '\\' ∨ char.toNat < 0x20 then none else withChar char (read rest)

/-- A hexadecimal digit in lower case. -/
def hexDigit (value : Nat) : Char :=
  Char.ofNat (if value < 10 then '0'.toNat + value else 'a'.toNat + (value - 10))

/-- A character as it is written inside a string. -/
def writeChar (char : Char) : List Char :=
  if char = '"' then ['\\', '"']
  else if char = '\\' then ['\\', '\\']
  else if char = '\x08' then ['\\', 'b']
  else if char = '\x0c' then ['\\', 'f']
  else if char = '\n' then ['\\', 'n']
  else if char = '\r' then ['\\', 'r']
  else if char = '\t' then ['\\', 't']
  else if char.toNat < 0x20 then
    ['\\', 'u', '0', '0', hexDigit (char.toNat / 16), hexDigit (char.toNat % 16)]
  else [char]

/-- A string between its quotes. -/
def write (text : List Char) : List Char := '"' :: text.flatMap writeChar ++ ['"']

/-- What follows a string is shorter than the text it was read from. -/
theorem length_lt_of_read {text value rest : List Char} (success : read text = some (value, rest)) :
    rest.length < text.length := by
  fun_induction read text generalizing value rest <;>
    simp_all [withChar, Option.map_eq_some_iff] <;> grind

end FixedLayout.Json.Quoted
