import FixedLayout.Text.Hidden

/-!
# Quotations in messages

A message quotes text between double quotes. Backslash, double quote and the
common controls have short escapes; every other character that would not be seen
is written by its code point.
-/

namespace FixedLayout.Text

/-- A number in lower-case hexadecimal digits. -/
def hexadecimal (value : Nat) : String := String.ofList (Nat.toDigits 16 value)

/-- A character as it stands in a quotation. -/
def quoteChar (char : Char) : String :=
  if char = '\x00' then "\\0"
  else if char = '\t' then "\\t"
  else if char = '\r' then "\\r"
  else if char = '\n' then "\\n"
  else if char = '\\' then "\\\\"
  else if char = '"' then "\\\""
  else if isHidden char then "\\u\x7b" ++ hexadecimal char.toNat ++ "\x7d"
  else char.toString

/-- A text as a message quotes it. -/
def quotation (text : String) : String :=
  "\"" ++ String.join (text.toList.map quoteChar) ++ "\""

end FixedLayout.Text
