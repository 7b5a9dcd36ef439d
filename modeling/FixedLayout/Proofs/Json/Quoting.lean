import FixedLayout.Json.Quoted

/-!
# Strings are read back

`Json.Quoted.read_writeChar` reads one written character back in front of any text, and
`Json.Quoted.read_flatMap_writeChar` a whole string with whatever follows it. Every
string can be written: the empty one, and those of quotes, backslashes, controls and
characters beyond ASCII.
-/

namespace FixedLayout.Json.Quoted

/-- A written hexadecimal digit is read back. -/
theorem hexDigit?_hexDigit : ∀ value < 16, hexDigit? (hexDigit value) = some value := by
  decide

/-- The escape of a control is its code unit. -/
theorem codeUnit?_control {unit : Nat} (control : unit < 0x20) :
    codeUnit? '0' '0' (hexDigit (unit / 16)) (hexDigit (unit % 16)) = some unit := by
  have zero : hexDigit? '0' = some 0 := by decide
  have high := hexDigit?_hexDigit (unit / 16) (by omega)
  have low := hexDigit?_hexDigit (unit % 16) (by omega)
  have joined : ((0 * 16 + 0) * 16 + unit / 16) * 16 + unit % 16 = unit := by omega
  simp only [codeUnit?, zero, high, low, joined, Option.bind_eq_bind, Option.bind_some]

/-- A character that needs no escape is read as itself. -/
theorem read_cons_of_plain {char : Char} {text : List Char} (unquoted : char ≠ '"')
    (unescaped : char ≠ '\\') (uncontrolled : ¬ char.toNat < 0x20) :
    read (char :: text) = withChar char (read text) := by
  rw [read.eq_def]
  split
  case h_5 same =>
    cases same
    rw [if_neg (not_or.mpr ⟨unescaped, uncontrolled⟩)]
  -- The other alternatives start with a quote or a backslash.
  all_goals
    rename_i same
    cases same <;> contradiction

/-- A control written as an escape of four digits is read back. -/
theorem read_control {char : Char} {text : List Char} (control : char.toNat < 0x20) :
    read ('\\' :: 'u' :: '0' :: '0' :: hexDigit (char.toNat / 16) :: hexDigit (char.toNat % 16) ::
      text) = withChar char (read text) := by
  have high : isHighSurrogate char.toNat = false := by
    simp only [isHighSurrogate, Bool.and_eq_false_iff, decide_eq_false_iff_not]
    omega
  have low : isLowSurrogate char.toNat = false := by
    simp only [isLowSurrogate, Bool.and_eq_false_iff, decide_eq_false_iff_not]
    omega
  rw [read.eq_def]
  simp only [codeUnit?_control control, high, low, Bool.false_eq_true, if_false,
    Char.ofNat_toNat]

/-- A written character is read back, whatever follows it. -/
theorem read_writeChar (char : Char) (text : List Char) :
    read (writeChar char ++ text) = withChar char (read text) := by
  fun_cases writeChar char
  case case8 control => exact read_control control
  case case9 unquoted unescaped _ _ _ _ _ uncontrolled =>
    exact read_cons_of_plain unquoted unescaped uncontrolled
  -- Each of the other characters is one of those with an escape of its own.
  all_goals
    subst char
    rfl

/-- A written string is read back, whatever follows its closing quote. -/
theorem read_flatMap_writeChar (text rest : List Char) :
    read (text.flatMap writeChar ++ '"' :: rest) = some (text, rest) := by
  induction text with
  | nil => rfl
  | cons char text inductionHypothesis =>
      rw [List.flatMap_cons, List.append_assoc, read_writeChar, inductionHypothesis]
      rfl

end FixedLayout.Json.Quoted
