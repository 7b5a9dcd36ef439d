import FixedLayout.Json.Number

/-!
# Number literals in texts

A literal is an optional minus sign, the digits before the point, and optionally
a point with digits and an exponent with digits. Every scan that succeeds takes
at least one character off the text.
-/

namespace FixedLayout.Json.Literal

/-- The leading digits of a text and what follows them. -/
def spanDigits (text : List Char) : List Char × List Char :=
  (text.takeWhile isDigit, text.dropWhile isDigit)

/-- The fraction part at the front of a text, if it has one; a point must be
followed by a digit. -/
def scanFraction : List Char → Option (Option (List Char) × List Char)
  | '.' :: text =>
      let (digits, rest) := spanDigits text
      if digits.isEmpty then none else some (some digits, rest)
  | text => some (none, text)

/-- The sign at the front of an exponent; true stands for minus. -/
def scanSign : List Char → Bool × List Char
  | '+' :: text => (false, text)
  | '-' :: text => (true, text)
  | text => (false, text)

/-- The exponent part at the front of a text, if it has one; it must have a digit. -/
def scanExponent : List Char → Option (Option Int × List Char)
  | char :: text =>
      if char = 'e' ∨ char = 'E' then
        let (isNegative, text) := scanSign text
        let (digits, rest) := spanDigits text
        let magnitude : Int := digitsValue digits
        if digits.isEmpty then none
        else some (some (if isNegative then -magnitude else magnitude), rest)
      else some (none, char :: text)
  | [] => some (none, [])

/-- The digits before the point: at least one, and no zero before another. -/
def scanWhole (text : List Char) : Option (List Char × List Char) :=
  match spanDigits text with
  | ([], _) => none
  | ('0' :: _ :: _, _) => none
  | (digits, rest) => some (digits, rest)

/-- The literal that follows an optional minus sign, and what follows it. -/
def scanUnsigned (isNegative : Bool) (text : List Char) : Option (Literal × List Char) := do
  let (whole, rest) ← scanWhole text
  let (fraction, rest) ← scanFraction rest
  let (exponent, rest) ← scanExponent rest
  some (⟨isNegative, whole, fraction, exponent⟩, rest)

/-- The literal at the front of a text and what follows it. -/
def scan : List Char → Option (Literal × List Char)
  | '-' :: text => scanUnsigned true text
  | text => scanUnsigned false text

/-- A scanned whole part takes at least one digit off the text. -/
theorem length_lt_of_scanWhole {text digits rest : List Char}
    (success : scanWhole text = some (digits, rest)) : rest.length < text.length := by
  unfold scanWhole spanDigits at success
  have whole : text.takeWhile isDigit ++ text.dropWhile isDigit = text :=
    List.takeWhile_append_dropWhile
  have lengths := congrArg List.length whole
  rw [List.length_append] at lengths
  split at success
  · cases success
  · cases success
  · next found nonempty _ heads =>
      cases success
      have taken : text.takeWhile isDigit = digits := congrArg Prod.fst heads
      have left : text.dropWhile isDigit = rest := congrArg Prod.snd heads
      have positive : digits ≠ [] := nonempty
      have := List.length_pos_iff.mpr positive
      rw [taken, left] at lengths
      omega

/-- A scanned fraction adds nothing to the text. -/
theorem length_le_of_scanFraction {text rest : List Char} {fraction : Option (List Char)}
    (success : scanFraction text = some (fraction, rest)) : rest.length ≤ text.length := by
  unfold scanFraction at success
  split at success
  · next tail =>
      have shorter := (List.dropWhile_sublist (l := tail) isDigit).length_le
      simp only [spanDigits] at success
      cases empty : (tail.takeWhile isDigit).isEmpty with
      | true => simp [empty] at success
      | false =>
          simp only [empty, Bool.false_eq_true, if_false, Option.some.injEq,
            Prod.mk.injEq] at success
          rw [← success.2, List.length_cons]
          omega
  · cases success
    exact Nat.le_refl _

/-- A scanned sign adds nothing to the text. -/
theorem length_scanSign_le (text : List Char) : (scanSign text).2.length ≤ text.length := by
  unfold scanSign
  split <;> simp

/-- A scanned exponent adds nothing to the text. -/
theorem length_le_of_scanExponent {text rest : List Char} {exponent : Option Int}
    (success : scanExponent text = some (exponent, rest)) : rest.length ≤ text.length := by
  unfold scanExponent at success
  split at success
  · next char tail =>
      split at success
      · have shorter :=
          (List.dropWhile_sublist (l := (scanSign tail).2) isDigit).length_le
        have signed := length_scanSign_le tail
        simp only [spanDigits] at success
        cases empty : ((scanSign tail).2.takeWhile isDigit).isEmpty with
        | true => simp [empty] at success
        | false =>
            simp only [empty, Bool.false_eq_true, if_false, Option.some.injEq, Prod.mk.injEq]
              at success
            rw [← success.2, List.length_cons]
            omega
      · cases success
        exact Nat.le_refl _
  · cases success
    exact Nat.le_refl _

/-- A scanned literal takes at least one character off the text. -/
theorem length_lt_of_scanUnsigned {isNegative : Bool} {text rest : List Char} {literal : Literal}
    (success : scanUnsigned isNegative text = some (literal, rest)) :
    rest.length < text.length := by
  simp only [scanUnsigned, bind, Option.bind_eq_some_iff, Prod.exists] at success
  obtain ⟨whole, afterWhole, wholeRead, fraction, afterFraction, fractionRead, exponent,
    afterExponent, exponentRead, equal⟩ := success
  cases equal
  have first := length_lt_of_scanWhole wholeRead
  have second := length_le_of_scanFraction fractionRead
  have third := length_le_of_scanExponent exponentRead
  omega

/-- A scanned literal, with its sign, takes at least one character off the text. -/
theorem length_lt_of_scan {text rest : List Char} {literal : Literal}
    (success : scan text = some (literal, rest)) : rest.length < text.length := by
  unfold scan at success
  split at success
  · have := length_lt_of_scanUnsigned success
    simp only [List.length_cons]
    omega
  · exact length_lt_of_scanUnsigned success

end FixedLayout.Json.Literal
