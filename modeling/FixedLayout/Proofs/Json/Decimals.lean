import FixedLayout.Json.Token

/-!
# Decimal digits are read back

A natural number is printed as its decimal digits. `Json.Token.read_digits` reads the
digits of a 64-bit integer back as one token, if what follows does not continue a
number.
-/

namespace FixedLayout.Json.Literal

/-- The decimal digits of a number, highest place first. -/
abbrev digits (n : Nat) : List Char := Nat.toDigits 10 n

/-- A digit of a numeral is a digit of the core library. -/
theorem isDigit_eq (char : Char) : isDigit char = char.isDigit := by
  simp [Char.isDigit, isDigit, Char.le_def]

/-- A numeral consists of digits. -/
theorem isDigit_of_mem_digits {n : Nat} {char : Char} (member : char ∈ digits n) :
    isDigit char = true := by
  rw [isDigit_eq]
  exact Nat.isDigit_of_mem_toDigits (by decide) (by decide) member

/-- Digits denote the number that they were made of. -/
theorem digitsValue_digits (n : Nat) : digitsValue (digits n) = n := by
  have value : Nat.ofDigitChars 10 (digits n) 0 = n := Nat.ofDigitChars_ten_toDigits
  rw [Nat.ofDigitChars_eq_foldl] at value
  exact value

/-- Only zero has a zero at its highest place. -/
theorem eq_zero_of_digits_eq_cons {n : Nat} {others : List Char}
    (leading : digits n = '0' :: others) : n = 0 := by
  induction n using Nat.strongRecOn generalizing others with
  | _ n inductionHypothesis =>
      rw [digits, Nat.toDigits_eq_if (by decide)] at leading
      split at leading
      · next small =>
          have first : n.digitChar = '0' := (List.cons.inj leading).1
          exact (Nat.digitChar_eq_zero).mp first
      · next large =>
          obtain ⟨first, front, split⟩ :=
            List.exists_cons_of_ne_nil (Nat.toDigits_ne_nil (n := n / 10) (b := 10))
          rw [split, List.cons_append] at leading
          have zero := inductionHypothesis (n / 10) (by omega)
            (split.trans (congrArg (· :: front) (List.cons.inj leading).1))
          omega

/-- Whether a character could belong to a number that stands before it. -/
def continues (char : Char) : Bool :=
  isDigit char || char = '.' || char = 'e' || char = 'E'

/-- A text that does not continue a number before it. -/
inductive Delimits : List Char → Prop where
  | nil : Delimits []
  | cons {char rest} (apart : continues char = false) : Delimits (char :: rest)

/-- Behind some digits stands what follows them. -/
theorem spanDigits_append {leading rest : List Char}
    (digital : ∀ char ∈ leading, isDigit char = true) (delimits : Delimits rest) :
    spanDigits (leading ++ rest) = (leading, rest) := by
  have stop : rest.takeWhile isDigit = [] ∧ rest.dropWhile isDigit = rest := by
    cases delimits with
    | nil => exact ⟨rfl, rfl⟩
    | @cons char rest apart =>
        have other : isDigit char = false := by
          simp only [continues, Bool.or_eq_false_iff] at apart
          exact apart.1.1.1
        simp [other]
  rw [spanDigits, List.takeWhile_append_of_pos digital, List.dropWhile_append_of_pos digital,
    stop.1, stop.2, List.append_nil]

/-- The digits of a number are a whole part. -/
theorem scanWhole_digits (n : Nat) {rest : List Char} (delimits : Delimits rest) :
    scanWhole (digits n ++ rest) = some (digits n, rest) := by
  have read := spanDigits_append (fun _ => isDigit_of_mem_digits (n := n)) delimits
  rw [scanWhole, read]
  split
  · next nothing => exact absurd (congrArg Prod.fst nothing) Nat.toDigits_ne_nil
  · next second others _ leading =>
      -- A zero before another digit would have to be the number zero, which has one digit.
      have leading : digits n = '0' :: second :: others := congrArg Prod.fst leading
      have zero := eq_zero_of_digits_eq_cons leading
      rw [zero, digits, Nat.toDigits_zero] at leading
      cases leading
  · next found _ _ _ pair =>
      cases pair
      rfl

/-- Where a number is delimited no fraction begins. -/
theorem scanFraction_of_delimits {rest : List Char} (delimits : Delimits rest) :
    scanFraction rest = some (none, rest) := by
  cases delimits with
  | nil => rfl
  | @cons char rest apart =>
      rw [scanFraction]
      intro tail same
      cases same
      cases apart

/-- Where a number is delimited no exponent begins. -/
theorem scanExponent_of_delimits {rest : List Char} (delimits : Delimits rest) :
    scanExponent rest = some (none, rest) := by
  cases delimits with
  | nil => rfl
  | @cons char rest apart =>
      rw [scanExponent, if_neg]
      rintro (rfl | rfl) <;> cases apart

/-- The digits of a number are a literal of their own. -/
theorem scan_digits (n : Nat) {rest : List Char} (delimits : Delimits rest) :
    scan (digits n ++ rest) = some (⟨false, digits n, none, none⟩, rest) := by
  have unsigned : scan (digits n ++ rest) = scanUnsigned false (digits n ++ rest) := by
    rw [scan]
    intro text same
    obtain ⟨first, others, split⟩ :=
      List.exists_cons_of_ne_nil (Nat.toDigits_ne_nil (n := n) (b := 10))
    rw [digits, split, List.cons_append] at same
    have digital := isDigit_of_mem_digits (n := n) (split ▸ List.mem_cons_self)
    rw [(List.cons.inj same).1] at digital
    cases digital
  simp only [unsigned, scanUnsigned, scanWhole_digits n delimits,
    scanFraction_of_delimits delimits, scanExponent_of_delimits delimits, Option.bind_eq_bind,
    Option.bind_some]

/-- The digits of a 64-bit integer denote it. -/
theorem toNumber_digits (value : UInt64) :
    toNumber ⟨false, digits value.toNat, none, none⟩ = some (.unsigned value) := by
  have small : value.toNat < 2 ^ 64 := value.toNat_lt
  rw [toNumber]
  simp only [digitsValue_digits, if_pos small, UInt64.ofNat_toNat]

end FixedLayout.Json.Literal

namespace FixedLayout.Json.Token

open FixedLayout.Json.Literal

/-- A text that starts with a digit starts with a number. -/
theorem read_of_isDigit {char : Char} (text : List Char) (digital : isDigit char = true) :
    read (char :: text) = readNumber (char :: text) := by
  unfold read
  split
  case h_11 => rfl
  -- Every other token starts with a character that is no digit.
  all_goals
    rename_i same
    cases same
    cases digital

/-- The digits of a 64-bit integer are read as one token. -/
theorem read_digits (value : UInt64) {rest : List Char} (delimits : Delimits rest) :
    read (digits value.toNat ++ rest) = some (.number (.unsigned value), rest) := by
  obtain ⟨first, others, split⟩ :=
    List.exists_cons_of_ne_nil (Nat.toDigits_ne_nil (n := value.toNat) (b := 10))
  have digital := isDigit_of_mem_digits (n := value.toNat) (split ▸ List.mem_cons_self)
  have number : read (digits value.toNat ++ rest) = readNumber (digits value.toNat ++ rest) := by
    rw [digits, split, List.cons_append]
    exact read_of_isDigit _ digital
  rw [number, readNumber, scan_digits _ delimits]
  simp only [toNumber_digits, Option.map_some]

end FixedLayout.Json.Token
