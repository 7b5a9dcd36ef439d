import FixedLayout.Proofs.Attempts
import FixedLayout.Proofs.Json.Decimals
import FixedLayout.Value.Tree

/-!
# Numbers in trees

`Numeral` says which texts denote a number, and `Json.Denotes` which trees do: numbers of
64 bits without a sign, and numerals below `2 ^ 128`. `Value.readWord_eq_ok_iff` shows that
a word is read from exactly the trees that denote its number, so none is rounded or cut.
-/

namespace FixedLayout

/-- A decimal numeral of a number: one digit or more, perhaps behind one plus sign. -/
inductive Numeral : List Char → Nat → Prop where
  | plain {digits} (some : digits ≠ []) (digital : ∀ char ∈ digits, char.isDigit) :
      Numeral digits (Nat.ofDigitChars 10 digits 0)
  | signed {digits} (some : digits ≠ []) (digital : ∀ char ∈ digits, char.isDigit) :
      Numeral ('+' :: digits) (Nat.ofDigitChars 10 digits 0)

/-- The tree denotes the number: it is the number itself or a numeral of it. -/
inductive Json.Denotes : Json → Nat → Prop where
  | number {value : UInt64} : Denotes (.number (.unsigned value)) value.toNat
  | text {text n} (numeral : Numeral text.toList n) (small : n < 2 ^ 128) :
      Denotes (.string text) n

/-- The digits of a number are a numeral of it. -/
theorem numeral_digits (n : Nat) : Numeral (Json.Literal.digits n) n := by
  have numeral : Numeral (Json.Literal.digits n) (Nat.ofDigitChars 10 (Json.Literal.digits n) 0) :=
    .plain Nat.toDigits_ne_nil fun _ => Nat.isDigit_of_mem_toDigits (by decide) (by decide)
  rwa [Nat.ofDigitChars_ten_toDigits] at numeral

/-- A number below `2 ^ 128` is denoted by its tree. -/
theorem Json.denotes_ofNat {n : Nat} (small : n < 2 ^ 128) : (Json.ofNat n).Denotes n := by
  rw [ofNat]
  split
  · next narrow =>
      have number : (Json.number (.unsigned (.ofNat n))).Denotes (UInt64.ofNat n).toNat := .number
      rwa [UInt64.toNat_ofNat_of_lt' narrow] at number
  · refine .text ?_ small
    rw [Nat.toString_eq_repr, Nat.toList_repr]
    exact numeral_digits n

namespace Value

open Json.Literal

/-- Further digits do not make a number smaller. -/
theorem le_ofDigitChars (text : List Char) (value : Nat) :
    value ≤ Nat.ofDigitChars 10 text value := by
  rw [Nat.ofDigitChars_eq_ofDigitChars_zero]
  have := Nat.le_mul_of_pos_left value (Nat.pow_pos (n := text.length) (show 0 < 10 by decide))
  omega

/-- Digits are read one after the other as long as their number stays below `2 ^ 128`. -/
theorem readDigits_eq_ok_iff {value n : Nat} {text : List Char} (small : value < 2 ^ 128) :
    readDigits value text = .ok n ↔
      (∀ char ∈ text, char.isDigit) ∧ Nat.ofDigitChars 10 text value = n ∧ n < 2 ^ 128 := by
  induction text generalizing value with
  | nil =>
      rw [readDigits, Except.ok.injEq, Nat.ofDigitChars_nil]
      constructor
      · rintro rfl
        exact ⟨by simp, rfl, small⟩
      · rintro ⟨_, same, _⟩
        exact same
  | cons digit text inductionHypothesis =>
      rw [readDigits, isDigit_eq, List.forall_mem_cons, Nat.ofDigitChars_cons]
      by_cases digital : digit.isDigit
      · by_cases next : 10 * value + digitValue digit < 2 ^ 128
        · rw [if_pos digital]
          simp only [if_pos next, inductionHypothesis next, digital, true_and]
          rfl
        · rw [if_pos digital]
          simp only [if_neg next]
          constructor
          · intro impossible
            cases impossible
          · rintro ⟨_, rfl, bounded⟩
            exact absurd (Nat.lt_of_le_of_lt (le_ofDigitChars text _) bounded) next
      · rw [if_neg digital]
        constructor
        · intro impossible
          cases impossible
        · rintro ⟨⟨impossible, _⟩, _⟩
          exact absurd impossible digital

/-- A natural number is read from exactly the numerals of it. -/
theorem readNatural_eq_ok_iff {text : List Char} {n : Nat} :
    readNatural text = .ok n ↔ Numeral text n ∧ n < 2 ^ 128 := by
  have zero : 0 < 2 ^ 128 := by decide
  unfold readNatural
  split
  · constructor
    · intro impossible
      cases impossible
    · rintro ⟨⟨some, _⟩, _⟩
      exact absurd rfl some
  · constructor
    · intro impossible
      cases impossible
    · rintro ⟨⟨_, digital⟩ | ⟨some, _⟩, _⟩
      · exact absurd (digital '+' List.mem_cons_self) (by decide)
      · exact absurd rfl some
  · next digits more =>
      rw [readDigits_eq_ok_iff zero]
      constructor
      · rintro ⟨digital, rfl, small⟩
        exact ⟨.signed (fun none => more (none ▸ rfl)) digital, small⟩
      · rintro ⟨⟨_, digital⟩ | ⟨_, digital⟩, small⟩
        · exact absurd (digital '+' List.mem_cons_self) (by decide)
        · exact ⟨digital, rfl, small⟩
  · next empty _ signed =>
      rw [readDigits_eq_ok_iff zero]
      constructor
      · rintro ⟨digital, rfl, small⟩
        exact ⟨.plain empty digital, small⟩
      · rintro ⟨⟨_, digital⟩ | _, small⟩
        · exact ⟨digital, rfl, small⟩
        · exact absurd rfl (signed _)

/-- A number is read from exactly the trees that denote it. -/
theorem readInteger_eq_ok_iff {tree : Json} {n : Nat} :
    readInteger tree = .ok n ↔ tree.Denotes n := by
  cases tree with
  | number number =>
      cases number with
      | unsigned value =>
          rw [readInteger, Except.ok.injEq]
          constructor
          · rintro rfl
            exact .number
          · rintro ⟨⟩
            rfl
      | negative magnitude => exact ⟨nofun, nofun⟩
      | binary value => exact ⟨nofun, nofun⟩
  | string text =>
      rw [readInteger]
      rcases read : readNatural text.toList with fault | value
      · constructor
        · intro impossible
          cases impossible
        · rintro (_ | ⟨numeral, small⟩)
          rw [readNatural_eq_ok_iff.mpr ⟨numeral, small⟩] at read
          cases read
      · constructor
        · intro same
          cases same
          obtain ⟨numeral, small⟩ := readNatural_eq_ok_iff.mp read
          exact .text numeral small
        · rintro (_ | ⟨numeral, small⟩)
          rw [readNatural_eq_ok_iff.mpr ⟨numeral, small⟩] at read
          cases read
          rfl
  | null => exact ⟨nofun, nofun⟩
  | bool value => exact ⟨nofun, nofun⟩
  | array elements => exact ⟨nofun, nofun⟩
  | object members => exact ⟨nofun, nofun⟩

end Value

/-- A number is a word of a type when it fits. -/
theorem Word.ofNat?_eq_some_iff {type : FieldType} {value : Nat} {word : Word} :
    ofNat? type value = some word ↔ word.value = value ∧ word.type = type := by
  rw [ofNat?]
  constructor
  · intro made
    split at made
    · cases made
      exact ⟨rfl, rfl⟩
    · cases made
  · rintro ⟨rfl, rfl⟩
    exact dif_pos word.fits

namespace Value

/-- A word of a type is read from exactly the trees that denote its number. -/
theorem readWord_eq_ok_iff {type : FieldType} {tree : Json} {word : Word} :
    readWord type tree = .ok word ↔ tree.Denotes word.value ∧ word.type = type := by
  rw [readWord, bind_eq_ok_iff]
  simp only [readInteger_eq_ok_iff]
  constructor
  · rintro ⟨value, denotes, made⟩
    split at made
    · next fitting =>
        cases made
        obtain ⟨rfl, typed⟩ := Word.ofNat?_eq_some_iff.mp fitting
        exact ⟨denotes, typed⟩
    · cases made
  · rintro ⟨denotes, typed⟩
    refine ⟨word.value, denotes, ?_⟩
    rw [Word.ofNat?_eq_some_iff.mpr ⟨rfl, typed⟩]
    rfl

end Value

end FixedLayout
