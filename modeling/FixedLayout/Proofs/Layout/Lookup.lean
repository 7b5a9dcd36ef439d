import FixedLayout.Layout.Basic

/-!
# Looking variants up

A name stands for its first declaration, and a discriminant for the place of a
declaration. `EnumLayout.find_eq_ok_iff` states the search by name through
`FirstDeclared`, without the search: names may repeat, and a first declaration
beyond the reach of one byte is as good as none.
-/

namespace FixedLayout.EnumLayout

/-- The variant at `index` is the first one with the given name. -/
structure FirstDeclared (declared : EnumLayout) (name : String) (index : Nat)
    (variant : Variant) : Prop where
  here : declared.variants[index]? = some variant
  named : variant.name = name
  fresh : ∀ earlier < index, ∀ other, declared.variants[earlier]? = some other → other.name ≠ name

/-- A name has at most one first declaration. -/
theorem FirstDeclared.unique {declared : EnumLayout} {name : String} {left right : Nat}
    {leftVariant rightVariant : Variant} (first : declared.FirstDeclared name left leftVariant)
    (second : declared.FirstDeclared name right rightVariant) :
    left = right ∧ leftVariant = rightVariant := by
  have same : left = right := by
    rcases Nat.lt_trichotomy left right with less | same | greater
    · exact absurd first.named (second.fresh left less leftVariant first.here)
    · exact same
    · exact absurd second.named (first.fresh right greater rightVariant second.here)
  subst same
  exact ⟨rfl, Option.some.inj (first.here.symm.trans second.here)⟩

/-- A discriminant within the reach of one byte leads to one variant, and so to one name. -/
theorem FirstDeclared.eq_of_tag_eq {declared : EnumLayout} {leftName rightName : String}
    {left right : Nat} {leftVariant rightVariant : Variant}
    (first : declared.FirstDeclared leftName left leftVariant)
    (second : declared.FirstDeclared rightName right rightVariant)
    (leftReached : left < greatestCount) (rightReached : right < greatestCount)
    (same : UInt8.ofNat left = UInt8.ofNat right) :
    leftName = rightName ∧ left = right ∧ leftVariant = rightVariant := by
  have places := congrArg UInt8.toNat same
  rw [UInt8.toNat_ofNat_of_lt' leftReached, UInt8.toNat_ofNat_of_lt' rightReached] at places
  subst places
  have variants := Option.some.inj (first.here.symm.trans second.here)
  subst variants
  exact ⟨first.named.symm.trans second.named, rfl, rfl⟩

/-- The search by name stops at the first declaration. -/
theorem findIdx?_eq_some_iff {declared : EnumLayout} {name : String} {index : Nat} :
    (declared.variants.findIdx? fun variant => variant.name == name) = some index ↔
      ∃ variant, declared.FirstDeclared name index variant := by
  rw [List.findIdx?_eq_some_iff_getElem]
  constructor
  · rintro ⟨bound, named, fresh⟩
    refine ⟨declared.variants[index], List.getElem?_eq_getElem bound, by simpa using named, ?_⟩
    intro earlier less other found
    obtain ⟨_, rfl⟩ := List.getElem?_eq_some_iff.mp found
    simpa using fresh earlier less
  · rintro ⟨variant, here, named, fresh⟩
    obtain ⟨bound, rfl⟩ := List.getElem?_eq_some_iff.mp here
    refine ⟨bound, by simpa using named, ?_⟩
    intro earlier less
    simpa using fresh earlier less _ (List.getElem?_eq_getElem (Nat.lt_trans less bound))

/-- A name has a discriminant when its first declaration is within the reach of one byte. -/
theorem tag?_eq_some_iff {declared : EnumLayout} {name : String} {tag : UInt8} :
    declared.tag? name = some tag ↔ ∃ variant, declared.FirstDeclared name tag.toNat variant := by
  rw [← findIdx?_eq_some_iff, tag?]
  generalize (declared.variants.findIdx? fun variant => variant.name == name) = place
  cases place with
  | none => simp
  | some index =>
      by_cases reached : index < greatestCount
      · have back : (UInt8.ofNat index).toNat = index := UInt8.toNat_ofNat_of_lt' reached
        simp only [reached, if_true, Option.some.injEq, ← UInt8.toNat_inj, back]
      -- A place beyond the reach of one byte is no discriminant, so no tag wraps around.
      · have apart : index ≠ tag.toNat := by
          have := tag.toNat_lt
          simp only [greatestCount] at reached
          omega
        simp [reached, apart]

/-- Looking a name up yields its first declaration and the place of that declaration. -/
theorem find_eq_ok_iff {declared : EnumLayout} {name : String} {tag : UInt8} {variant : Variant} :
    declared.find name = .ok (tag, variant) ↔ declared.FirstDeclared name tag.toNat variant := by
  have place : ∀ {tag}, declared.tag? name = some tag ↔
      ∃ variant, declared.FirstDeclared name tag.toNat variant := tag?_eq_some_iff
  rw [find]
  rcases found : declared.tag? name with _ | known
  · constructor
    · intro impossible
      cases impossible
    · intro first
      rw [place.mpr ⟨variant, first⟩] at found
      cases found
  · obtain ⟨chosen, first⟩ := place.mp found
    have here : declared.variantAt? known = some chosen := first.here
    simp only [here, Except.ok.injEq, Prod.mk.injEq]
    constructor
    · rintro ⟨rfl, rfl⟩
      exact first
    · intro other
      obtain ⟨same, rfl⟩ := first.unique other
      exact ⟨UInt8.toNat_inj.mp same, rfl⟩

/-- The byte of a first declaration within its reach is the place of the declaration. -/
theorem FirstDeclared.here_ofNat {declared : EnumLayout} {name : String} {index : Nat}
    {variant : Variant} (first : declared.FirstDeclared name index variant)
    (reached : index < greatestCount) :
    declared.variants[(UInt8.ofNat index).toNat]? = some variant := by
  rw [UInt8.toNat_ofNat_of_lt' reached]
  exact first.here

/-- A first declaration within the reach of one byte is found. -/
theorem FirstDeclared.find_eq_ok {declared : EnumLayout} {name : String} {index : Nat}
    {variant : Variant} (first : declared.FirstDeclared name index variant)
    (reached : index < greatestCount) :
    declared.find name = .ok (UInt8.ofNat index, variant) := by
  have back : (UInt8.ofNat index).toNat = index := UInt8.toNat_ofNat_of_lt' reached
  rw [find_eq_ok_iff, back]
  exact first

/-- Looking a name up fails in one way only: no declaration of it is within reach. -/
theorem find_eq_error_iff {declared : EnumLayout} {name : String} {error : LayoutError} :
    declared.find name = .error error ↔
      error = .unknownVariant declared.name name ∧
        ∀ index variant, declared.FirstDeclared name index variant → greatestCount ≤ index := by
  rcases found : declared.find name with failure | ⟨tag, variant⟩
  · have absent : ∀ index variant, declared.FirstDeclared name index variant →
        greatestCount ≤ index := by
      intro index variant first
      apply Nat.le_of_not_lt
      intro reached
      rw [first.find_eq_ok reached] at found
      cases found
    have cause : failure = .unknownVariant declared.name name := by
      rw [find] at found
      split at found
      · exact (Except.error.inj found).symm
      · split at found
        · exact (Except.error.inj found).symm
        · cases found
    simp only [Except.error.injEq, cause]
    exact ⟨fun same => ⟨same.symm, absent⟩, fun refused => refused.1.symm⟩
  · constructor
    · intro impossible
      cases impossible
    · rintro ⟨_, absent⟩
      have reached := absent _ _ (find_eq_ok_iff.mp found)
      have small := tag.toNat_lt
      simp only [greatestCount] at reached
      omega

end FixedLayout.EnumLayout
