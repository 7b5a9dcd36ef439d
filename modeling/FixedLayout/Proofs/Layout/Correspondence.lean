import FixedLayout.Proofs.Layout.WellFormed
import Mathlib.Data.List.NodupEquivFin
import Mathlib.Order.Bounds.Basic

/-!
# Names and discriminants

In any enum, valid or not, a name stands for the least of its places, if one byte reaches it, so
that no place is ever wrapped around. In a valid enum looking a name up and looking a
discriminant up are inverse to each other, and `EnumLayout.numbering` counts the names through.
-/

namespace FixedLayout.EnumLayout

/-- The places at which a variant with the given name is declared. -/
def places (declared : EnumLayout) (name : String) : Set Nat :=
  {place | ∃ variant, declared.variants[place]? = some variant ∧ variant.name = name}

variable {declared : EnumLayout} {name : String} {index : Nat}

/-- The first declaration of a name stands at the least of its places. -/
theorem isLeast_places_iff :
    IsLeast (declared.places name) index ↔
      ∃ variant, declared.FirstDeclared name index variant := by
  constructor
  · rintro ⟨⟨variant, here, named⟩, least⟩
    refine ⟨variant, here, named, ?_⟩
    intro earlier less other found same
    exact absurd (least ⟨other, found, same⟩) (Nat.not_le_of_lt less)
  · rintro ⟨variant, first⟩
    refine ⟨⟨variant, first.here, first.named⟩, ?_⟩
    rintro place ⟨other, found, same⟩
    exact Nat.le_of_not_lt fun less => first.fresh place less other found same

/-- A name has the least of its places as its discriminant, if one byte reaches it. -/
theorem map_tag?_eq_some_iff :
    (declared.tag? name).map UInt8.toNat = some index ↔
      index ≤ 255 ∧ IsLeast (declared.places name) index := by
  rw [isLeast_places_iff, Option.map_eq_some_iff]
  simp only [tag?_eq_some_iff]
  constructor
  · rintro ⟨tag, first, rfl⟩
    exact ⟨Nat.le_of_lt_succ tag.toNat_lt, first⟩
  · rintro ⟨reached, first⟩
    have back : (UInt8.ofNat index).toNat = index :=
      UInt8.toNat_ofNat_of_lt' (Nat.lt_succ_of_le reached)
    exact ⟨UInt8.ofNat index, by rwa [back], back⟩

/-- A name with a discriminant is found, where its discriminant leads to. -/
theorem exists_find_eq_ok {tag : UInt8} (known : declared.tag? name = some tag) :
    ∃ variant, declared.variantAt? tag = some variant ∧
      declared.find name = .ok (tag, variant) := by
  obtain ⟨variant, first⟩ := tag?_eq_some_iff.mp known
  exact ⟨variant, first.here, find_eq_ok_iff.mpr first⟩

/-- A name without a discriminant is unknown. -/
theorem find_eq_error (unknown : declared.tag? name = none) :
    declared.find name = .error (.unknownVariant declared.name name) := by
  rw [find, unknown]

/-- A name that is first declared out of reach of one byte has no discriminant. -/
theorem tag?_eq_none (least : IsLeast (declared.places name) index) (beyond : 256 ≤ index) :
    declared.tag? name = none := by
  cases known : declared.tag? name with
  | none => rfl
  | some tag =>
      have place : (declared.tag? name).map UInt8.toNat = some tag.toNat := by rw [known]; rfl
      obtain ⟨reached, other⟩ := map_tag?_eq_some_iff.mp place
      have same := least.unique other
      omega

/-- In a valid enum every name has its place as its discriminant. -/
theorem WellFormed.map_tag?_eq (wellFormed : declared.WellFormed) {variant : Variant}
    (here : declared.variants[index]? = some variant) :
    (declared.tag? variant.name).map UInt8.toNat = some index :=
  map_tag?_eq_some_iff.mpr ⟨Nat.le_of_lt_succ (wellFormed.reached here),
    isLeast_places_iff.mpr ⟨variant, wellFormed.firstDeclared here⟩⟩

/-- In a valid enum a discriminant leads to a variant exactly if the name of the variant leads
back to it. -/
theorem WellFormed.variantAt?_eq_some_iff (wellFormed : declared.WellFormed) {tag : UInt8}
    {variant : Variant} (member : variant ∈ declared.variants) :
    declared.variantAt? tag = some variant ↔ declared.tag? variant.name = some tag := by
  constructor
  · intro here
    exact tag?_eq_some_iff.mpr ⟨variant, wellFormed.firstDeclared here⟩
  · intro known
    obtain ⟨other, first⟩ := tag?_eq_some_iff.mp known
    obtain ⟨place, own, _⟩ := wellFormed.exists_firstDeclared member
    obtain ⟨_, rfl⟩ := first.unique own
    exact first.here

/-- The numbering of distinct names by their places. -/
def numbering (distinct : (declared.variants.map Variant.name).Nodup) :
    {name // name ∈ declared.variants.map Variant.name} ≃ Fin declared.variants.length :=
  distinct.getEquiv.symm.trans (finCongr (List.length_map _))

/-- In a valid enum the discriminants are the numbers of the names. -/
theorem WellFormed.map_tag?_eq_numbering (wellFormed : declared.WellFormed)
    (name : {name // name ∈ declared.variants.map Variant.name}) :
    (declared.tag? name.val).map UInt8.toNat =
      some (numbering wellFormed.distinct name).val := by
  obtain ⟨place, rfl⟩ := (numbering wellFormed.distinct).symm.surjective name
  have here := wellFormed.map_tag?_eq (List.getElem?_eq_getElem place.isLt)
  have named : ((numbering wellFormed.distinct).symm place).val =
      declared.variants[place.val].name := by
    simp [numbering]
  rw [Equiv.apply_symm_apply, named, here]

/-- What lookups in any enum yield, whatever names repeat and however many there are. -/
structure LooksUpFirst (declared : EnumLayout) : Prop where
  /-- A name has a discriminant exactly if the least of its places is at most 255, and then the
  discriminant is that place. -/
  tag?_iff : ∀ name index, (declared.tag? name).map UInt8.toNat = some index ↔
    index ≤ 255 ∧ IsLeast (declared.places name) index
  /-- Then the name is found, with its discriminant and the variant that this leads to. -/
  found : ∀ name tag, declared.tag? name = some tag → ∃ variant,
    declared.variantAt? tag = some variant ∧ declared.find name = .ok (tag, variant)
  /-- Every other name is unknown. -/
  unknown : ∀ name, declared.tag? name = none →
    declared.find name = .error (.unknownVariant declared.name name)
  /-- Such is a name that is declared, but at place 256 or later for the first time. -/
  beyond : ∀ name index, IsLeast (declared.places name) index → 256 ≤ index →
    declared.tag? name = none

/-- What lookups in a valid enum yield. -/
structure Corresponds (declared : EnumLayout) : Prop where
  /-- Lookups by name and by discriminant are inverse. -/
  inverse : ∀ tag, ∀ variant ∈ declared.variants,
    declared.variantAt? tag = some variant ↔ declared.tag? variant.name = some tag
  /-- The discriminants number the declared names from 0 on without a gap. -/
  numbered : ∃ numbering : {name // name ∈ declared.variants.map Variant.name} ≃
    Fin declared.variants.length, ∀ name,
      (declared.tag? name.val).map UInt8.toNat = some (numbering name).val

/-- Every enum looks names up at the least of their places. -/
theorem looksUpFirst (declared : EnumLayout) : declared.LooksUpFirst where
  tag?_iff := fun _ _ => map_tag?_eq_some_iff
  found := fun _ _ known => exists_find_eq_ok known
  unknown := fun _ unknown => find_eq_error unknown
  beyond := fun _ _ least beyond => tag?_eq_none least beyond

/-- In a well-formed enum names and discriminants correspond. -/
theorem WellFormed.corresponds (wellFormed : declared.WellFormed) : declared.Corresponds where
  inverse := fun _ _ member => wellFormed.variantAt?_eq_some_iff member
  numbered := ⟨numbering wellFormed.distinct, wellFormed.map_tag?_eq_numbering⟩

/-- In any enum a name leads to its first place or, if one byte does not reach that, nowhere. In a
valid enum names and discriminants correspond. -/
theorem looksUpFirst_and_corresponds (declared : EnumLayout) :
    declared.LooksUpFirst ∧ ((Layout.enum declared).validate = .ok () → declared.Corresponds) :=
  ⟨looksUpFirst declared, fun valid => (Layout.validate_eq_ok_iff.mp valid).corresponds⟩

/-- An enum with as many variants as one byte tells apart. -/
def full : EnumLayout where
  name := "Full"
  variants := (List.range 256).map fun place => ⟨String.ofList (List.replicate place 'V'), none⟩

/-- Names of different lengths are distinct, so the full enum is well-formed. -/
theorem wellFormed_full : full.WellFormed where
  length_le := by simp [full, greatestCount]
  distinct := by
    have injective : Function.Injective fun place => String.ofList (List.replicate place 'V') := by
      intro left right same
      simpa using congrArg String.length same
    simpa [full, Function.comp_def] using (List.nodup_range (n := 256)).map injective
  variants := by
    intro variant member fields carries
    obtain ⟨_, _, rfl⟩ := List.mem_map.mp member
    cases carries

/-- The last of 256 variants has the discriminant 255. -/
theorem looksUpFirst_and_corresponds_full :
    (Layout.enum full).validate = .ok () ∧ full.Corresponds ∧
      full.tag? (String.ofList (List.replicate 255 'V')) = some 255 := by
  have valid : (Layout.enum full).validate = .ok () := Layout.validate_eq_ok_iff.mpr wellFormed_full
  have corresponds := (looksUpFirst_and_corresponds full).2 valid
  have last : full.variantAt? 255 = some ⟨String.ofList (List.replicate 255 'V'), none⟩ := rfl
  exact ⟨valid, corresponds, (corresponds.inverse 255 _ (List.mem_of_getElem? last)).mp last⟩

-- A name that comes after 256 variants, repeated ones included, has no discriminant, not even 0.
example :
    (⟨"Crowded", List.replicate 256 ⟨"Early", none⟩ ++ [⟨"Late", none⟩]⟩ : EnumLayout).find "Late" =
      .error (.unknownVariant "Crowded" "Late") := by decide +kernel

end FixedLayout.EnumLayout
