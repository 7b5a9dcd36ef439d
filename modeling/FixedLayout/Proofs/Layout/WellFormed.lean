import FixedLayout.Layout.Declaration
import FixedLayout.Proofs.Layout.Lookup

/-!
# Well-formed layouts

`Layout.WellFormed` says what a declaration has to satisfy without saying how it
is checked, and `Layout.validate_eq_ok_iff` that the check accepts exactly that.
In a well-formed enum names and discriminants correspond.
-/

namespace FixedLayout

/-- No name is repeated exactly when the names are distinct and new. -/
theorem firstRepeat_eq_none_iff {seen names : List String} :
    firstRepeat seen names = none ↔ names.Nodup ∧ ∀ name ∈ names, name ∉ seen := by
  induction names generalizing seen with
  | nil => simp [firstRepeat]
  | cons name names inductionHypothesis =>
      rw [firstRepeat]
      by_cases known : name ∈ seen
      · simp [known]
      · rw [if_neg known, inductionHypothesis, List.nodup_cons]
        constructor
        · rintro ⟨distinct, fresh⟩
          refine ⟨⟨fun repeated => fresh name repeated List.mem_cons_self, distinct⟩, ?_⟩
          intro other member
          rcases List.mem_cons.mp member with rfl | member
          · exact known
          · exact fun seenBefore => fresh other member (List.mem_cons_of_mem _ seenBefore)
        · rintro ⟨⟨single, distinct⟩, fresh⟩
          refine ⟨distinct, fun other member seenBefore => ?_⟩
          rcases List.mem_cons.mp seenBefore with rfl | seenBefore
          · exact single member
          · exact fresh other (List.mem_cons_of_mem _ member) seenBefore

/-- The names of some fields tell them apart. -/
def DistinctFields (fields : List Field) : Prop := (fields.map Field.name).Nodup

/-- Fields are without a fault exactly if their names are distinct. -/
theorem fieldFault?_eq_none_iff {owner : String} {fields : List Field} :
    fieldFault? owner fields = none ↔ DistinctFields fields := by
  simp [fieldFault?, DistinctFields, firstRepeat_eq_none_iff]

/-- The fields of a variant, if it has any, are told apart by their names. -/
def Variant.WellFormed (variant : Variant) : Prop :=
  ∀ fields, variant.payload = some fields → DistinctFields fields

/-- A payload is without a fault exactly if its variant is well-formed. -/
theorem Variant.bind_fieldFault?_eq_none_iff (owner : String) (variant : Variant) :
    variant.payload.bind (fieldFault? owner) = none ↔ variant.WellFormed := by
  simp [Variant.WellFormed, Option.bind_eq_none_iff, fieldFault?_eq_none_iff]

namespace EnumLayout

/-- The discriminants suffice, the names of the variants are distinct, and so are the
names of the fields within each variant. -/
structure WellFormed (declared : EnumLayout) : Prop where
  length_le : declared.variants.length ≤ greatestCount
  distinct : (declared.variants.map Variant.name).Nodup
  variants : ∀ variant ∈ declared.variants, variant.WellFormed

/-- Variants behind names seen before are without a fault exactly if no name repeats and each
variant is well-formed. -/
theorem variantFault?_eq_none_iff {declared : EnumLayout} {seen : List String}
    {variants : List Variant} :
    declared.variantFault? seen variants = none ↔
      firstRepeat seen (variants.map Variant.name) = none ∧
        ∀ variant ∈ variants, variant.WellFormed := by
  induction variants generalizing seen with
  | nil => simp [variantFault?, firstRepeat]
  | cons variant variants inductionHypothesis =>
      rw [variantFault?, List.map_cons, firstRepeat]
      by_cases known : variant.name ∈ seen
      · simp [known]
      · rw [if_neg known, if_neg known]
        have own := Variant.bind_fieldFault?_eq_none_iff (declared.ownerName variant) variant
        rcases fault : variant.payload.bind (fieldFault? (declared.ownerName variant))
          with _ | found
        · have wellFormed : variant.WellFormed := own.mp fault
          simp [inductionHypothesis, wellFormed]
        · have malformed : ¬ variant.WellFormed := by
            intro wellFormed
            rw [own.mpr wellFormed] at fault
            cases fault
          simp [malformed]

/-- An enum is without a fault exactly if it is well-formed. -/
theorem fault?_eq_none_iff {declared : EnumLayout} :
    declared.fault? = none ↔ declared.WellFormed := by
  rw [fault?]
  by_cases tooMany : greatestCount < declared.variants.length
  · rw [if_pos tooMany]
    constructor
    · intro impossible
      cases impossible
    · intro wellFormed
      exact absurd wellFormed.length_le (Nat.not_le_of_lt tooMany)
  · rw [if_neg tooMany, variantFault?_eq_none_iff, firstRepeat_eq_none_iff]
    constructor
    · rintro ⟨⟨distinct, _⟩, variants⟩
      exact ⟨Nat.le_of_not_lt tooMany, distinct, variants⟩
    · intro wellFormed
      exact ⟨⟨wellFormed.distinct, by simp⟩, wellFormed.variants⟩

/-- Among distinct names every variant is the first one of its name. -/
theorem WellFormed.firstDeclared {declared : EnumLayout} (wellFormed : declared.WellFormed)
    {index : Nat} {variant : Variant} (here : declared.variants[index]? = some variant) :
    declared.FirstDeclared variant.name index variant where
  here := here
  named := rfl
  fresh := by
    intro earlier less other found same
    have names : (declared.variants.map Variant.name)[earlier]? =
        (declared.variants.map Variant.name)[index]? := by
      simp [found, here, same]
    have bound : earlier < (declared.variants.map Variant.name).length := by
      rw [List.length_map]
      exact (List.getElem?_eq_some_iff.mp found).1
    exact Nat.ne_of_lt less ((List.getElem?_inj bound wellFormed.distinct).mp names)

/-- Every variant of a well-formed enum is within the reach of one byte. -/
theorem WellFormed.reached {declared : EnumLayout} (wellFormed : declared.WellFormed)
    {index : Nat} {variant : Variant} (here : declared.variants[index]? = some variant) :
    index < greatestCount :=
  Nat.lt_of_lt_of_le (List.getElem?_eq_some_iff.mp here).1 wellFormed.length_le

/-- The fields of a variant of a well-formed enum are told apart by their names. -/
theorem WellFormed.distinctFields {declared : EnumLayout} (wellFormed : declared.WellFormed)
    {index : Nat} {variant : Variant} {fields : List Field}
    (here : declared.variants[index]? = some variant) (carries : variant.payload = some fields) :
    DistinctFields fields :=
  wellFormed.variants variant (List.mem_of_getElem? here) fields carries

/-- Among distinct names every variant is found, within the reach of one byte. -/
theorem WellFormed.exists_firstDeclared {declared : EnumLayout} (wellFormed : declared.WellFormed)
    {variant : Variant} (member : variant ∈ declared.variants) :
    ∃ index, declared.FirstDeclared variant.name index variant ∧ index < greatestCount := by
  obtain ⟨index, here⟩ := List.mem_iff_getElem?.mp member
  exact ⟨index, wellFormed.firstDeclared here, wellFormed.reached here⟩

/-- Among distinct names every variant is found under its own name, and nothing else is. -/
theorem WellFormed.exists_find_eq_ok_iff {declared : EnumLayout}
    (wellFormed : declared.WellFormed) {name : String} {variant : Variant} :
    (∃ tag, declared.find name = .ok (tag, variant)) ↔
      variant ∈ declared.variants ∧ variant.name = name := by
  constructor
  · rintro ⟨tag, found⟩
    have first := find_eq_ok_iff.mp found
    exact ⟨List.mem_of_getElem? first.here, first.named⟩
  · rintro ⟨member, rfl⟩
    obtain ⟨index, first, reached⟩ := wellFormed.exists_firstDeclared member
    exact ⟨UInt8.ofNat index, first.find_eq_ok reached⟩

/-- Among distinct names only those that no variant has are unknown. -/
theorem WellFormed.find_eq_error_iff {declared : EnumLayout} (wellFormed : declared.WellFormed)
    {name : String} {error : LayoutError} :
    declared.find name = .error error ↔
      error = .unknownVariant declared.name name ∧ name ∉ declared.variants.map Variant.name := by
  rw [EnumLayout.find_eq_error_iff]
  refine and_congr_right fun _ => ?_
  constructor
  · intro unreached declares
    obtain ⟨variant, member, rfl⟩ := List.mem_map.mp declares
    obtain ⟨index, first, reached⟩ := wellFormed.exists_firstDeclared member
    exact absurd reached (Nat.not_lt_of_le (unreached index variant first))
  · intro undeclared index variant first
    exact absurd (first.named ▸ List.mem_map_of_mem (List.mem_of_getElem? first.here)) undeclared

end EnumLayout

namespace Layout

/-- What a declaration has to satisfy. -/
def WellFormed : Layout → Prop
  | struct declared => DistinctFields declared.fields
  | enum declared => declared.WellFormed

/-- Validation accepts exactly the well-formed layouts. -/
theorem validate_eq_ok_iff {layout : Layout} : layout.validate = .ok () ↔ layout.WellFormed := by
  have faultless : layout.fault? = none ↔ layout.WellFormed := by
    cases layout with
    | struct declared => exact fieldFault?_eq_none_iff
    | enum declared => exact EnumLayout.fault?_eq_none_iff
  rw [← faultless, validate]
  cases layout.fault? <;> simp

end Layout

end FixedLayout
