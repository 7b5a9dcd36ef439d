import FixedLayout.Proofs.Registry.Registration
import FixedLayout.SizeTable

/-!
# Size tables of registries

The table of a registry is filled once, from all its layouts, and then answers by name
alone. A map that is filled keeps the last width of a repeated name, while a layout is
measured by the first declaration of a variant within the reach of one byte.
`SizeTable.measures_ofRegistry` says that nothing of this shows for the registries that
registration leads to: their names are distinct, and so are those of their variants.
-/

namespace FixedLayout

/-- The widths that a table keeps of the variants of an enum. -/
def EnumLayout.sizes (declared : EnumLayout) : List (String × Nat) :=
  declared.variants.map fun variant => (variant.name, variant.size)

namespace EnumLayout.WellFormed

variable {declared : EnumLayout}

/-- Among distinct names nothing that is kept of one variant replaces what is kept of another. -/
theorem settleMembers_variants {Kept : Type} (wellFormed : declared.WellFormed)
    (keep : Variant → Kept) :
    Json.settleMembers (declared.variants.map fun variant => (variant.name, keep variant)) =
      declared.variants.map fun variant => (variant.name, keep variant) := by
  apply Json.settleMembers_of_nodup
  rw [List.map_map]
  exact wellFormed.distinct

/-- Among distinct names no width replaces another. -/
theorem settleMembers_sizes (wellFormed : declared.WellFormed) :
    Json.settleMembers declared.sizes = declared.sizes :=
  wellFormed.settleMembers_variants Variant.size

/-- Among distinct names the width kept under a name is that of the variant found by it. -/
theorem lookup_sizes (wellFormed : declared.WellFormed) (name : String) :
    declared.sizes.lookup name = (declared.find name).toOption.map fun found => found.2.size := by
  have distinct : (declared.sizes.map Prod.fst).Nodup := by
    rw [sizes, List.map_map]
    exact wellFormed.distinct
  cases found : declared.find name with
  | ok result =>
      obtain ⟨tag, variant⟩ := result
      obtain ⟨member, rfl⟩ := wellFormed.exists_find_eq_ok_iff.mp ⟨tag, found⟩
      exact (lookup_eq_some_iff_mem distinct).mpr (List.mem_map_of_mem member)
  | error error =>
      have undeclared := (wellFormed.find_eq_error_iff.mp found).2
      rw [Except.toOption, Option.map_none, List.lookup_eq_none_iff]
      intro kept member
      obtain ⟨variant, declares, rfl⟩ := List.mem_map.mp member
      rw [bne_iff_ne]
      rintro rfl
      exact undeclared (List.mem_map_of_mem declares)

end EnumLayout.WellFormed

namespace SizeTable

/-- Where the widths of a well-formed layout are kept under its name, the table measures as the
layout does. -/
theorem sizeOf_of_lookup {table : SizeTable} {layout : Layout} (wellFormed : layout.WellFormed)
    (kept : table.types.lookup layout.name = some (TypeSizes.ofLayout layout))
    (variant : Option String) : table.sizeOf layout.name variant = layout.sizeOf variant := by
  cases layout with
  | struct declared => simp only [sizeOf, kept, TypeSizes.ofLayout, Layout.sizeOf]
  | enum declared =>
      have looked := EnumLayout.WellFormed.lookup_sizes wellFormed
      have settled := EnumLayout.WellFormed.settleMembers_sizes wellFormed
      rw [EnumLayout.sizes] at settled looked
      cases variant with
      | none => simp only [sizeOf, kept, TypeSizes.ofLayout, Layout.sizeOf]
      | some name =>
          simp only [sizeOf, kept, TypeSizes.ofLayout, Layout.sizeOf, settled, looked]
          cases found : declared.find name with
          | ok result => rfl
          | error error =>
              obtain ⟨rfl, _⟩ := (EnumLayout.WellFormed.find_eq_error_iff wellFormed).mp found
              rfl

/-- The table of a sound registry keeps the widths of every layout under its name. -/
theorem lookup_types_ofRegistry {registry : Registry} (sound : registry.Sound) (type : String) :
    (ofRegistry registry).types.lookup type = (registry.find? type).map TypeSizes.ofLayout := by
  have kept : registry.layouts.map (fun layout => (layout.name, TypeSizes.ofLayout layout)) =
      registry.types.map fun entry => (entry.1, TypeSizes.ofLayout entry.2) := by
    rw [Registry.layouts, List.map_map]
    refine List.map_congr_left fun entry member => ?_
    rw [Function.comp_apply, ← sound.keyed entry member]
  have distinct : ((registry.types.map fun entry =>
      (entry.1, TypeSizes.ofLayout entry.2)).map Prod.fst).Nodup := by
    rw [List.map_map]
    exact sound.distinct
  rw [ofRegistry, kept, Json.settleMembers_of_nodup distinct]
  exact lookup_map_value TypeSizes.ofLayout registry.types type

section Answers

variable {registry : Registry} {layout : Layout} {type : String}

/-- Under the name of a registered layout the table of a sound registry measures as the layout
does. -/
theorem sizeOf_ofRegistry (sound : registry.Sound) (member : layout ∈ registry.layouts)
    (variant : Option String) :
    (ofRegistry registry).sizeOf layout.name variant = layout.sizeOf variant := by
  have found := Registry.get_eq_ok_iff.mp (sound.get_eq_ok_iff.mpr ⟨member, rfl⟩)
  have kept := lookup_types_ofRegistry sound layout.name
  rw [found, Option.map_some] at kept
  exact sizeOf_of_lookup (sound.wellFormed member) kept variant

end Answers

/-- A layout that no registry accepts: its two variants have one name. -/
def twofold : EnumLayout := ⟨"Order", [⟨"Cancel", none⟩, ⟨"Cancel", some [⟨"size", .u32⟩]⟩]⟩

-- Without distinct names the table and the layout would differ.
example :
    (ofRegistry ⟨[("Order", .enum twofold)]⟩).sizeOf "Order" (some "Cancel") = .ok 5 ∧
      (Layout.enum twofold).sizeOf (some "Cancel") = .ok 1 :=
  ⟨rfl, rfl⟩

end SizeTable

end FixedLayout
