import FixedLayout.Proofs.Registry.Sizing

/-!
# The order of registration

Whether some layouts can be registered is settled by each layout on its own and by their
names, so it does not depend on their order, although a refusal may name another fault in
another order. `Registry.orderFree` says so, and that two registries of the same layouts
differ in nothing but the order in which they list them.
-/

namespace FixedLayout.Registry

/-- What two registries have in common that hold the same layouts, listed in any order. -/
structure Agree (left right : Registry) : Prop where
  /-- A name leads to the same layout or is unknown to both. -/
  get_eq : ∀ name, left.get name = right.get name
  contains_eq : ∀ name, left.contains name = right.contains name
  /-- Every width is the same, and so is the error where there is none. -/
  sizeOf_eq : ∀ type variant, (SizeTable.ofRegistry left).sizeOf type variant =
    (SizeTable.ofRegistry right).sizeOf type variant
  /-- Each of them compares equal to the other. -/
  sameTypes : left.sameTypes right ∧ right.sameTypes left
  /-- They list the same layouts. -/
  listed : left.layouts.Perm right.layouts

/-- Sound registries that list the same layouts agree. -/
theorem Sound.agree_of_perm {left right : Registry} (leftSound : left.Sound)
    (rightSound : right.Sound) (same : left.types.Perm right.types) : left.Agree right := by
  have find : ∀ name, left.find? name = right.find? name := fun name =>
    lookup_eq_of_perm leftSound.distinct same
  refine ⟨fun name => ?get_eq, fun name => ?contains_eq, fun type variant => ?sizeOf_eq,
    ⟨sameTypes_of_perm leftSound.distinct same, sameTypes_of_perm rightSound.distinct same.symm⟩,
    same.map Prod.snd⟩
  case get_eq => rw [get, get, find]
  case contains_eq => rw [contains, contains, find]
  case sizeOf_eq =>
    simp only [SizeTable.sizeOf, SizeTable.lookup_types_ofRegistry leftSound,
      SizeTable.lookup_types_ofRegistry rightSound, find]

/-- Layouts can be registered in one order exactly if they can in any other, namely if all of
them are valid and no two have one name. The two registries then agree, and each of them lists
the layouts in the order in which they were given to it. -/
theorem orderFree {layouts others : List Layout} (same : layouts.Perm others) :
    ((∃ registry, ofLayouts layouts = .ok registry) ↔
        ∃ registry, ofLayouts others = .ok registry) ∧
      ((∃ registry, ofLayouts layouts = .ok registry) ↔
        (∀ layout ∈ layouts, layout.validate = .ok ()) ∧ (layouts.map Layout.name).Nodup) ∧
      ∀ left right, ofLayouts layouts = .ok left → ofLayouts others = .ok right →
        left.Agree right ∧ left.layouts = layouts ∧ right.layouts = others := by
  have accepts : ∀ listed, (∃ registry, ofLayouts listed = .ok registry) ↔
      (∀ layout ∈ listed, layout.validate = .ok ()) ∧ (listed.map Layout.name).Nodup := by
    intro listed
    simp only [ofLayouts_eq_ok_iff_distinct, exists_and_left, exists_eq, and_true]
  refine ⟨?_, accepts layouts, ?_⟩
  · rw [accepts, accepts, (same.map Layout.name).nodup_iff]
    simp only [same.mem_iff]
  · intro left right leftHeld rightHeld
    have leftSound := (reachable_of_ofLayouts leftHeld).sound
    have rightSound := (reachable_of_ofLayouts rightHeld).sound
    obtain ⟨_, rfl⟩ := ofLayouts_eq_ok_iff_distinct.mp leftHeld
    obtain ⟨_, rfl⟩ := ofLayouts_eq_ok_iff_distinct.mp rightHeld
    exact ⟨leftSound.agree_of_perm rightSound (same.map _), layouts_holding layouts,
      layouts_holding others⟩

/-- A struct and an enum that is registered behind it. -/
def quoted : List Layout :=
  [.struct ⟨"Tick", [⟨"price", .u64⟩]⟩, .enum ⟨"Side", [⟨"Buy", none⟩, ⟨"Sell", some []⟩]⟩]

/-- Registered in the opposite order two layouts are listed in it, and nothing else differs. -/
theorem orderFree_quoted :
    quoted.Perm quoted.reverse ∧
      ∃ left right, ofLayouts quoted = .ok left ∧ ofLayouts quoted.reverse = .ok right ∧
        left.Agree right ∧ left.layouts ≠ right.layouts := by
  have same : quoted.Perm quoted.reverse := quoted.reverse_perm.symm
  obtain ⟨agree, listed, reversed⟩ :=
    (orderFree same).2.2 (holding quoted) (holding quoted.reverse) rfl rfl
  refine ⟨same, holding quoted, holding quoted.reverse, rfl, rfl, agree, ?_⟩
  rw [listed, reversed]
  decide

-- Which fault is reported does depend on the order.
example :
    ofLayouts (quoted ++ [.struct ⟨"Tick", []⟩, .struct ⟨"Pair", [⟨"a", .u8⟩, ⟨"a", .u8⟩]⟩]) =
        .error (.invalidSchema (.declaration (.repeatedType "Tick"))) ∧
      ofLayouts (quoted ++ [.struct ⟨"Pair", [⟨"a", .u8⟩, ⟨"a", .u8⟩]⟩, .struct ⟨"Tick", []⟩]) =
        .error (.invalidSchema (.declaration (.repeatedField "Pair" "a"))) :=
  ⟨rfl, rfl⟩

end FixedLayout.Registry
