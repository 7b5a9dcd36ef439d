import FixedLayout.Proofs.Value.Reading

/-!
# Trees with their keys in another order

`Json.Reorders` relates a tree to the trees that have the same values under the same keys,
whatever the order of the keys in an object. `Layout.Conveys.reorder` shows that such trees
convey the same value. Only what they convey is claimed: a refusal may name another key.
-/

namespace FixedLayout

namespace Json

/-- A tree and another one whose objects have their keys in another order. -/
inductive Reorders : Json → Json → Prop where
  | same {tree} : Reorders tree tree
  | array {elements others} (length : elements.length = others.length)
      (each : ∀ (index : Nat) left right, elements[index]? = some left →
        others[index]? = some right → Reorders left right) :
      Reorders (.array elements) (.array others)
  | object {members others} (keys : (members.map Prod.fst).Perm (others.map Prod.fst))
      (each : ∀ key left right, members.lookup key = some left → others.lookup key = some right →
        Reorders left right) : Reorders (.object members) (.object others)

section Objects

variable {members others : List (String × Json)} {key : String} {left tree other : Json}

/-- An object in another order is still an object. -/
theorem Reorders.exists_object (reorders : (Json.object members).Reorders tree) :
    ∃ others, tree = .object others ∧ (Json.object members).Reorders (.object others) := by
  cases reorders with
  | same => exact ⟨members, rfl, .same⟩
  | object keys each => exact ⟨_, rfl, .object keys each⟩

/-- An object in another order has the same keys. -/
theorem Reorders.keys_perm (reorders : (Json.object members).Reorders (.object others)) :
    (members.map Prod.fst).Perm (others.map Prod.fst) := by
  cases reorders with
  | same => exact .refl _
  | object keys each => exact keys

/-- The same keys are found. -/
theorem Reorders.isSome_lookup_eq (reorders : (Json.object members).Reorders (.object others))
    (key : String) : (others.lookup key).isSome = (members.lookup key).isSome := by
  rw [Bool.eq_iff_iff, isSome_lookup_iff, isSome_lookup_iff]
  exact reorders.keys_perm.mem_iff.symm

/-- What is found under a key is found there in the other object, with its own keys in another
order. -/
theorem Reorders.exists_lookup (reorders : (Json.object members).Reorders (.object others))
    (found : members.lookup key = some left) :
    ∃ right, others.lookup key = some right ∧ left.Reorders right := by
  have known : (others.lookup key).isSome := by
    rw [reorders.isSome_lookup_eq, found]
    rfl
  obtain ⟨right, there⟩ := Option.isSome_iff_exists.mp known
  refine ⟨right, there, ?_⟩
  cases reorders with
  | same =>
      cases found.symm.trans there
      exact .same
  | object keys each => exact each key left right found there

/-- What is not found is not found in the other object. -/
theorem Reorders.lookup_eq_none (reorders : (Json.object members).Reorders (.object others))
    (absent : members.lookup key = none) : others.lookup key = none := by
  rw [← Option.isNone_iff_eq_none, ← Option.not_isSome, reorders.isSome_lookup_eq, absent]
  rfl

/-- What denotes a number has no keys, so it still does in any order of keys. -/
theorem Denotes.reorder {n : Nat} (denotes : tree.Denotes n) (reorders : tree.Reorders other) :
    other.Denotes n := by
  cases denotes with
  | number =>
      cases reorders
      exact .number
  | text numeral small =>
      cases reorders
      exact .text numeral small

/-- The same variant is chosen, with the fields in another order if they are given. -/
theorem Chooses.reorder {name : String} {given : Option (List (String × Json))}
    (chooses : tree.Chooses name given) (reorders : tree.Reorders other) :
    ∃ others, other.Chooses name others ∧ others.isSome = given.isSome ∧
      (Json.object (given.getD [])).Reorders (.object (others.getD [])) := by
  cases chooses with
  | name =>
      cases reorders
      exact ⟨none, .name, rfl, .same⟩
  | bare named absent =>
      obtain ⟨others, rfl, reorders⟩ := reorders.exists_object
      obtain ⟨_, renamed, kept⟩ := reorders.exists_lookup named
      cases kept
      exact ⟨none, .bare renamed (reorders.lookup_eq_none absent), rfl, .same⟩
  | filled named found =>
      obtain ⟨others, rfl, reorders⟩ := reorders.exists_object
      obtain ⟨_, renamed, kept⟩ := reorders.exists_lookup named
      cases kept
      obtain ⟨_, refound, filled⟩ := reorders.exists_lookup found
      obtain ⟨given, rfl, inner⟩ := filled.exists_object
      exact ⟨some given, .filled renamed refound, rfl, inner⟩

end Objects

end Json

/-- An object conveys the same entries when its keys stand in another order. -/
theorem Entries.Conveyed.reorder {members others : List (String × Json)} {fields : List Field}
    {entries : Entries} (conveyed : Conveyed members fields entries)
    (reorders : (Json.object members).Reorders (.object others)) :
    Conveyed others fields entries := by
  refine ⟨⟨?shape, ?denoted⟩, ?declared⟩
  case shape =>
    simp only [reorders.isSome_lookup_eq]
    exact conveyed.given.shape
  case denoted =>
    intro entry member
    obtain ⟨tree, found, denotes⟩ := conveyed.given.denoted entry member
    obtain ⟨other, refound, kept⟩ := reorders.exists_lookup found
    exact ⟨other, refound, denotes.reorder kept⟩
  case declared =>
    intro member written
    have key := reorders.keys_perm.mem_iff.mpr (List.mem_map_of_mem written)
    obtain ⟨original, present, same⟩ := List.mem_map.mp key
    rw [← same]
    exact conveyed.declared original present

/-- A tree conveys the same value when its keys stand in another order. -/
theorem Layout.Conveys.reorder {layout : Layout} {tree other : Json} {value : Value}
    (conveys : layout.Conveys tree value) (reorders : tree.Reorders other) :
    layout.Conveys other value := by
  cases conveys with
  | struct conveyed =>
      obtain ⟨others, rfl, reorders⟩ := reorders.exists_object
      exact .struct (conveyed.reorder reorders)
  | bare first reached chooses bare =>
      obtain ⟨others, chosen, given, _⟩ := chooses.reorder reorders
      rw [Option.isSome_none, Option.isSome_eq_false_iff, Option.isNone_iff_eq_none] at given
      subst given
      exact .bare first reached chosen bare
  | payload first reached chooses carries conveyed =>
      obtain ⟨others, chosen, _, inner⟩ := chooses.reorder reorders
      exact .payload first reached chosen carries (conveyed.reorder inner)

end FixedLayout
