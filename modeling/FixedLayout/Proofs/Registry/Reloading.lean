import FixedLayout.Proofs.Registry.Registration
import FixedLayout.Proofs.Registry.Writing

/-!
# Registries are restored from their texts

The printed tree of a registry is one of the ways to write its layouts, so its text
describes them; and the layouts of a sound registry register again as that registry.
`Registry.reloads` states the round trip for every registry that a session can reach.
-/

namespace FixedLayout.Registry

/-- However the tree of a registry is printed, the text describes its layouts. -/
theorem layoutsOfText_print (registry : Registry) (spacing : Json.Spacing) :
    layoutsOfText (String.ofList (registry.tree.print spacing)) = .ok registry.layouts :=
  (writtenAs_layoutsTree registry.layouts).layoutsOfText_eq_ok
    (isText_print_layoutsTree registry.layouts spacing)

section Registering

variable {registry : Registry}

/-- A sound registry is that of its layouts. -/
theorem Sound.ofLayouts_layouts (sound : registry.Sound) :
    ofLayouts registry.layouts = .ok registry :=
  ofLayouts_eq_ok_iff_distinct.mpr
    ⟨⟨List.forall_mem_map.mpr sound.valid, sound.nodup_names⟩, sound.eq_holding⟩

/-- A sound registry holds the types that it holds. -/
theorem Sound.sameTypes_self (sound : registry.Sound) : registry.sameTypes registry :=
  sameTypes_of_perm sound.distinct (.refl _)

/-- However the tree of a sound registry is printed, the text restores it. -/
theorem Sound.ofText_print (sound : registry.Sound) (spacing : Json.Spacing) :
    ofText (String.ofList (registry.tree.print spacing)) = .ok registry :=
  ofText_eq_ok_iff.mpr
    ⟨registry.layouts, layoutsOfText_print registry spacing, sound.ofLayouts_layouts⟩

/-- The text of a sound registry restores it. -/
theorem Sound.ofText_text (sound : registry.Sound) : ofText registry.text = .ok registry :=
  sound.ofText_print (.indented 0)

end Registering

/-- Every reachable registry is restored from its text, with the same types in the same
order. So loading an accepted text, printing and loading again gives the same registry, and
printing that the same text. -/
theorem reloads :
    (∀ registry : Registry, registry.Reachable →
      ∃ again, ofText registry.text = .ok again ∧ again.sameTypes registry ∧
        again.types = registry.types) ∧
      ∀ text registry, ofText text = .ok registry →
        ∃ again, ofText registry.text = .ok again ∧ again = registry ∧
          again.text = registry.text := by
  constructor
  · intro registry reachable
    exact ⟨registry, reachable.sound.ofText_text, reachable.sound.sameTypes_self, rfl⟩
  · intro text registry loaded
    exact ⟨registry, (reachable_of_ofText loaded).sound.ofText_text, rfl, rfl⟩

/-- Names that are empty, quoted and broken over lines, and payloads that are absent and
without fields. -/
def oddlyNamed : Registry :=
  finish
    [.struct ⟨"", [⟨"\"", .u128⟩, ⟨"\\", .u8⟩]⟩,
      .enum ⟨"a\nb\u0000", [⟨"", none⟩, ⟨"é", some []⟩, ⟨"\t", some [⟨"", .u16⟩]⟩]⟩]
    empty

/-- Empty, quoted and broken names are reloaded from the text and from the tree. -/
theorem reloads_oddlyNamed :
    (∃ again, ofText oddlyNamed.text = .ok again ∧ again.sameTypes oddlyNamed ∧
      again.types = oddlyNamed.types) ∧
      ofText oddlyNamed.tree.compact = .ok oddlyNamed ∧
        ∃ again, ofText oddlyNamed.text = .ok again ∧ again = oddlyNamed ∧
          again.text = oddlyNamed.text := by
  have reachable : oddlyNamed.Reachable := Reachable.empty.finish _
  have loaded : ofText oddlyNamed.tree.compact = .ok oddlyNamed :=
    reachable.sound.ofText_print .compact
  exact ⟨reloads.1 oddlyNamed reachable, loaded, reloads.2 _ _ loaded⟩

end FixedLayout.Registry
