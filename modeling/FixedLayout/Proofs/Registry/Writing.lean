import FixedLayout.Proofs.Attempts
import FixedLayout.Proofs.Json.Parsing
import FixedLayout.Registry.Text
import Mathlib.Data.List.Permutation

/-!
# The ways to write a registry

An object of a registry text may have its keys in any order, and further keys that are not
known to it. `Registry.WrittenAs` relates some layouts to all trees that differ in such ways
from the one that is printed of them. `Registry.WrittenAs.read` reads the same layouts from
each of these trees, and `Registry.loadsAlike` says that whatever is loaded from a text of
one of them, a refusal included, is loaded from every text of any other.
-/

namespace FixedLayout

namespace Registry

/-- Members among which the given ones stand in any order, and besides them only members under
keys that are not known. -/
inductive Scatters (known : List String) (given : List (String × Json)) :
    List (String × Json) → Prop where
  | among {members further} (unknown : ∀ member ∈ further, member.1 ∉ known)
      (order : members.Perm (given ++ further)) : Scatters known given members

section Scattering

variable {known : List String} {given members : List (String × Json)}

/-- Members are scattered where they stand. -/
theorem Scatters.refl (known : List String) (given : List (String × Json)) :
    Scatters known given given := by
  have unknown : ∀ member ∈ ([] : List (String × Json)), member.1 ∉ known := nofun
  exact .among unknown (by rw [List.append_nil])

/-- Known members are found as given, but for their order. -/
theorem Scatters.filter_perm (scattered : Scatters known given members)
    {wanted : String × Json → Bool} (within : ∀ member, wanted member = true → member.1 ∈ known) :
    (members.filter wanted).Perm (given.filter wanted) := by
  obtain ⟨unknown, order⟩ := scattered
  have kept := order.filter wanted
  rwa [List.filter_append, List.filter_eq_nil_iff.mpr fun member further found =>
    unknown member further (within member found), List.append_nil] at kept

/-- What is taken out of the members is taken out of the given ones. -/
theorem Scatters.filter (scattered : Scatters known given members)
    (kept : String × Json → Bool) : Scatters known (given.filter kept) (members.filter kept) := by
  cases scattered with
  | @among further unknown order =>
      have left : (members.filter kept).Perm (given.filter kept ++ further.filter kept) := by
        rw [← List.filter_append]
        exact order.filter kept
      exact .among (fun member further => unknown member (List.mem_filter.mp further).1) left

end Scattering

end Registry

open Registry (Scatters)

/-- A tree that a field may be written as. -/
inductive Field.WrittenAs (field : Field) : Json → Prop where
  | object {members}
      (scattered : Scatters ["name", "type"]
        [("name", .string field.name), ("type", .string field.type.name)] members) :
      WrittenAs field (.object members)

/-- A tree that a list of fields may be written as. -/
inductive Field.ListWrittenAs (fields : List Field) : Json → Prop where
  | array {elements} (each : List.Forall₂ Field.WrittenAs fields elements) :
      ListWrittenAs fields (.array elements)

/-- A tree that a variant may be written as. One without a payload has no fields or has null
in their place. -/
inductive Variant.WrittenAs (variant : Variant) : Json → Prop where
  | bare {members} (bare : variant.payload = none)
      (scattered : Scatters ["name", "fields"] [("name", .string variant.name)] members) :
      WrittenAs variant (.object members)
  | null {members} (bare : variant.payload = none)
      (scattered : Scatters ["name", "fields"]
        [("name", .string variant.name), ("fields", .null)] members) :
      WrittenAs variant (.object members)
  | payload {members fields tree} (carries : variant.payload = some fields)
      (written : Field.ListWrittenAs fields tree)
      (scattered : Scatters ["name", "fields"]
        [("name", .string variant.name), ("fields", tree)] members) :
      WrittenAs variant (.object members)

/-- A tree that a layout may be written as. The fields of a struct without fields may be left
out. -/
inductive Layout.WrittenAs : Layout → Json → Prop where
  | struct {declared tree members} (written : Field.ListWrittenAs declared.fields tree)
      (scattered : Scatters ["kind", "name", "fields"]
        [("kind", .string Kind.struct.name), ("name", .string declared.name), ("fields", tree)]
        members) :
      WrittenAs (.struct declared) (.object members)
  | withoutFields {declared members} (empty : declared.fields = [])
      (scattered : Scatters ["kind", "name", "fields"]
        [("kind", .string Kind.struct.name), ("name", .string declared.name)] members) :
      WrittenAs (.struct declared) (.object members)
  | enum {declared elements members}
      (each : List.Forall₂ Variant.WrittenAs declared.variants elements)
      (scattered : Scatters ["kind", "name", "variants"]
        [("kind", .string Kind.enum.name), ("name", .string declared.name),
          ("variants", .array elements)] members) :
      WrittenAs (.enum declared) (.object members)

namespace Registry

/-- A tree that a list of layouts may be written as. -/
inductive WrittenAs (layouts : List Layout) : Json → Prop where
  | array {elements} (each : List.Forall₂ Layout.WrittenAs layouts elements) :
      WrittenAs layouts (.array elements)

/-- The tree that is printed of a list of layouts. -/
def layoutsTree (layouts : List Layout) : Json := .array (layouts.map layoutTree)

section Printed

/-- The printed tree of a field is one that the field may be written as. -/
theorem writtenAs_fieldTree (field : Field) : field.WrittenAs (fieldTree field) :=
  .object (.refl _ _)

/-- The printed tree of some fields is one that they may be written as. -/
theorem listWrittenAs_fieldsTree (fields : List Field) :
    Field.ListWrittenAs fields (fieldsTree fields) :=
  .array (forall₂_map fun field _ => writtenAs_fieldTree field)

/-- The printed tree of a variant, with or without a payload, is one that it may be written as. -/
theorem writtenAs_variantTree (variant : Variant) : variant.WrittenAs (variantTree variant) := by
  obtain ⟨name, payload⟩ := variant
  cases payload with
  | none => exact .bare rfl (.refl _ _)
  | some fields => exact .payload rfl (listWrittenAs_fieldsTree fields) (.refl _ _)

/-- The printed tree of a layout is one that the layout may be written as. -/
theorem writtenAs_layoutTree (layout : Layout) : layout.WrittenAs (layoutTree layout) := by
  cases layout with
  | struct declared => exact .struct (listWrittenAs_fieldsTree declared.fields) (.refl _ _)
  | enum declared =>
      exact .enum (forall₂_map fun variant _ => writtenAs_variantTree variant) (.refl _ _)

/-- The printed tree is one of those that the layouts may be written as. -/
theorem writtenAs_layoutsTree (layouts : List Layout) :
    WrittenAs layouts (layoutsTree layouts) :=
  .array (forall₂_map fun layout _ => writtenAs_layoutTree layout)

end Printed

section Plainness

open Json (Plain)

variable {depth : Nat}

/-- The tree of a field nests one deep. -/
theorem plain_fieldTree (field : Field) : (fieldTree field).Plain (depth + 1) :=
  .object (by simp [Plain.string])

/-- The tree of some fields nests two deep. -/
theorem plain_fieldsTree (fields : List Field) : (fieldsTree fields).Plain (depth + 2) :=
  .array (List.forall_mem_map.mpr fun field _ => plain_fieldTree field)

/-- The tree of a variant nests three deep. -/
theorem plain_variantTree (variant : Variant) : (variantTree variant).Plain (depth + 3) := by
  obtain ⟨name, payload⟩ := variant
  refine .object ?_
  cases payload with
  | none => simp [Plain.string]
  | some fields => simp [Plain.string, plain_fieldsTree]

/-- The tree of a layout nests five deep. -/
theorem plain_layoutTree (layout : Layout) : (layoutTree layout).Plain (depth + 5) := by
  cases layout with
  | struct declared =>
      refine .object ?_
      simp [Plain.string, plain_fieldsTree]
  | enum declared =>
      have variants : (Json.array (declared.variants.map variantTree)).Plain (depth + 4) :=
        .array (List.forall_mem_map.mpr fun variant _ => plain_variantTree variant)
      refine .object ?_
      simp [Plain.string, variants]

/-- The printed tree of some layouts nests six deep. -/
theorem plain_layoutsTree (layouts : List Layout) : (layoutsTree layouts).Plain (depth + 6) :=
  .array (List.forall_mem_map.mpr fun layout _ => plain_layoutTree layout)

/-- However the tree of some layouts is printed, the print is a text of it. -/
theorem isText_print_layoutsTree (layouts : List Layout) (spacing : Json.Spacing) :
    (layoutsTree layouts).IsText (String.ofList ((layoutsTree layouts).print spacing)) := by
  have plain : (layoutsTree layouts).Plain (121 + 6) := plain_layoutsTree layouts
  exact plain.isText_print spacing

end Plainness

section Parts

variable {Component : Type} {reader : PartReader Component} {name : String} {tree : Json}
  {component : Component} {known : List String} {given members : List (String × Json)}

namespace PartReader

/-- Whether a part looks at a member. -/
def knows (reader : PartReader Component) (member : String × Json) : Bool :=
  member.1 == "name" || member.1 == reader.key

/-- The members that a part looks at are among the known ones, if both of its keys are. -/
theorem mem_of_knows (named : "name" ∈ known) (keyed : reader.key ∈ known)
    (member : String × Json) (looked : reader.knows member = true) : member.1 ∈ known := by
  simp only [knows, Bool.or_eq_true, beq_iff_eq] at looked
  obtain same | same := looked
  · rwa [same]
  · rwa [same]

/-- Only the members that a part looks at are read. -/
theorem foldlM_readMember_filter (members : List (String × Json))
    (found : Option String × Option Component) :
    (members.filter reader.knows).foldlM reader.readMember found =
      members.foldlM reader.readMember found := by
  refine foldlM_filter_of_skips (fun found member unknown => ?_) members found
  simp only [knows, Bool.or_eq_false_iff, beq_eq_false_iff_ne] at unknown
  rw [readMember, if_neg unknown.1, if_neg unknown.2]

/-- The first member with a name gives the name. -/
theorem readMember_name (found : Option Component) :
    reader.readMember (none, found) ("name", .string name) = .ok (some name, found) := rfl

/-- The first member with the key of the component gives the component. -/
theorem readMember_key (apart : reader.key ≠ "name")
    (success : reader.component tree = .ok component) (found : Option String) :
    reader.readMember (found, none) (reader.key, tree) = .ok (found, some component) := by
  rw [readMember, if_neg apart, if_pos rfl, success]
  rfl

/-- A part is read from an object with its name and its component, wherever they stand. -/
theorem read_of_both (apart : reader.key ≠ "name") (success : reader.component tree = .ok component)
    (scattered : Scatters known [("name", .string name), (reader.key, tree)] members)
    (named : "name" ∈ known) (keyed : reader.key ∈ known) :
    reader.read (.object members) = .ok (name, component) := by
  have looked := scattered.filter_perm (mem_of_knows named keyed)
  have both : members.foldlM reader.readMember (none, none) = .ok (some name, some component) := by
    rw [← foldlM_readMember_filter]
    simp only [knows, List.filter_cons, beq_self_eq_true, Bool.true_or, Bool.or_true, if_true,
      List.filter_nil] at looked
    obtain inOrder | swapped := List.perm_pair.mp looked
    · simp [inOrder, readMember_name, readMember_key apart success, bind, Except.bind, pure,
        Except.pure]
    · simp [swapped, readMember_name, readMember_key apart success, bind, Except.bind, pure,
        Except.pure]
  rw [read, ofMembers, both]
  rfl

/-- A part whose component may be absent is read from an object with its name only. -/
theorem read_of_name (default : reader.absent = some component)
    (scattered : Scatters known [("name", .string name)] members)
    (named : "name" ∈ known) (keyed : reader.key ∈ known) :
    reader.read (.object members) = .ok (name, component) := by
  have looked := scattered.filter_perm (mem_of_knows named keyed)
  have found : members.foldlM reader.readMember (none, none) = .ok (some name, none) := by
    rw [← foldlM_readMember_filter, List.perm_singleton.mp looked]
    rfl
  simp [read, ofMembers, found, default, bind, Except.bind, pure, Except.pure]

end PartReader

/-- A layout is read once its kind is found, from the members that are left without the kind. -/
theorem readLayout_of_scatters {kind : Kind} {layout : Layout}
    (scattered : Scatters known (("kind", .string kind.name) :: given) members)
    (kinded : "kind" ∈ known) (apart : ∀ member ∈ given, member.1 ≠ "kind")
    (body : ∀ left, Scatters known given left → readBody kind (.object left) = .ok layout) :
    readLayout (.object members) = .ok layout := by
  have skips : ∀ (found : Option Kind) (member : String × Json),
      (member.1 == "kind") = false → readKindMember found member = .ok found := by
    intro found member other
    exact if_neg (by simpa using other)
  have others : given.filter (fun member => member.1 == "kind") = [] :=
    List.filter_eq_nil_iff.mpr fun member own => by simpa using apart member own
  have within : ∀ member : String × Json, (member.1 == "kind") = true → member.1 ∈ known :=
    fun member same => by rwa [beq_iff_eq.mp same]
  have looked := scattered.filter_perm within
  have found : kindOfMembers members = .ok (some kind) := by
    rw [List.filter_cons_of_pos rfl, others, List.perm_singleton] at looked
    rw [kindOfMembers, ← foldlM_filter_of_skips skips, looked]
    cases kind <;> rfl
  have left := scattered.filter fun member => member.1 != "kind"
  rw [List.filter_cons_of_neg (by simp), List.filter_eq_self.mpr fun member own => by
    simpa using apart member own] at left
  rw [readLayout, found]
  exact body _ left

end Parts

end Registry

section Reading

open Registry

/-- The name of a type leads back to the type. -/
theorem Registry.readTypeName_name (type : FieldType) : readTypeName type.name = .ok type := by
  cases type <;> rfl

/-- A list is read from an array of trees if each part is read from its tree. -/
theorem Registry.readList_of_forall₂ {Part : Type} {readPart : Json → Shaped Part}
    {Written : Part → Json → Prop} {parts : List Part} {elements : List Json}
    (each : List.Forall₂ Written parts elements)
    (reads : ∀ part tree, Written part tree → readPart tree = .ok part) :
    readList readPart (.array elements) = .ok parts :=
  mapM_eq_ok_iff.mpr (each.imp reads).flip

/-- A field is read from every tree it may be written as. -/
theorem Field.WrittenAs.read {field : Field} {tree : Json} (written : field.WrittenAs tree) :
    readField tree = .ok field := by
  obtain ⟨scattered⟩ := written
  have typed : fieldReader.component (.string field.type.name) = .ok field.type :=
    readTypeName_name field.type
  have pair := PartReader.read_of_both (by decide) typed scattered (by decide) (by decide)
  rw [readField, pair]
  rfl

/-- Some fields are read from every tree they may be written as. -/
theorem Field.ListWrittenAs.read {fields : List Field} {tree : Json}
    (written : ListWrittenAs fields tree) : readList readField tree = .ok fields := by
  obtain ⟨each⟩ := written
  exact readList_of_forall₂ each fun _ _ written => written.read

/-- Without a payload there are no fields to read, or null in their place. -/
theorem Variant.WrittenAs.read {variant : Variant} {tree : Json}
    (written : variant.WrittenAs tree) : readVariant tree = .ok variant := by
  obtain ⟨name, payload⟩ := variant
  cases written with
  | bare bare scattered =>
      cases bare
      have absent : variantReader.absent = some none := rfl
      have single := PartReader.read_of_name absent scattered (by decide) (by decide)
      rw [readVariant, single]
      rfl
  | null bare scattered =>
      cases bare
      have nothing : variantReader.component .null = .ok none := rfl
      have pair := PartReader.read_of_both (by decide) nothing scattered (by decide) (by decide)
      rw [readVariant, pair]
      rfl
  | @payload _ fields tree carries written scattered =>
      cases carries
      have listed : variantReader.component tree = .ok (some fields) := by
        obtain ⟨each⟩ := written
        exact congrArg (Except.map some) (Field.ListWrittenAs.array each).read
      have pair := PartReader.read_of_both (by decide) listed scattered (by decide) (by decide)
      rw [readVariant, pair]
      rfl

/-- A layout is read from every tree it may be written as. -/
theorem Layout.WrittenAs.read {layout : Layout} {tree : Json} (written : layout.WrittenAs tree) :
    readLayout tree = .ok layout := by
  cases written with
  | @struct declared tree _ written scattered =>
      refine readLayout_of_scatters scattered (by decide) (by simp) fun left body => ?_
      have listed : structReader.component tree = .ok declared.fields := written.read
      have pair := PartReader.read_of_both (by decide) listed body (by decide) (by decide)
      rw [readBody, pair]
      rfl
  | @withoutFields declared _ empty scattered =>
      refine readLayout_of_scatters scattered (by decide) (by simp) fun left body => ?_
      have absent : structReader.absent = some declared.fields := congrArg some empty.symm
      have single := PartReader.read_of_name absent body (by decide) (by decide)
      rw [readBody, single]
      rfl
  | @enum declared elements _ each scattered =>
      refine readLayout_of_scatters scattered (by decide) (by simp) fun left body => ?_
      have listed : enumReader.component (.array elements) = .ok declared.variants :=
        readList_of_forall₂ each fun _ _ written => written.read
      have pair := PartReader.read_of_both (by decide) listed body (by decide) (by decide)
      rw [readBody, pair]
      rfl

/-- The layouts are read from every tree that they may be written as. -/
theorem Registry.WrittenAs.read {layouts : List Layout} {tree : Json}
    (written : WrittenAs layouts tree) : readLayouts tree = .ok layouts := by
  obtain ⟨each⟩ := written
  exact readList_of_forall₂ each fun _ _ written => written.read

end Reading

namespace Registry

variable {layouts : List Layout} {tree : Json}

/-- A text of any of the trees describes the layouts. -/
theorem WrittenAs.layoutsOfText_eq_ok {text : String} (written : WrittenAs layouts tree)
    (isText : tree.IsText text) : layoutsOfText text = .ok layouts := by
  rw [layoutsOfText, isText.parse_eq_ok]
  change layoutsOfTree tree = _
  rw [layoutsOfTree, written.read]

/-- The text of a tree that some layouts may be written as is loaded as the layouts are. -/
theorem WrittenAs.ofText_eq {text : String} (written : WrittenAs layouts tree)
    (isText : tree.IsText text) : ofText text = ofLayouts layouts := by
  rw [ofText, written.layoutsOfText_eq_ok isText]
  rfl

/-- A tree that some layouts may be written as is loaded as the layouts are. -/
theorem WrittenAs.ofTree_eq (written : WrittenAs layouts tree) :
    ofTree tree = ofLayouts layouts := by
  rw [ofTree, layoutsOfTree, written.read]
  rfl

/-- Loading a changed tree gives what loading the original one gives: the same registry, with its
layouts in the same order, or the same error. -/
structure LoadsLike (original changed : Json) : Prop where
  tree : ofTree changed = ofTree original
  texts : ∀ text changedText, original.IsText text → changed.IsText changedText →
    ofText changedText = ofText text

/-- Every tree that some layouts may be written as loads like the one that is printed of them,
whether or not the layouts can be registered. -/
theorem loadsAlike (written : WrittenAs layouts tree) :
    (∀ spacing, (layoutsTree layouts).IsText
        (String.ofList ((layoutsTree layouts).print spacing))) ∧
      ofTree (layoutsTree layouts) = ofLayouts layouts ∧
        LoadsLike (layoutsTree layouts) tree := by
  have printed := writtenAs_layoutsTree layouts
  refine ⟨isText_print_layoutsTree layouts, printed.ofTree_eq, ⟨?tree, ?texts⟩⟩
  case tree => rw [written.ofTree_eq, printed.ofTree_eq]
  case texts =>
    intro text changedText isText changedIsText
    rw [written.ofText_eq changedIsText, printed.ofText_eq isText]

/-- A struct without fields, and an enum with a bare variant. -/
def sparse : List Layout :=
  [.struct ⟨"Empty", []⟩, .enum ⟨"Order", [⟨"Cancel", none⟩, ⟨"Limit", some [⟨"price", .u64⟩]⟩]⟩]

/-- The sparse layouts with their kinds last. Each object has a further key that an object of
another sort knows. -/
def sparseRearranged : Json :=
  .array
    [.object [("variants", .null), ("name", .string "Empty"), ("kind", .string "struct")],
      .object
        [("fields", .array []),
          ("variants", .array
            [.object [("type", .bool true), ("fields", .null), ("name", .string "Cancel")],
              .object
                [("kind", .string "struct"),
                  ("fields", .array
                    [.object
                      [("fields", .null), ("type", .string "u64"), ("name", .string "price")]]),
                  ("name", .string "Limit")]]),
          ("name", .string "Order"), ("kind", .string "enum")]]

/-- The rearranged tree is one that the sparse layouts may be written as. -/
theorem writtenAs_sparseRearranged : WrittenAs sparse sparseRearranged := by
  have empty : (Layout.struct ⟨"Empty", []⟩).WrittenAs _ :=
    .withoutFields rfl (.among (by decide) (List.reverse_perm [_, _, ("variants", .null)]))
  have cancel : Variant.WrittenAs ⟨"Cancel", none⟩ _ :=
    .null rfl (.among (by decide) (List.reverse_perm [_, _, ("type", .bool true)]))
  have price : Field.WrittenAs ⟨"price", .u64⟩ _ :=
    .object (.among (by decide) (List.reverse_perm [_, _, ("fields", .null)]))
  have limit : Variant.WrittenAs ⟨"Limit", some [⟨"price", .u64⟩]⟩ _ :=
    .payload rfl (.array (.cons price .nil))
      (.among (by decide) (List.reverse_perm [_, _, ("kind", .string "struct")]))
  have order : (Layout.enum ⟨"Order", _⟩).WrittenAs _ :=
    .enum (.cons cancel (.cons limit .nil))
      (.among (by decide) (List.reverse_perm [_, _, _, ("fields", .array [])]))
  exact .array (.cons empty (.cons order .nil))

/-- The rearranged tree is loaded like the printed one, and both yield the sparse layouts. -/
theorem loadsAlike_rearranged :
    WrittenAs sparse sparseRearranged ∧ LoadsLike (layoutsTree sparse) sparseRearranged ∧
      ∃ registry, ofTree sparseRearranged = .ok registry ∧ registry.layouts = sparse := by
  obtain ⟨-, original, alike⟩ := loadsAlike writtenAs_sparseRearranged
  exact ⟨writtenAs_sparseRearranged, alike, _, alike.tree.trans original, rfl⟩

end Registry

end FixedLayout
