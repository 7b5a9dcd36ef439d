import FixedLayout.Proofs.Layout.Lookup
import FixedLayout.Proofs.Members
import FixedLayout.Proofs.Value.Entries
import FixedLayout.Proofs.Value.Numerals

/-!
# What a tree conveys

`Layout.Conveys` relates a tree to the value that it describes under a layout. It is
written without the reader: a variant is chosen by its name, and an entry stands for each
declared field that is a key, in declaration order. `Value.ofTree_eq_ok_iff` shows that
reading yields exactly the conveyed value. Nothing requires a layout to be well formed or
the keys of an object to be distinct; of a repeated key the first member counts.
-/

namespace FixedLayout

namespace Entries

/-- The entries that the members of an object give for some fields: for every field whose
name is a key, in declaration order, a word of its type with the number that the member
denotes. -/
structure Given (members : List (String × Json)) (fields : List Field) (entries : Entries) :
    Prop where
  shape : entries.shape = fields.filter fun field => (members.lookup field.name).isSome
  denoted : ∀ entry ∈ entries, ∃ tree, members.lookup entry.1 = some tree ∧
    tree.Denotes entry.2.value

/-- The entries that an object conveys for some fields. All of its keys are declared. -/
structure Conveyed (members : List (String × Json)) (fields : List Field) (entries : Entries) :
    Prop where
  given : Given members fields entries
  declared : ∀ member ∈ members, member.1 ∈ fields.map Field.name

section Fields

variable {members : List (String × Json)} {field : Field} {fields : List Field} {tree : Json}
  {entries : Entries}

/-- A field that is no key is left out. -/
theorem given_cons_of_absent (absent : members.lookup field.name = none) :
    Given members (field :: fields) entries ↔ Given members fields entries := by
  have leftOut : ((field :: fields).filter fun field => (members.lookup field.name).isSome) =
      fields.filter fun field => (members.lookup field.name).isSome := by
    rw [List.filter_cons_of_neg (by simp [absent])]
  constructor
  · rintro ⟨shape, denoted⟩
    exact ⟨shape.trans leftOut, denoted⟩
  · rintro ⟨shape, denoted⟩
    exact ⟨shape.trans leftOut.symm, denoted⟩

/-- A field that is a key has the first entry. -/
theorem given_cons_of_found (found : members.lookup field.name = some tree) :
    Given members (field :: fields) entries ↔
      ∃ word others, entries = (field.name, word) :: others ∧ tree.Denotes word.value ∧
        word.type = field.type ∧ Given members fields others := by
  have kept : ((field :: fields).filter fun field => (members.lookup field.name).isSome) =
      field :: fields.filter fun field => (members.lookup field.name).isSome := by
    rw [List.filter_cons_of_pos (by simp [found])]
  constructor
  · rintro ⟨shape, denoted⟩
    rw [kept] at shape
    obtain ⟨word, others, rfl, typed, shown⟩ := shape_eq_cons_iff.mp shape
    obtain ⟨⟨own, same, denotes⟩, behind⟩ := List.forall_mem_cons.mp denoted
    cases found.symm.trans same
    exact ⟨word, others, rfl, denotes, typed, shown, behind⟩
  · rintro ⟨word, others, rfl, denotes, typed, shown, behind⟩
    refine ⟨?_, List.forall_mem_cons.mpr ⟨⟨tree, found, denotes⟩, behind⟩⟩
    rw [kept, shape_cons, shown, typed]

/-- An object without members conveys no entries. -/
theorem conveyed_nil_iff : Conveyed [] fields entries ↔ entries = [] := by
  have nothing : (fields.filter fun field =>
      (([] : List (String × Json)).lookup field.name).isSome) = [] :=
    List.filter_eq_nil_iff.mpr (by simp)
  constructor
  · intro conveyed
    exact shape_eq_nil_iff.mp (conveyed.given.shape.trans nothing)
  · rintro rfl
    exact ⟨⟨nothing.symm, by simp⟩, by simp⟩

end Fields

end Entries

namespace Json

/-- A tree chooses a variant by its name, and may give an object of fields. -/
inductive Chooses : Json → String → Option (List (String × Json)) → Prop where
  | name {variant} : Chooses (.string variant) variant none
  | bare {members variant} (named : members.lookup "variant" = some (.string variant))
      (absent : members.lookup "fields" = none) : Chooses (.object members) variant none
  | filled {members variant given} (named : members.lookup "variant" = some (.string variant))
      (found : members.lookup "fields" = some (.object given)) :
      Chooses (.object members) variant (some given)

end Json

/-- The value that a tree conveys under a layout. The payload of a variant may be left out of
the tree, which then gives no field of it; for a variant without payload it has to be. -/
inductive Layout.Conveys : Layout → Json → Value → Prop where
  | struct {declared members entries}
      (conveyed : Entries.Conveyed members declared.fields entries) :
      Conveys (.struct declared) (.object members) (.struct entries)
  | bare {declared tree name index variant}
      (first : declared.FirstDeclared name index variant) (reached : index < 256)
      (chooses : tree.Chooses name none) (bare : variant.payload = none) :
      Conveys (.enum declared) tree (.enum name none)
  | payload {declared tree name index variant given fields entries}
      (first : declared.FirstDeclared name index variant) (reached : index < 256)
      (chooses : tree.Chooses name given) (carries : variant.payload = some fields)
      (conveyed : Entries.Conveyed (given.getD []) fields entries) :
      Conveys (.enum declared) tree (.enum name (some entries))

namespace Value

section Reading

variable {members : List (String × Json)} {owner : String} {fields : List Field}
  {entries : Entries}

/-- The declared fields among the members are read as the entries that are given. -/
theorem readDeclared_eq_ok_iff :
    readDeclared owner members fields = .ok entries ↔ Entries.Given members fields entries := by
  induction fields generalizing entries with
  | nil =>
      rw [readDeclared, Except.ok.injEq]
      constructor
      · rintro rfl
        exact ⟨rfl, by simp⟩
      · intro given
        exact (Entries.shape_eq_nil_iff.mp given.shape).symm
  | cons field fields inductionHypothesis =>
      rw [readDeclared]
      rcases found : members.lookup field.name with _ | tree
      · rw [Entries.given_cons_of_absent found]
        exact inductionHypothesis
      · rw [Entries.given_cons_of_found found]
        simp only
        rcases read : readWord field.type tree with fault | word
        · constructor
          · intro impossible
            cases impossible
          · rintro ⟨word, others, _, denotes, typed, _⟩
            rw [readWord_eq_ok_iff.mpr ⟨denotes, typed⟩] at read
            cases read
        · obtain ⟨denotes, typed⟩ := readWord_eq_ok_iff.mp read
          simp only [bind_eq_ok_iff, inductionHypothesis]
          constructor
          · rintro ⟨others, given, same⟩
            cases same
            exact ⟨word, others, rfl, denotes, typed, given⟩
          · rintro ⟨other, others, rfl, otherDenotes, otherTyped, given⟩
            rw [readWord_eq_ok_iff.mpr ⟨otherDenotes, otherTyped⟩] at read
            cases read
            exact ⟨others, given, rfl⟩

/-- An object is read as the entries that it conveys. -/
theorem readEntries_eq_ok_iff :
    readEntries owner fields members = .ok entries ↔
      Entries.Conveyed members fields entries := by
  rw [readEntries]
  split
  · next name value unknown =>
      constructor
      · intro impossible
        cases impossible
      · intro conveyed
        have declared := conveyed.declared _ (List.mem_of_find?_eq_some unknown)
        obtain ⟨field, member, named⟩ := List.mem_map.mp declared
        have undeclared := List.find?_some unknown
        have apart := List.all_eq_true.mp undeclared field member
        simp [named] at apart
  · next known =>
      have declared : ∀ member ∈ members, member.1 ∈ fields.map Field.name := by
        simpa [List.find?_eq_none] using known
      rw [readDeclared_eq_ok_iff]
      exact ⟨fun given => ⟨given, declared⟩, Entries.Conveyed.given⟩

/-- A variant is named by a string, or under a key of an object that may have fields too. -/
theorem readVariantName_eq_ok_iff {declared : EnumLayout} {tree : Json} {name : String}
    {found : Option Json} :
    readVariantName declared tree = .ok (name, found) ↔
      tree = .string name ∧ found = none ∨
        ∃ members, tree = .object members ∧ members.lookup "variant" = some (.string name) ∧
          found = members.lookup "fields" := by
  cases tree with
  | string text =>
      rw [readVariantName]
      simp [eq_comm]
  | object members =>
      rw [readVariantName]
      split
      · next named => simp [named, eq_comm]
      · next unnamed =>
          constructor
          · intro impossible
            cases impossible
          · rintro (⟨impossible, _⟩ | ⟨_, same, named, _⟩)
            · cases impossible
            · cases same
              exact absurd named (unnamed name)
  | null => exact ⟨nofun, nofun⟩
  | bool value => exact ⟨nofun, nofun⟩
  | number value => exact ⟨nofun, nofun⟩
  | array elements => exact ⟨nofun, nofun⟩

/-- A tree chooses a variant when its name is read, with an object of fields or without any. -/
theorem chooses_iff {declared : EnumLayout} {tree : Json} {name : String}
    {given : Option (List (String × Json))} :
    tree.Chooses name given ↔
      readVariantName declared tree = .ok (name, given.map Json.object) := by
  rw [readVariantName_eq_ok_iff]
  constructor
  · rintro (_ | ⟨named, absent⟩ | ⟨named, found⟩)
    · exact .inl ⟨rfl, rfl⟩
    · exact .inr ⟨_, rfl, named, absent.symm⟩
    · exact .inr ⟨_, rfl, named, found.symm⟩
  · rintro (⟨rfl, nothing⟩ | ⟨members, rfl, named, found⟩)
    · rw [Option.map_eq_none_iff.mp nothing]
      exact .name
    · cases given with
      | none => exact .bare named found.symm
      | some given => exact .filled named found.symm

/-- A payload is read as the entries that its fields convey, if the variant carries one. -/
theorem readPayload_eq_ok_iff {variant : String} {declared : Option (List Field)}
    {found : Option Json} {payload : Option Entries} :
    readPayload variant declared found = .ok payload ↔
      declared = none ∧ found = none ∧ payload = none ∨
        ∃ (fields : List Field) (given : Option (List (String × Json))) (entries : Entries),
          declared = some fields ∧ found = given.map Json.object ∧
            Entries.Conveyed (given.getD []) fields entries ∧ payload = some entries := by
  unfold readPayload
  split
  · next fields members =>
      simp only [map_eq_ok_iff, readEntries_eq_ok_iff]
      constructor
      · rintro ⟨entries, conveyed, rfl⟩
        exact .inr ⟨fields, some members, entries, rfl, rfl, conveyed, rfl⟩
      · rintro (⟨impossible, _⟩ | ⟨_, given, entries, same, found, conveyed, rfl⟩)
        · cases impossible
        · cases same
          cases given with
          | none => cases found
          | some given =>
              cases found
              exact ⟨entries, conveyed, rfl⟩
  · next fields tree plain =>
      constructor
      · intro impossible
        cases impossible
      · rintro (⟨impossible, _⟩ | ⟨_, given, _, _, found, _⟩)
        · cases impossible
        · cases given with
          | none => cases found
          | some given =>
              cases found
              exact absurd rfl (plain given)
  · next fields =>
      rw [Except.ok.injEq]
      constructor
      · rintro rfl
        exact .inr ⟨fields, none, [], rfl, rfl, Entries.conveyed_nil_iff.mpr rfl, rfl⟩
      · rintro (⟨impossible, _⟩ | ⟨_, given, entries, _, nothing, conveyed, rfl⟩)
        · cases impossible
        · cases Option.map_eq_none_iff.mp nothing.symm
          rw [Entries.conveyed_nil_iff.mp conveyed]
  · simp
  · simp [eq_comm]

end Reading

/-- An enum is read when its variant is named, found and filled. -/
theorem ofTree_enum {declared : EnumLayout} {tree : Json} {name : String} {fields : Option Json}
    {tag : UInt8} {variant : Variant} {payload : Option Entries}
    (named : readVariantName declared tree = .ok (name, fields))
    (found : declared.find name = .ok (tag, variant))
    (read : readPayload name variant.payload fields = .ok payload) :
    ofTree (.enum declared) tree = .ok (.enum name payload) := by
  simp only [ofTree, named, found, read, bind, Except.bind, pure, Except.pure]

/-- A tree is read as the value that it conveys. -/
theorem ofTree_eq_ok_iff {layout : Layout} {tree : Json} {value : Value} :
    ofTree layout tree = .ok value ↔ layout.Conveys tree value := by
  cases layout with
  | struct declared =>
      cases tree with
      | object members =>
          simp only [ofTree, map_eq_ok_iff, readEntries_eq_ok_iff]
          constructor
          · rintro ⟨entries, conveyed, rfl⟩
            exact .struct conveyed
          · rintro ⟨conveyed⟩
            exact ⟨_, conveyed, rfl⟩
      | null => exact ⟨nofun, nofun⟩
      | bool value => exact ⟨nofun, nofun⟩
      | number value => exact ⟨nofun, nofun⟩
      | string text => exact ⟨nofun, nofun⟩
      | array elements => exact ⟨nofun, nofun⟩
  | enum declared =>
      constructor
      · intro read
        rw [ofTree, bind_eq_ok_iff] at read
        obtain ⟨⟨name, fields⟩, named, rest⟩ := read
        simp only at rest
        split at rest
        · cases rest
        · next tag variant found =>
            obtain ⟨payload, filled, same⟩ := bind_eq_ok_iff.mp rest
            cases same
            have first := EnumLayout.find_eq_ok_iff.mp found
            rcases readPayload_eq_ok_iff.mp filled with
              ⟨bare, rfl, rfl⟩ | ⟨fields, given, entries, carries, rfl, conveyed, rfl⟩
            · exact .bare first tag.toNat_lt (chooses_iff.mpr named) bare
            · exact .payload first tag.toNat_lt (chooses_iff.mpr named) carries conveyed
      · intro conveys
        cases conveys with
        | bare first reached chooses bare =>
            exact ofTree_enum (chooses_iff.mp chooses) (first.find_eq_ok reached)
              (readPayload_eq_ok_iff.mpr (.inl ⟨bare, rfl, rfl⟩))
        | payload first reached chooses carries conveyed =>
            exact ofTree_enum (chooses_iff.mp chooses) (first.find_eq_ok reached)
              (readPayload_eq_ok_iff.mpr (.inr ⟨_, _, _, carries, rfl, conveyed, rfl⟩))

end Value

end FixedLayout
