import FixedLayout.Proofs.Codec.RoundTrip
import FixedLayout.Proofs.Value.Reading

/-!
# Fields that a tree leaves out

A value that was read from a tree has the kind, the variant and the payload that its layout
asks for, and words of the declared types. `Layout.refusesMissing_of_validate` shows what is
left for the encoder of a validated layout to refuse: the first declared field that the
tree does not give, and nothing else.
-/

namespace FixedLayout

namespace Entries

/-- The first field, in declaration order, whose name is no key of an object. -/
def FirstMissing (members : List (String × Json)) (fields : List Field) (field : Field) : Prop :=
  ∃ earlier later, fields = earlier ++ field :: later ∧
    (∀ other ∈ earlier, other.name ∈ members.map Prod.fst) ∧ field.name ∉ members.map Prod.fst

/-- Every field is a key, or one of them is the first that is none. -/
theorem complete_or_firstMissing (members : List (String × Json)) (fields : List Field) :
    (∀ field ∈ fields, field.name ∈ members.map Prod.fst) ∨
      ∃ field, FirstMissing members fields field := by
  rcases search : fields.find? fun field => field.name ∉ members.map Prod.fst with _ | field
  · left
    simpa [List.find?_eq_none] using search
  · right
    obtain ⟨missing, earlier, later, split, present⟩ := List.find?_eq_some_iff_append.mp search
    refine ⟨field, earlier, later, split, fun other before => ?_, of_decide_eq_true missing⟩
    simpa using present other before

section Conveyed

variable {members : List (String × Json)} {fields : List Field} {field : Field}
  {entries : Entries}

/-- An object that has all fields as keys gives an entry for each of them. -/
theorem Given.shape_of_complete (given : Given members fields entries)
    (complete : ∀ field ∈ fields, field.name ∈ members.map Prod.fst) :
    entries.shape = fields := by
  rw [given.shape, List.filter_eq_self]
  exact fun field member => isSome_lookup_iff.mpr (complete field member)

/-- Under distinct names, a field that is a key is given. -/
theorem Given.gives (given : Given members fields entries) (distinct : DistinctFields fields)
    (declared : field ∈ fields) (present : field.name ∈ members.map Prod.fst) :
    entries.Gives field := by
  have shown : field ∈ entries.shape := by
    rw [given.shape]
    exact List.mem_filter.mpr ⟨declared, isSome_lookup_iff.mpr present⟩
  have names : (entries.map Prod.fst).Nodup := by
    rw [← map_name_shape, given.shape]
    exact distinct.sublist (List.filter_sublist.map Field.name)
  obtain ⟨entry, member, rfl⟩ := List.mem_map.mp shown
  exact ⟨entry.2, lookup_eq_some_iff.mp ((lookup_eq_some_iff_mem names).mpr member), rfl⟩

/-- A field that is no key has no entry. -/
theorem Given.absent (given : Given members fields entries)
    (missing : field.name ∉ members.map Prod.fst) : ∀ entry ∈ entries, entry.1 ≠ field.name := by
  intro entry member same
  obtain ⟨tree, found, _⟩ := given.denoted entry member
  rw [← same] at missing
  exact missing (List.mem_map_of_mem (mem_of_lookup_eq_some found))

/-- Under distinct names, entries without one for a field are refused for the first such field. -/
theorem Given.refused (given : Given members fields entries) (distinct : DistinctFields fields)
    (missing : FirstMissing members fields field) (owner : String) :
    entries.Refused owner fields (.missingField owner field.name) := by
  obtain ⟨earlier, later, rfl, present, missing⟩ := missing
  refine .missing rfl (fun other before => ?_) (given.absent missing)
  exact given.gives distinct (List.mem_append_left _ before) (present other before)

end Conveyed

end Entries

/-- A variant is chosen by one name, with one object of fields or none. -/
theorem Json.Chooses.unique {tree : Json} {left right : String}
    {leftGiven rightGiven : Option (List (String × Json))} (first : tree.Chooses left leftGiven)
    (second : tree.Chooses right rightGiven) : left = right ∧ leftGiven = rightGiven := by
  cases first with
  | name =>
      cases second
      exact ⟨rfl, rfl⟩
  | bare named absent =>
      cases second with
      | bare again _ =>
          cases named.symm.trans again
          exact ⟨rfl, rfl⟩
      | filled _ found => cases absent.symm.trans found
  | filled named found =>
      cases second with
      | bare _ absent => cases absent.symm.trans found
      | filled again foundAgain =>
          cases named.symm.trans again
          cases found.symm.trans foundAgain
          exact ⟨rfl, rfl⟩

namespace Layout

/-- The first declared field of its owner that a tree does not give. A tree that chooses a
variant without giving an object of fields gives none of them. -/
inductive Lacks : Layout → Json → String → Field → Prop where
  | struct {declared members field}
      (missing : Entries.FirstMissing members declared.fields field) :
      Lacks (.struct declared) (.object members) declared.name field
  | enum {declared tree name index variant given fields field}
      (first : declared.FirstDeclared name index variant) (chooses : tree.Chooses name given)
      (carries : variant.payload = some fields)
      (missing : Entries.FirstMissing (given.getD []) fields field) :
      Lacks (.enum declared) tree (declared.name ++ "::" ++ name) field

section Conveyed

variable {layout : Layout} {tree : Json} {value : Value}

/-- A value whose tree lacks a field is refused for it. -/
theorem Conveys.outcome_of_lacks (conveys : layout.Conveys tree value)
    (wellFormed : layout.WellFormed) {owner : String} {field : Field}
    (lacks : layout.Lacks tree owner field) :
    layout.Outcome value (.error (.missingField owner field.name)) := by
  cases lacks with
  | struct missing =>
      cases conveys with
      | struct conveyed =>
          exact .structRefused (conveyed.given.refused wellFormed missing _)
  | enum chosen choice carried missing =>
      cases conveys with
      | bare first reached chooses bare =>
          obtain ⟨rfl, _⟩ := chooses.unique choice
          obtain ⟨_, rfl⟩ := first.unique chosen
          cases bare.symm.trans carried
      | payload first reached chooses carries conveyed =>
          obtain ⟨rfl, rfl⟩ := chooses.unique choice
          obtain ⟨_, rfl⟩ := first.unique chosen
          cases carries.symm.trans carried
          have distinct := EnumLayout.WellFormed.distinctFields wellFormed first.here carries
          exact .payloadRefused first reached carries
            (conveyed.given.refused distinct missing _)

/-- A value is accepted, or its tree lacks a field. -/
theorem Conveys.accepted_or_lacks (conveys : layout.Conveys tree value)
    (wellFormed : layout.WellFormed) :
    (∃ bytes, layout.Outcome value (.ok bytes)) ∨ ∃ owner field, layout.Lacks tree owner field := by
  cases conveys with
  | @struct declared members entries conveyed =>
      rcases Entries.complete_or_firstMissing members declared.fields with
        complete | ⟨field, missing⟩
      · have shown := conveyed.given.shape_of_complete complete
        exact .inl ⟨_, .structAccepted (Entries.accepted_of_shape shown wellFormed)⟩
      · exact .inr ⟨_, field, .struct missing⟩
  | bare first reached chooses bare => exact .inl ⟨_, .bareAccepted first reached bare⟩
  | @payload declared _ _ _ _ given fields entries first reached chooses carries conveyed =>
      rcases Entries.complete_or_firstMissing (given.getD []) fields with
        complete | ⟨field, missing⟩
      · have shown := conveyed.given.shape_of_complete complete
        have distinct := EnumLayout.WellFormed.distinctFields wellFormed first.here carries
        exact .inl ⟨_, .payloadAccepted first reached carries
          (Entries.accepted_of_shape shown distinct)⟩
      · exact .inr ⟨_, field, .enum first chooses carries missing⟩

end Conveyed

/-- What the encoder answers for a value that was read from a tree. -/
structure RefusesMissing (layout : Layout) : Prop where
  /-- The value is encoded, or refused for the first declared field that the tree lacks. -/
  answered : ∀ tree value, Value.ofTree layout tree = .ok value →
    (∃ bytes, layout.encode value = .ok bytes) ∨
      ∃ owner field, layout.Lacks tree owner field ∧
        layout.encode value = .error (.missingField owner field.name)
  /-- It is refused exactly when the tree lacks a field, and for no other cause. -/
  refused_iff : ∀ tree value, Value.ofTree layout tree = .ok value → ∀ error,
    layout.encode value = .error error ↔
      ∃ owner field, layout.Lacks tree owner field ∧ error = .missingField owner field.name

/-- Under a validated layout, a value that was read from a tree is refused for nothing but the
first field that the tree lacks. -/
theorem refusesMissing_of_validate {layout : Layout} (valid : layout.validate = .ok ()) :
    layout.RefusesMissing := by
  have wellFormed : layout.WellFormed := validate_eq_ok_iff.mp valid
  have answered : ∀ tree value, Value.ofTree layout tree = .ok value →
      (∃ bytes, layout.encode value = .ok bytes) ∨
        ∃ owner field, layout.Lacks tree owner field ∧
          layout.encode value = .error (.missingField owner field.name) := by
    intro tree value read
    have conveys := Value.ofTree_eq_ok_iff.mp read
    rcases conveys.accepted_or_lacks wellFormed with ⟨bytes, accepted⟩ | ⟨owner, field, lacks⟩
    · exact .inl ⟨bytes, accepted.encode_eq⟩
    · exact .inr ⟨owner, field, lacks, (conveys.outcome_of_lacks wellFormed lacks).encode_eq⟩
  refine ⟨answered, fun tree value read error => ⟨?_, ?_⟩⟩
  · intro refused
    rcases answered tree value read with ⟨bytes, accepted⟩ | ⟨owner, field, lacks, cause⟩
    · cases accepted.symm.trans refused
    · exact ⟨owner, field, lacks, Except.error.inj (refused.symm.trans cause)⟩
  · rintro ⟨owner, field, lacks, rfl⟩
    exact ((Value.ofTree_eq_ok_iff.mp read).outcome_of_lacks wellFormed lacks).encode_eq

/-- A tree that gives the second field of a limit order but not the first. -/
def sizedOrder : Json :=
  .object [("variant", .string "Limit"), ("fields", .object [("size", .string "+7")])]

/-- A limit order without its price is read, and refused for the price when it is encoded. -/
theorem refusesMissing_of_validate_orders :
    orders.validate = .ok () ∧ ∃ value, Value.ofTree orders sizedOrder = .ok value ∧
      orders.encode value = .error (.missingField "Order::Limit" "price") ∧
      ∃ owner field, orders.Lacks sizedOrder owner field ∧
        LayoutError.missingField "Order::Limit" "price" = .missingField owner field.name := by
  have read : Value.ofTree orders sizedOrder =
      .ok (.enum "Limit" (some [("size", .ofBytes .u32 [7, 0, 0, 0])])) := by rfl
  exact ⟨rfl, _, read, rfl, ((refusesMissing_of_validate rfl).refused_iff _ _ read _).mp rfl⟩

end Layout

end FixedLayout
