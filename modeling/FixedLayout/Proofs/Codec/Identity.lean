import FixedLayout.Proofs.Value.Tree

/-!
# What an encoding tells apart

An encoding stands for the chosen variant and the first word under every declared name,
and for nothing else of a value. `Layout.identifies` says so for every layout: accepted
values have one encoding exactly when they agree on these, and under distinct names the
order of the entries changes neither whether a value is accepted nor its encoding.
-/

namespace FixedLayout

namespace Entries

/-- Two lists of entries have the same first word under the name of every field, or none. -/
def AgreeOn (fields : List Field) (left right : Entries) : Prop :=
  ∀ field ∈ fields, left.lookup field.name = right.lookup field.name

/-- Entries that agree on some fields are the same when they are arranged. -/
theorem AgreeOn.arrange?_eq {fields : List Field} {left right : Entries}
    (agree : AgreeOn fields left right) : left.arrange? fields = right.arrange? fields := by
  induction fields with
  | nil => rfl
  | cons field fields inductionHypothesis =>
      obtain ⟨first, others⟩ := List.forall_mem_cons.mp agree
      have behind := inductionHypothesis others
      rw [arrange?] at behind ⊢
      rw [arrange?, List.mapM_cons, List.mapM_cons, first, behind, arrange?]

/-- Only entries that agree on the fields are arranged to the same entries. -/
theorem agreeOn_of_arrange? {fields : List Field} {left right arranged : Entries}
    (fromLeft : left.arrange? fields = some arranged)
    (fromRight : right.arrange? fields = some arranged) : AgreeOn fields left right := by
  obtain ⟨names, leftFirsts⟩ := arrange?_eq_some_iff.mp fromLeft
  obtain ⟨_, rightFirsts⟩ := arrange?_eq_some_iff.mp fromRight
  intro field member
  have arrangedName := List.mem_map_of_mem (f := Field.name) member
  rw [← names] at arrangedName
  obtain ⟨entry, present, named⟩ := List.mem_map.mp arrangedName
  rw [← named, leftFirsts entry present, rightFirsts entry present]

/-- Entries that show the same fields are told apart by their bytes. -/
theorem eq_of_bytes_eq {left right : Entries} (shown : left.shape = right.shape)
    (same : left.bytes = right.bytes) : left = right := by
  rw [← ofBytes_bytes left [], shown, same, ofBytes_bytes]

/-- Entries that are accepted under the same fields have the same bytes exactly when they
agree on the fields. -/
theorem Accepted.bytes_eq_iff {fields : List Field} {left right : Entries}
    {leftBytes rightBytes : List UInt8} (first : left.Accepted fields leftBytes)
    (second : right.Accepted fields rightBytes) :
    leftBytes = rightBytes ↔ AgreeOn fields left right := by
  obtain ⟨leftArranged, fromLeft, rfl⟩ := accepted_iff.mp first
  obtain ⟨rightArranged, fromRight, rfl⟩ := accepted_iff.mp second
  constructor
  · intro same
    have arranged := eq_of_bytes_eq (fromLeft.shape.trans fromRight.shape.symm) same
    subst arranged
    exact agreeOn_of_arrange? fromLeft.found fromRight.found
  · intro agree
    have found := fromRight.found
    rw [← agree.arrange?_eq, fromLeft.found] at found
    rw [Option.some.inj found]

/-- Under distinct names, entries in another order are accepted with the same bytes. -/
theorem Accepted.of_perm {fields : List Field} {entries others : Entries} {bytes : List UInt8}
    (accepted : entries.Accepted fields bytes) (distinct : (entries.map Prod.fst).Nodup)
    (same : entries.Perm others) : others.Accepted fields bytes := by
  obtain ⟨arranged, arranges, stands⟩ := accepted_iff.mp accepted
  have agree : AgreeOn fields entries others := fun _ _ => lookup_eq_of_perm distinct same
  refine accepted_iff.mpr ⟨arranged, ⟨?found, arranges.shape, ?declared⟩, stands⟩
  case found => rw [← agree.arrange?_eq, arranges.found]
  case declared =>
    intro entry member
    exact arranges.declared entry (same.mem_iff.mpr member)

end Entries

/-- A value and another one with its entries in another order. -/
inductive Value.Reorders : Value → Value → Prop where
  | struct {entries others} (same : List.Perm entries others) :
      Reorders (.struct entries) (.struct others)
  | bare {variant} : Reorders (.enum variant none) (.enum variant none)
  | payload {variant entries others} (same : List.Perm entries others) :
      Reorders (.enum variant (some entries)) (.enum variant (some others))

/-- A reordering can be undone. -/
theorem Value.Reorders.symm {value other : Value} (reorders : value.Reorders other) :
    other.Reorders value := by
  cases reorders with
  | struct same => exact .struct same.symm
  | bare => exact .bare
  | payload same => exact .payload same.symm

/-- Distinct names stay distinct in any order. -/
theorem Value.Reorders.distinct {value other : Value} (reorders : value.Reorders other)
    (distinct : value.Distinct) : other.Distinct := by
  cases reorders with
  | struct same => exact (same.map Prod.fst).nodup_iff.mp distinct
  | bare => exact distinct
  | payload same =>
      intro others given
      cases given
      exact (same.map Prod.fst).nodup_iff.mp (distinct _ rfl)

namespace Layout

/-- Two values agree under a layout when they choose the same variant, if it is an enum, and
have the same first word under every name that is declared there. -/
inductive Agree : Layout → Value → Value → Prop where
  | struct {declared left right} (agree : Entries.AgreeOn declared.fields left right) :
      Agree (.struct declared) (.struct left) (.struct right)
  | enum {declared name left right}
      (agree : ∀ index variant, declared.FirstDeclared name index variant →
        Entries.AgreeOn (variant.payload.getD []) (left.getD []) (right.getD [])) :
      Agree (.enum declared) (.enum name left) (.enum name right)

/-- An accepted value of an enum is its discriminant and the accepted entries of its payload,
where no payload is as good as one without fields. -/
theorem Outcome.enum_ok {declared : EnumLayout} {value : Value} {bytes : List UInt8}
    (specified : (Layout.enum declared).Outcome value (.ok bytes)) :
    ∃ name index variant payload behind, value = .enum name payload ∧
      declared.FirstDeclared name index variant ∧ index < 256 ∧
      (payload.getD []).Accepted (variant.payload.getD []) behind ∧
      bytes = UInt8.ofNat index :: behind := by
  cases specified with
  | @bareAccepted _ name index variant first reached bare =>
      have nothing : Entries.Accepted [] (variant.payload.getD []) [] := by
        rw [bare]
        exact ⟨.nil, fun entry member => absurd member List.not_mem_nil⟩
      exact ⟨name, index, variant, none, [], rfl, first, reached, nothing, rfl⟩
  | @payloadAccepted _ name index variant fields entries behind first reached carries accepted =>
      have given : entries.Accepted (variant.payload.getD []) behind := by
        rw [carries]
        exact accepted
      exact ⟨name, index, variant, some entries, behind, rfl, first, reached, given, rfl⟩

/-- Accepted values have the same encoding exactly when they agree. -/
theorem Outcome.bytes_eq_iff {layout : Layout} {left right : Value}
    {leftBytes rightBytes : List UInt8} (first : layout.Outcome left (.ok leftBytes))
    (second : layout.Outcome right (.ok rightBytes)) :
    leftBytes = rightBytes ↔ layout.Agree left right := by
  cases layout with
  | struct declared =>
      cases first with
      | structAccepted leftAccepted =>
          cases second with
          | structAccepted rightAccepted =>
              rw [leftAccepted.bytes_eq_iff rightAccepted]
              exact ⟨.struct, fun | .struct agree => agree⟩
  | enum declared =>
      obtain ⟨leftName, leftIndex, leftVariant, leftPayload, leftBehind, rfl, leftFirst,
        leftReached, leftAccepted, rfl⟩ := first.enum_ok
      obtain ⟨rightName, rightIndex, rightVariant, rightPayload, rightBehind, rfl, rightFirst,
        rightReached, rightAccepted, rfl⟩ := second.enum_ok
      rw [List.cons.injEq]
      constructor
      · rintro ⟨tag, behind⟩
        obtain ⟨rfl, rfl, rfl⟩ := leftFirst.eq_of_tag_eq rightFirst leftReached rightReached tag
        have agree := (leftAccepted.bytes_eq_iff rightAccepted).mp behind
        refine .enum fun index variant chosen => ?_
        obtain ⟨_, same⟩ := chosen.unique leftFirst
        rw [same]
        exact agree
      · rintro (_ | agree)
        obtain ⟨rfl, rfl⟩ := leftFirst.unique rightFirst
        exact ⟨rfl, (leftAccepted.bytes_eq_iff rightAccepted).mpr (agree _ _ leftFirst)⟩

/-- Under distinct names, a value with its entries in another order has the same encoding. -/
theorem Outcome.reorder {layout : Layout} {value other : Value} {bytes : List UInt8}
    (specified : layout.Outcome value (.ok bytes)) (distinct : value.Distinct)
    (reorders : value.Reorders other) : layout.Outcome other (.ok bytes) := by
  cases specified with
  | structAccepted accepted =>
      cases reorders with
      | struct same => exact .structAccepted (accepted.of_perm distinct same)
  | bareAccepted first reached bare =>
      cases reorders with
      | bare => exact .bareAccepted first reached bare
  | payloadAccepted first reached carries accepted =>
      cases reorders with
      | payload same =>
          exact .payloadAccepted first reached carries (accepted.of_perm (distinct _ rfl) same)

/-- What the encodings under a layout tell apart. -/
structure Identifies (layout : Layout) : Prop where
  /-- Two accepted values have one encoding exactly when they agree. -/
  encodings_eq_iff : ∀ left right leftBytes rightBytes, layout.encode left = .ok leftBytes →
    layout.encode right = .ok rightBytes → (leftBytes = rightBytes ↔ layout.Agree left right)
  /-- Under distinct names the order of the entries changes nothing. -/
  reordered : ∀ value other, value.Distinct → value.Reorders other →
    ∀ bytes, layout.encode value = .ok bytes ↔ layout.encode other = .ok bytes

/-- The value that agrees with the scattered one, its entries once and in another order. -/
def gathered : Value :=
  .enum "Side" (some [("price", .ofBytes .u16 [1, 2]), ("level", .ofUInt8 7)])

/-- Under every layout encodings tell apart exactly what does not agree. -/
theorem identifies (layout : Layout) : layout.Identifies := by
  refine ⟨?encodings_eq_iff, ?reordered⟩
  case encodings_eq_iff =>
    intro left right leftBytes rightBytes leftAccepted rightAccepted
    exact (outcome_of_encode_eq leftAccepted).bytes_eq_iff (outcome_of_encode_eq rightAccepted)
  case reordered =>
    intro value other distinct reorders bytes
    constructor
    · intro accepted
      exact ((outcome_of_encode_eq accepted).reorder distinct reorders).encode_eq
    · intro accepted
      exact ((outcome_of_encode_eq accepted).reorder (reorders.distinct distinct)
        reorders.symm).encode_eq

/-- Entries out of order, one of them twice, are encoded like those that count and agree with
them. -/
theorem identifies_repeating :
    repeating.encode scattered = .ok [1, 1, 2, 7, 1, 2] ∧
      repeating.encode gathered = .ok [1, 1, 2, 7, 1, 2] ∧ repeating.Agree scattered gathered :=
  ⟨rfl, rfl, ((identifies repeating).encodings_eq_iff _ _ _ _ rfl rfl).mp rfl⟩

end Layout

end FixedLayout
