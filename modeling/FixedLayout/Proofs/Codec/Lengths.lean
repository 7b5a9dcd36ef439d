import FixedLayout.Proofs.Codec.RoundTrip

/-!
# Lengths of encodings

Three widths are known before a value is written: that of the value, that of its variant
and that of the whole layout. `Layout.sizesAgree` says that the first two are the length
of every encoding and that the third bounds it. Under a validated enum the bound is
reached: some value of the largest variant is accepted.
-/

namespace FixedLayout

/-- The variant that a value chooses; a struct chooses none. -/
def Value.variant? : Value → Option String
  | .struct _ => none
  | .enum variant _ => some variant

/-- Accepted entries take as many bytes as the fields are wide. -/
theorem Entries.Accepted.length_eq {entries : Entries} {fields : List Field}
    {bytes : List UInt8} (accepted : entries.Accepted fields bytes) :
    bytes.length = fieldsSize fields := by
  obtain ⟨arranged, arranges, rfl⟩ := Entries.accepted_iff.mp accepted
  rw [Entries.length_bytes, arranges.shape]

/-- A discriminant and as many zeros as the payload of the variant is wide. -/
def Variant.blank (variant : Variant) (tag : UInt8) : List UInt8 :=
  tag :: List.replicate (variant.size - discriminantSize) 0

/-- The blank encoding of a variant is as long as the variant is wide. -/
theorem Variant.length_blank (variant : Variant) (tag : UInt8) :
    (variant.blank tag).length = variant.size := by
  have least := variant.discriminantSize_le
  rw [discriminantSize] at least
  simp only [blank, List.length_cons, List.length_replicate, discriminantSize]
  omega

namespace EnumLayout

/-- No variant is wider than the largest one. -/
theorem size_le_greatestSize {declared : EnumLayout} {variant : Variant}
    (member : variant ∈ declared.variants) : variant.size ≤ declared.greatestSize :=
  List.le_max?_getD_of_mem (List.mem_map_of_mem member)

/-- If there are variants, one of them is the largest. -/
theorem exists_size_eq_greatestSize {declared : EnumLayout} (inhabited : declared.variants ≠ []) :
    ∃ variant ∈ declared.variants, variant.size = declared.greatestSize := by
  rw [greatestSize]
  cases found : (declared.variants.map Variant.size).max? with
  | none =>
      have empty := List.max?_eq_none_iff.mp found
      exact absurd (List.map_eq_nil_iff.mp empty) inhabited
  | some greatest =>
      obtain ⟨variant, member, size⟩ := List.mem_map.mp (List.max?_mem found)
      exact ⟨variant, member, size⟩

/-- Only an enum without variants has width zero. -/
theorem greatestSize_eq_zero_iff {declared : EnumLayout} :
    declared.greatestSize = 0 ↔ declared.variants = [] := by
  constructor
  · intro zero
    cases variants : declared.variants with
    | nil => rfl
    | cons variant others =>
        have member : variant ∈ declared.variants := by simp [variants]
        have least := Nat.le_trans variant.discriminantSize_le (size_le_greatestSize member)
        rw [zero] at least
        cases least
  · intro empty
    rw [greatestSize, empty]
    rfl

end EnumLayout

namespace Layout

/-- Measuring a value is measuring its variant. -/
theorem encodedLength_eq_sizeOf {layout : Layout} {value : Value}
    (same : layout.kind = value.kind) :
    layout.encodedLength value = layout.sizeOf value.variant? := by
  cases layout <;> cases value
  case struct.struct => rfl
  case struct.enum => cases same
  case enum.struct => cases same
  case enum.enum => rfl

/-- The width of a variant within reach is known by its name. -/
theorem sizeOf_of_firstDeclared {declared : EnumLayout} {name : String} {index : Nat}
    {variant : Variant} (first : declared.FirstDeclared name index variant)
    (reached : index < EnumLayout.greatestCount) :
    (enum declared).sizeOf (some name) = .ok variant.size := by
  rw [sizeOf, first.find_eq_ok reached]
  rfl

/-- The width of the variant of an accepted value is the length of the encoding. -/
theorem Outcome.sizeOf_eq {layout : Layout} {value : Value} {bytes : List UInt8}
    (specified : layout.Outcome value (.ok bytes)) :
    layout.sizeOf value.variant? = .ok bytes.length := by
  cases specified with
  | structAccepted accepted =>
      rw [accepted.length_eq]
      rfl
  | bareAccepted first reached bare =>
      have size := sizeOf_of_firstDeclared first reached
      rw [Variant.size_of_bare bare] at size
      exact size
  | payloadAccepted first reached carries accepted =>
      have size := sizeOf_of_firstDeclared first reached
      rw [Variant.size_of_payload carries, ← accepted.length_eq, discriminantSize,
        Nat.add_comm] at size
      exact size

/-- An accepted value is of the kind of the layout. -/
theorem Outcome.kind_eq {layout : Layout} {value : Value} {bytes : List UInt8}
    (specified : layout.Outcome value (.ok bytes)) : layout.kind = value.kind := by
  cases specified <;> rfl

/-- An encoding is as long as the value measures. -/
theorem Outcome.encodedLength_eq {layout : Layout} {value : Value} {bytes : List UInt8}
    (specified : layout.Outcome value (.ok bytes)) :
    layout.encodedLength value = .ok bytes.length := by
  rw [encodedLength_eq_sizeOf specified.kind_eq, specified.sizeOf_eq]

/-- No variant is wider than the layout. -/
theorem exists_sizeOf_none_ge {layout : Layout} {variant : Option String} {size : Nat}
    (part : layout.sizeOf variant = .ok size) :
    ∃ greatest, layout.sizeOf none = .ok greatest ∧ size ≤ greatest := by
  cases layout <;> cases variant
  case struct.none => exact ⟨size, part, Nat.le_refl size⟩
  case struct.some => exact ⟨size, part, Nat.le_refl size⟩
  case enum.none => exact ⟨size, part, Nat.le_refl size⟩
  case enum.some declared name =>
    obtain ⟨⟨tag, variant⟩, found, measured⟩ := bind_eq_ok_iff.mp part
    cases measured
    have member := List.mem_of_getElem? (EnumLayout.find_eq_ok_iff.mp found).here
    exact ⟨declared.greatestSize, rfl, EnumLayout.size_le_greatestSize member⟩

/-- Under distinct names every variant has an accepted payload: the one that is decoded from
zeros behind the discriminant. -/
theorem WellFormed.exists_payload {declared : EnumLayout} {variant : Variant}
    (wellFormed : (enum declared).WellFormed) (member : variant ∈ declared.variants) :
    ∃ payload bytes, (enum declared).encode (.enum variant.name payload) = .ok bytes ∧
      bytes.length = variant.size := by
  obtain ⟨index, first, reached⟩ := EnumLayout.WellFormed.exists_firstDeclared wellFormed member
  have length := variant.length_blank (UInt8.ofNat index)
  have verdict := Verdict.enumOfBytes (first.here_ofNat reached) (Nat.le_of_eq length.symm)
  obtain ⟨_, bytes, specified, joined⟩ := verdict.restore wellFormed
  have whole : bytes = variant.blank (UInt8.ofNat index) := by
    change bytes ++ (variant.blank (UInt8.ofNat index)).drop variant.size = _ at joined
    rw [List.drop_of_length_le (Nat.le_of_eq length), List.append_nil] at joined
    exact joined
  exact ⟨_, bytes, specified.encode_eq, whole ▸ length⟩

/-- Among distinct names every declared variant has an encoding of its width. -/
theorem WellFormed.exists_encoding {declared : EnumLayout} {variant : Variant}
    (wellFormed : (enum declared).WellFormed) (member : variant ∈ declared.variants) :
    ∃ value bytes, (enum declared).encode value = .ok bytes ∧ bytes.length = variant.size := by
  obtain ⟨payload, bytes, accepted, length⟩ := wellFormed.exists_payload member
  exact ⟨_, bytes, accepted, length⟩

/-- Under distinct names the width of every variant is known by its name. -/
theorem WellFormed.sizeOf_variant {declared : EnumLayout} {variant : Variant}
    (wellFormed : (enum declared).WellFormed) (member : variant ∈ declared.variants) :
    (enum declared).sizeOf (some variant.name) = .ok variant.size := by
  obtain ⟨index, first, reached⟩ := EnumLayout.WellFormed.exists_firstDeclared wellFormed member
  exact sizeOf_of_firstDeclared first reached

/-- What sizes say about encodings. -/
structure SizesAgree (layout : Layout) : Prop where
  /-- An encoding is as long as the value measures and as its variant is wide. -/
  length : ∀ value bytes, layout.encode value = .ok bytes →
    layout.encodedLength value = .ok bytes.length ∧
      layout.sizeOf value.variant? = .ok bytes.length
  /-- Whenever a value is measured and then written, the measure is met. -/
  met : ∀ value size after, layout.encodedLength value = .ok size →
    (layout.write value).perform Output.empty = (.ok (), after) → after.bytes.length = size
  /-- No encoding is longer than the layout is wide. -/
  bounded : ∀ value bytes, layout.encode value = .ok bytes →
    ∃ greatest, layout.sizeOf none = .ok greatest ∧ bytes.length ≤ greatest
  /-- The width of a validated enum with variants is the length of some encoding. -/
  attained : ∀ declared, layout = enum declared → layout.validate = .ok () →
    declared.variants ≠ [] →
    ∃ value bytes, layout.encode value = .ok bytes ∧ layout.sizeOf none = .ok bytes.length
  /-- The width of an enum is zero only if it has no variants. -/
  zero_iff : ∀ declared, layout = enum declared →
    (layout.sizeOf none = .ok 0 ↔ declared.variants = [])
  /-- Under an enum without variants every value is refused. -/
  refused : ∀ declared, layout = enum declared → declared.variants = [] →
    ∀ value, ∃ error, layout.encode value = .error error

/-- The sizes of every layout agree with its encodings. -/
theorem sizesAgree (layout : Layout) : layout.SizesAgree := by
  refine ⟨?length, ?met, ?bounded, ?attained, ?zero_iff, ?refused⟩
  case length =>
    intro value bytes accepted
    have specified := outcome_of_encode_eq accepted
    exact ⟨specified.encodedLength_eq, specified.sizeOf_eq⟩
  case met =>
    intro value size after measured written
    rw [perform_write] at written
    cases encoded : layout.encode value with
    | error error =>
        rw [encoded] at written
        cases written
    | ok bytes =>
        rw [encoded] at written
        cases written
        have length := (outcome_of_encode_eq encoded).encodedLength_eq
        rw [measured] at length
        cases length
        rfl
  case bounded =>
    intro value bytes accepted
    exact exists_sizeOf_none_ge (outcome_of_encode_eq accepted).sizeOf_eq
  case attained =>
    rintro declared rfl valid inhabited
    obtain ⟨variant, member, size⟩ := EnumLayout.exists_size_eq_greatestSize inhabited
    obtain ⟨value, bytes, accepted, length⟩ :=
      (validate_eq_ok_iff.mp valid).exists_encoding member
    refine ⟨value, bytes, accepted, ?_⟩
    rw [length, size]
    rfl
  case zero_iff =>
    rintro declared rfl
    rw [← EnumLayout.greatestSize_eq_zero_iff]
    exact ⟨Except.ok.inj, congrArg Except.ok⟩
  case refused =>
    rintro declared rfl empty value
    cases value with
    | struct entries =>
        have differ : (enum declared).kind ≠ (Value.struct entries).kind := nofun
        exact ⟨_, (Outcome.kindMismatch differ).encode_eq⟩
    | enum name payload =>
        refine ⟨_, (Outcome.unknownVariant ?_).encode_eq⟩
        intro index variant first
        have here := first.here
        rw [empty] at here
        cases here

/-- Some order is as long as the layout of orders is wide. -/
theorem sizesAgree_orders :
    orders.validate = .ok () ∧ ∃ value bytes, orders.encode value = .ok bytes ∧
      orders.sizeOf none = .ok bytes.length :=
  ⟨rfl, (sizesAgree orders).attained _ rfl rfl (List.cons_ne_nil _ _)⟩

end Layout

end FixedLayout
