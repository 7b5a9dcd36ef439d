import FixedLayout.Proofs.CommandLine.Commands
import FixedLayout.Proofs.Codec.Lengths
import FixedLayout.Proofs.Registry.Sizing
import FixedLayout.Proofs.Registry.Writing

/-!
# The listing of a registry

The command that lists the types of a registry looks every width up by name, in a table that
is filled from all of them, and collects those of variants under their names. `Lists` says
what an entry has to tell of a layout, in terms of what the layout encodes and without any
table. In a sound registry no lookup fails and no name is met twice, so the entries are the
`listedEntry` of each layout, and `listsTypes_run` says that the command always answers and
tells the truth.
-/

namespace FixedLayout

/-- The length of the longest encodings under a layout, or zero if there are none. -/
inductive Layout.Longest (layout : Layout) : Nat → Prop where
  | attained {value bytes} (accepted : layout.encode value = .ok bytes)
      (greatest : ∀ other longer, layout.encode other = .ok longer →
        longer.length ≤ bytes.length) : Longest layout bytes.length
  | none (refused : ∀ value bytes, layout.encode value ≠ .ok bytes) : Longest layout 0

/-- What the width of a variant says of its encodings. -/
structure EnumLayout.Takes (declared : EnumLayout) (variant : String) (length : Nat) : Prop where
  /-- Some payload is accepted. -/
  accepts : ∃ payload bytes, (Layout.enum declared).encode (.enum variant payload) = .ok bytes
  /-- Whatever payload is accepted, the encoding has the length. -/
  length_eq : ∀ payload bytes,
    (Layout.enum declared).encode (.enum variant payload) = .ok bytes → bytes.length = length

/-- A number that shows a length. It has 64 bits, so it is the length itself only below
`2 ^ 64`. -/
inductive Json.Counts (length : Nat) : Json → Prop where
  | number {value : UInt64} (same : value.toNat = length % 2 ^ 64) :
      Counts length (.number (.unsigned value))

section Widths

/-- The width of a layout: that of its largest encoding. -/
def Layout.width : Layout → Nat
  | struct declared => declared.size
  | enum declared => declared.greatestSize

/-- The size without a variant is the width. -/
theorem Layout.sizeOf_none (layout : Layout) : layout.sizeOf none = .ok layout.width := by
  cases layout <;> rfl

/-- No encoding is longer than the layout is wide. -/
theorem Layout.length_le_width {layout : Layout} {value : Value} {bytes : List UInt8}
    (accepted : layout.encode value = .ok bytes) : bytes.length ≤ layout.width := by
  obtain ⟨greatest, size, bounded⟩ :=
    exists_sizeOf_none_ge (outcome_of_encode_eq accepted).sizeOf_eq
  rw [sizeOf_none] at size
  cases size
  exact bounded

/-- An encoding as long as the layout is wide is a longest one. -/
theorem Layout.longest_width_of_length_eq {layout : Layout} {value : Value} {bytes : List UInt8}
    (accepted : layout.encode value = .ok bytes) (length : bytes.length = layout.width) :
    layout.Longest layout.width := by
  have longest : layout.Longest bytes.length :=
    .attained accepted fun _ _ other => length ▸ length_le_width other
  rwa [length] at longest

/-- A struct accepts the value that is decoded from zeros. -/
theorem StructLayout.longest_size {declared : StructLayout}
    (wellFormed : (Layout.struct declared).WellFormed) :
    (Layout.struct declared).Longest declared.size := by
  have length : (List.replicate declared.size (0 : UInt8)).length = declared.size :=
    List.length_replicate
  obtain ⟨_, bytes, specified, joined⟩ :=
    (Layout.Verdict.structOfBytes (Nat.le_of_eq length.symm)).restore wellFormed
  rw [List.drop_of_length_le (Nat.le_of_eq length), List.append_nil] at joined
  exact Layout.longest_width_of_length_eq specified.encode_eq (joined ▸ length)

/-- A largest variant is accepted; without any variant nothing is. -/
theorem EnumLayout.longest_greatestSize {declared : EnumLayout}
    (wellFormed : (Layout.enum declared).WellFormed) :
    (Layout.enum declared).Longest declared.greatestSize := by
  by_cases empty : declared.variants = []
  · rw [greatestSize_eq_zero_iff.mpr empty]
    refine .none fun value bytes accepted => ?_
    cases Layout.outcome_of_encode_eq accepted with
    | bareAccepted first => simpa [empty] using first.here
    | payloadAccepted first => simpa [empty] using first.here
  · obtain ⟨variant, member, size⟩ := exists_size_eq_greatestSize empty
    obtain ⟨value, bytes, accepted, length⟩ := wellFormed.exists_encoding member
    exact Layout.longest_width_of_length_eq accepted (length.trans size)

/-- The longest encodings under a well-formed layout are as long as it is wide. -/
theorem Layout.WellFormed.longest_width {layout : Layout} (wellFormed : layout.WellFormed) :
    layout.Longest layout.width := by
  cases layout with
  | struct declared => exact StructLayout.longest_size wellFormed
  | enum declared => exact EnumLayout.longest_greatestSize wellFormed

/-- Every encoding of a declared variant is as long as the variant is wide. -/
theorem Layout.WellFormed.takes {declared : EnumLayout} {variant : Variant}
    (wellFormed : (enum declared).WellFormed) (member : variant ∈ declared.variants) :
    declared.Takes variant.name variant.size where
  accepts := by
    obtain ⟨payload, bytes, accepted, _⟩ := wellFormed.exists_payload member
    exact ⟨payload, bytes, accepted⟩
  length_eq payload bytes accepted := by
    have size := (outcome_of_encode_eq accepted).sizeOf_eq
    rw [Value.variant?, wellFormed.sizeOf_variant member] at size
    exact (Except.ok.inj size).symm

end Widths

namespace CommandLine

open Registry (layoutTree)

/-- What a member of an entry tells of a variant. -/
structure ListsVariant (declared : EnumLayout) (variant : Variant) (member : String × Json) :
    Prop where
  /-- It stands under the name of the variant. -/
  named : member.1 = variant.name
  /-- Its value counts the bytes of every encoding of the variant. -/
  counts : ∃ length, declared.Takes variant.name length ∧ member.2.Counts length

/-- What an entry tells of a layout: its tree and the length of its longest encodings, and of an
enum also its variants, one after the other. -/
inductive Lists : Layout → Json → Prop where
  | struct {declared length size} (longest : (Layout.struct declared).Longest length)
      (counts : size.Counts length) :
      Lists (.struct declared)
        (.object [("schema", layoutTree (.struct declared)), ("size", size)])
  | enum {declared length size sizes} (longest : (Layout.enum declared).Longest length)
      (counts : size.Counts length)
      (each : List.Forall₂ (ListsVariant declared) declared.variants sizes) :
      Lists (.enum declared)
        (.object
          [("schema", layoutTree (.enum declared)), ("size", size),
            ("variant_sizes", .object sizes)])

/-- A text of an array with one entry for each type of a registry, in the order of
registration. -/
def ListsTypes (registry : Registry) (answer : String) : Prop :=
  ∃ entries, Json.parse answer = .ok (.array entries) ∧
    List.Forall₂ Lists registry.layouts entries

section Entries

/-- The members that list the variants of an enum. -/
def listedVariants (declared : EnumLayout) : List (String × Json) :=
  declared.variants.map fun variant => (variant.name, sizeTree variant.size)

/-- The entry of a layout that is registered. -/
def listedEntry : Layout → Json
  | .struct declared =>
      .object [("schema", layoutTree (.struct declared)), ("size", sizeTree declared.size)]
  | .enum declared =>
      .object
        [("schema", layoutTree (.enum declared)), ("size", sizeTree declared.greatestSize),
          ("variant_sizes", .object (listedVariants declared))]

/-- The tree of a size counts it. -/
theorem counts_sizeTree (length : Nat) : (sizeTree length).Counts length :=
  .number (UInt64.toNat_ofNat' ..)

/-- The entry of a well-formed layout lists it truly. -/
theorem lists_listedEntry {layout : Layout} (wellFormed : layout.WellFormed) :
    Lists layout (listedEntry layout) := by
  have longest := wellFormed.longest_width
  cases layout with
  | struct declared => exact .struct longest (counts_sizeTree _)
  | enum declared =>
      refine .enum longest (counts_sizeTree _) (forall₂_map fun variant member => ?_)
      exact ⟨rfl, variant.size, wellFormed.takes member, counts_sizeTree _⟩

end Entries

section Sound

variable {registry : Registry}

/-- Every variant of a registered enum is found in the table under its name. -/
theorem variantSizes_eq_ok {declared : EnumLayout} (sound : registry.Sound)
    (member : .enum declared ∈ registry.layouts) :
    variantSizes (.ofRegistry registry) declared.name declared.variants =
      .ok (listedVariants declared) := by
  refine mapM_eq_ok_map fun variant declares => ?_
  have size := (SizeTable.sizeOf_ofRegistry sound member (some variant.name)).trans
    ((sound.wellFormed member).sizeOf_variant declares)
  change SizeTable.sizeOf _ declared.name _ = _ at size
  rw [size]
  rfl

/-- In the entry of a registered layout nothing is lost. -/
theorem listingEntry_eq_ok {layout : Layout} (sound : registry.Sound)
    (member : layout ∈ registry.layouts) :
    listingEntry (.ofRegistry registry) layout = .ok (listedEntry layout) := by
  have size := (SizeTable.sizeOf_ofRegistry sound member none).trans layout.sizeOf_none
  rw [listingEntry, size]
  cases layout with
  | struct declared => rfl
  | enum declared =>
      have settled : Json.settleMembers (listedVariants declared) = listedVariants declared :=
        EnumLayout.WellFormed.settleMembers_variants (sound.wellFormed member) _
      simp only [variantMembers, variantSizes_eq_ok sound member, settled, bind, Except.bind,
        pure, Except.pure]
      rfl

/-- A sound registry is listed as the entries of its layouts. -/
theorem listing_eq_ok (sound : registry.Sound) :
    listing registry = .ok (.array (registry.layouts.map listedEntry)) := by
  have entries : registry.layouts.mapM (listingEntry (.ofRegistry registry)) =
      .ok (registry.layouts.map listedEntry) :=
    mapM_eq_ok_map fun layout member => listingEntry_eq_ok sound member
  rw [listing, entries]
  rfl

end Sound

section Plainness

open Json (Plain)

variable {depth : Nat}

/-- The tree of a size nests nothing. -/
theorem plain_sizeTree (size : Nat) : (sizeTree size).Plain depth := .number

/-- The entry of a layout nests six deep. -/
theorem plain_listedEntry (layout : Layout) : (listedEntry layout).Plain (depth + 6) := by
  cases layout with
  | struct declared =>
      refine .object ?_
      simp [Registry.plain_layoutTree, plain_sizeTree]
  | enum declared =>
      have sizes : (Json.object (listedVariants declared)).Plain (depth + 5) :=
        .object (List.forall_mem_map.mpr fun variant _ => plain_sizeTree variant.size)
      refine .object ?_
      simp [Registry.plain_layoutTree, plain_sizeTree, sizes]

/-- The printed listing is read back as its entries. -/
theorem parse_pretty_listing (layouts : List Layout) :
    Json.parse (Json.array (layouts.map listedEntry)).pretty =
      .ok (.array (layouts.map listedEntry)) := by
  have plain : (Json.array (layouts.map listedEntry)).Plain (120 + 7) :=
    .array (List.forall_mem_map.mpr fun layout _ => plain_listedEntry layout)
  exact plain.parse_print (.indented 0)

end Plainness

/-- On every registry that registration leads to, the command that lists its types answers, and
what it answers is true of every one of them. -/
theorem listsTypes_run {registry : Registry} (reachable : registry.Reachable) :
    ∃ answer, run registry .schemas = .ok answer ∧ ListsTypes registry answer := by
  have sound := reachable.sound
  refine ⟨_, ?answered, registry.layouts.map listedEntry, parse_pretty_listing _, ?each⟩
  case answered =>
    rw [run, listing_eq_ok sound]
    rfl
  case each => exact forall₂_map fun layout member => lists_listedEntry (sound.wellFormed member)

/-- The bundled types are listed. -/
theorem listsTypes_run_bundled :
    bundled.Reachable ∧ ∃ answer, run bundled .schemas = .ok answer ∧ ListsTypes bundled answer :=
  ⟨Registry.Reachable.empty.finish _, listsTypes_run (Registry.Reachable.empty.finish _)⟩

end CommandLine

end FixedLayout
