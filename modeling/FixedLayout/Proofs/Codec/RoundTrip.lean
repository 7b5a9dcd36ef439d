import FixedLayout.Proofs.Codec.Decoding
import FixedLayout.Proofs.Codec.Encoding
import FixedLayout.Proofs.Layout.WellFormed

/-!
# Encoding and decoding are inverse

A decoded encoding is the canonical form of the encoded value: the same words under
the declared names in declaration order. This needs nothing of the layout, whose
names may repeat. The other direction needs distinct names: under a validated
layout every value that decoding can yield has one encoding, the bytes it was
decoded from.
-/

namespace FixedLayout

/-- A payload with its entries in declaration order; nothing if the variant carries a
payload and the value none, or the other way round. -/
def Variant.arrange? (variant : Variant) (payload : Option Entries) : Option (Option Entries) :=
  match variant.payload, payload with
  | none, none => some none
  | some fields, some entries => (entries.arrange? fields).map some
  | _, _ => none

/-- For a variant without payload there is nothing to arrange. -/
theorem Variant.arrange?_bare {variant : Variant} (bare : variant.payload = none) :
    variant.arrange? none = some none := by
  simp [arrange?, bare]

/-- For a variant with a payload the entries are arranged by its fields. -/
theorem Variant.arrange?_payload {variant : Variant} {fields : List Field}
    {entries arranged : Entries} (carries : variant.payload = some fields)
    (found : entries.arrange? fields = some arranged) :
    variant.arrange? (some entries) = some (some arranged) := by
  simp [arrange?, carries, found]

namespace Layout

/-- The form in which a value is decoded: the variant and the presence of a payload as they
are, and the entries replaced by the first ones of the declared names, in declaration order.
Nothing if the value does not fit the layout. -/
def canonical? (layout : Layout) (value : Value) : Option Value :=
  match layout, value with
  | struct declared, .struct entries => (entries.arrange? declared.fields).map .struct
  | enum declared, .enum name payload => do
      let (_, variant) ← (declared.find name).toOption
      let arranged ← variant.arrange? payload
      some (.enum name arranged)
  | _, _ => none

/-- The canonical form of a struct has the entries of its fields, arranged. -/
theorem canonical?_struct {declared : StructLayout} {entries arranged : Entries}
    (found : entries.arrange? declared.fields = some arranged) :
    (struct declared).canonical? (.struct entries) = some (.struct arranged) := by
  simp [canonical?, found]

/-- The canonical form of a variant has the payload as the first variant of its name arranges it. -/
theorem canonical?_enum {declared : EnumLayout} {name : String} {index : Nat} {variant : Variant}
    {payload arranged : Option Entries} (first : declared.FirstDeclared name index variant)
    (reached : index < EnumLayout.greatestCount)
    (found : variant.arrange? payload = some arranged) :
    (enum declared).canonical? (.enum name payload) = some (.enum name arranged) := by
  simp [canonical?, first.find_eq_ok reached, Except.toOption, found]

/-- A written struct is read back, whatever follows it. -/
theorem Verdict.structWritten {declared : StructLayout} {entries : Entries}
    (complete : entries.shape = declared.fields) (rest : List UInt8) :
    (struct declared).Verdict (entries.bytes ++ rest) (.ok (.struct entries, rest)) := by
  have length : entries.bytes.length = declared.size := by
    rw [Entries.length_bytes, complete, StructLayout.size]
  have enough : declared.size ≤ (entries.bytes ++ rest).length := by
    rw [List.length_append]
    omega
  have verdict := Verdict.structRead enough complete (List.take_left' length).symm
  rw [List.drop_left' length] at verdict
  exact verdict

/-- A written variant is read back, whatever follows it. -/
theorem Verdict.enumWritten {declared : EnumLayout} {tag : UInt8} {variant : Variant}
    {payload : Option Entries} (here : declared.variants[tag.toNat]? = some variant)
    (complete : payload.map Entries.shape = variant.payload) (rest : List UInt8) :
    (enum declared).Verdict (tag :: ((payload.map Entries.bytes).getD [] ++ rest))
      (.ok (.enum variant.name payload, rest)) := by
  have length : (tag :: (payload.map Entries.bytes).getD []).length = variant.size := by
    cases payload with
    | none =>
        rw [Variant.size_of_bare complete.symm]
        rfl
    | some entries =>
        rw [Variant.size_of_payload complete.symm]
        simp [discriminantSize, Nat.add_comm]
  have front : (tag :: ((payload.map Entries.bytes).getD [] ++ rest)).take variant.size =
      tag :: (payload.map Entries.bytes).getD [] := List.take_left' length
  have behind : (tag :: ((payload.map Entries.bytes).getD [] ++ rest)).drop variant.size = rest :=
    List.drop_left' length
  have enough : variant.size ≤ (tag :: ((payload.map Entries.bytes).getD [] ++ rest)).length := by
    rw [← List.cons_append, List.length_append]
    omega
  have verdict := Verdict.enumRead here enough complete front.symm
  rw [behind] at verdict
  exact verdict

/-- Accepted bytes are read back as the canonical form, whatever follows them. -/
theorem Outcome.decode_append {layout : Layout} {value : Value} {bytes : List UInt8}
    (specified : layout.Outcome value (.ok bytes)) :
    ∃ canonical, layout.canonical? value = some canonical ∧
      ∀ rest, layout.decode (bytes ++ rest) = .ok (canonical, rest) := by
  cases specified with
  | structAccepted accepted =>
      obtain ⟨arranged, arranges, rfl⟩ := Entries.accepted_iff.mp accepted
      refine ⟨.struct arranged, canonical?_struct arranges.found, fun rest => ?_⟩
      exact (Verdict.structWritten arranges.shape rest).decode_eq
  | @bareAccepted declared name index variant first reached bare =>
      have complete : (none : Option Entries).map Entries.shape = variant.payload := bare.symm
      refine ⟨.enum name none, canonical?_enum first reached (Variant.arrange?_bare bare), ?_⟩
      intro rest
      have verdict := Verdict.enumWritten (first.here_ofNat reached) complete rest
      rw [first.named] at verdict
      exact verdict.decode_eq
  | @payloadAccepted declared name _ variant _ entries _ first reached carries accepted =>
      obtain ⟨arranged, arranges, rfl⟩ := Entries.accepted_iff.mp accepted
      have complete : (some arranged).map Entries.shape = variant.payload := by
        rw [carries, Option.map_some, arranges.shape]
      refine ⟨.enum name (some arranged),
        canonical?_enum first reached (Variant.arrange?_payload carries arranges.found), ?_⟩
      intro rest
      have verdict := Verdict.enumWritten (first.here_ofNat reached) complete rest
      rw [first.named] at verdict
      exact verdict.decode_eq

/-- A layout with a repeated variant and a repeated field. -/
def repeating : Layout :=
  .enum ⟨"Quote", [⟨"Void", none⟩,
    ⟨"Side", some [⟨"price", .u16⟩, ⟨"level", .u8⟩, ⟨"price", .u16⟩]⟩, ⟨"Side", none⟩]⟩

/-- A value of the repeating layout with its entries out of order and one of them twice. -/
def scattered : Value :=
  .enum "Side" (some [("level", ⟨.u8, 7, by decide⟩), ("price", ⟨.u16, 513, by decide⟩),
    ("level", ⟨.u8, 9, by decide⟩)])

/-- An encoding is decoded to the canonical form of the value, whatever follows it, and what
follows it is left unread. -/
theorem decode_encode_append {layout : Layout} {value : Value} {bytes : List UInt8}
    (accepted : layout.encode value = .ok bytes) :
    ∃ canonical, layout.canonical? value = some canonical ∧
      ∀ rest, layout.decode (bytes ++ rest) = .ok (canonical, rest) :=
  (outcome_of_encode_eq accepted).decode_append

/-- Entries out of order, under a repeated variant and a repeated field, are decoded as arranged. -/
theorem decode_encode_append_scattered :
    repeating.encode scattered = .ok [1, 1, 2, 7, 1, 2] ∧
      ∃ canonical, repeating.canonical? scattered = some canonical ∧
        ∀ rest, repeating.decode ([1, 1, 2, 7, 1, 2] ++ rest) = .ok (canonical, rest) :=
  ⟨rfl, decode_encode_append rfl⟩

end Layout

/-- Entries that show distinct fields are accepted with their own bytes. -/
theorem Entries.accepted_of_shape {entries : Entries} {fields : List Field}
    (complete : entries.shape = fields) (distinct : DistinctFields fields) :
    entries.Accepted fields entries.bytes := by
  have ordered : entries.map Prod.fst = fields.map Field.name := by
    rw [← complete, map_name_shape]
  refine accepted_iff.mpr ⟨entries, ⟨arrange?_self ordered distinct, complete, ?_⟩, rfl⟩
  intro entry member
  rw [← ordered]
  exact List.mem_map_of_mem member

/-- A payload with the names of distinct fields in order stays as it is. -/
theorem Variant.arrange?_self {variant : Variant} {payload : Option Entries}
    (wellFormed : variant.WellFormed)
    (ordered : payload.map (List.map Prod.fst) = variant.payload.map (List.map Field.name)) :
    variant.arrange? payload = some payload := by
  rcases carried : variant.payload with _ | fields <;> rcases payload with _ | entries
  · exact arrange?_bare carried
  · simp [carried] at ordered
  · simp [carried] at ordered
  · simp only [carried, Option.map_some, Option.some.injEq] at ordered
    exact arrange?_payload carried (Entries.arrange?_self ordered (wellFormed fields carried))

namespace Layout

/-- A value is ordered when its names are exactly the declared ones, in declaration order. -/
def Ordered : Layout → Value → Prop
  | struct declared, .struct entries => entries.map Prod.fst = declared.fields.map Field.name
  | enum declared, .enum name payload => ∃ variant ∈ declared.variants, variant.name = name ∧
      payload.map (List.map Prod.fst) = variant.payload.map (List.map Field.name)
  | _, _ => False

/-- Under distinct names an ordered value is its own canonical form. -/
theorem canonical?_of_ordered {layout : Layout} {value : Value} (wellFormed : layout.WellFormed)
    (ordered : layout.Ordered value) : layout.canonical? value = some value := by
  cases layout <;> cases value
  case struct.struct declared entries =>
    exact canonical?_struct (Entries.arrange?_self ordered wellFormed)
  case struct.enum => cases ordered
  case enum.struct => cases ordered
  case enum.enum declared name payload =>
    obtain ⟨variant, member, rfl, names⟩ := ordered
    obtain ⟨index, first, reached⟩ := EnumLayout.WellFormed.exists_firstDeclared wellFormed member
    exact canonical?_enum first reached
      (Variant.arrange?_self (wellFormed.variants variant member) names)

/-- Under distinct names an ordered value is decoded from its encoding, whatever follows it. -/
theorem WellFormed.decode_append {layout : Layout} {value : Value} {bytes : List UInt8}
    (wellFormed : layout.WellFormed) (ordered : layout.Ordered value)
    (accepted : layout.encode value = .ok bytes) (rest : List UInt8) :
    layout.decode (bytes ++ rest) = .ok (value, rest) := by
  obtain ⟨canonical, found, decoded⟩ := (outcome_of_encode_eq accepted).decode_append
  rw [canonical?_of_ordered wellFormed ordered] at found
  cases found
  exact decoded rest

/-- A value shows a layout when it has the declared names in order, with words of the
declared types. -/
inductive Shows : Layout → Value → Prop where
  | struct {declared entries} (complete : Entries.shape entries = declared.fields) :
      Shows (.struct declared) (.struct entries)
  | enum {declared variant payload} (member : variant ∈ declared.variants)
      (complete : payload.map Entries.shape = variant.payload) :
      Shows (.enum declared) (.enum variant.name payload)

/-- Decoded values show the layout. -/
theorem Verdict.shows {layout : Layout} {data rest : List UInt8} {value : Value}
    (specified : layout.Verdict data (.ok (value, rest))) : layout.Shows value := by
  cases specified with
  | structRead enough complete stands => exact .struct complete
  | enumRead here enough complete stands => exact .enum (List.mem_of_getElem? here) complete

/-- A value that shows a layout has the declared names in order. -/
theorem Shows.ordered {layout : Layout} {value : Value} (shown : layout.Shows value) :
    layout.Ordered value := by
  cases shown with
  | struct complete => rw [Ordered, ← complete, Entries.map_name_shape]
  | @enum declared variant payload member complete =>
      refine ⟨variant, member, rfl, ?_⟩
      rw [← complete]
      cases payload <;> simp [Entries.map_name_shape]

/-- Under distinct names a variant is accepted with a payload that shows its fields. -/
theorem Outcome.of_shape {declared : EnumLayout} (wellFormed : declared.WellFormed) {index : Nat}
    {variant : Variant} {payload : Option Entries}
    (here : declared.variants[index]? = some variant)
    (complete : payload.map Entries.shape = variant.payload) :
    (enum declared).Outcome (.enum variant.name payload)
      (.ok (UInt8.ofNat index :: (payload.map Entries.bytes).getD [])) := by
  have first := wellFormed.firstDeclared here
  have reached := wellFormed.reached here
  cases payload with
  | none => exact .bareAccepted first reached complete.symm
  | some entries =>
      have distinct := wellFormed.distinctFields here complete.symm
      exact .payloadAccepted first reached complete.symm (Entries.accepted_of_shape rfl distinct)

/-- Under distinct names a value that shows the layout is accepted. -/
theorem Shows.exists_outcome {layout : Layout} {value : Value} (shown : layout.Shows value)
    (wellFormed : layout.WellFormed) : ∃ bytes, layout.Outcome value (.ok bytes) := by
  cases shown with
  | struct complete => exact ⟨_, .structAccepted (Entries.accepted_of_shape complete wellFormed)⟩
  | enum member complete =>
      obtain ⟨index, here⟩ := List.mem_iff_getElem?.mp member
      exact ⟨_, .of_shape wellFormed here complete⟩

/-- Under distinct names a decoded value is ordered, and encoding it restores the bytes that
were read. -/
theorem Verdict.restore {layout : Layout} {data rest : List UInt8} {value : Value}
    (wellFormed : layout.WellFormed) (specified : layout.Verdict data (.ok (value, rest))) :
    layout.Ordered value ∧ ∃ bytes, layout.Outcome value (.ok bytes) ∧ bytes ++ rest = data := by
  refine ⟨specified.shows.ordered, ?_⟩
  cases specified with
  | @structRead declared data entries enough complete stands =>
      refine ⟨_, .structAccepted (Entries.accepted_of_shape complete wellFormed), ?_⟩
      rw [stands, List.take_append_drop]
  | @enumRead declared tag behind variant payload here enough complete stands =>
      have accepted := Outcome.of_shape wellFormed here complete
      rw [UInt8.ofNat_toNat] at accepted
      refine ⟨_, accepted, ?_⟩
      rw [stands, List.take_append_drop]

/-- Exact decoding is decoding with nothing left over. -/
theorem decodeExact_eq_ok_iff {layout : Layout} {data : List UInt8} {value : Value} :
    layout.decodeExact data = .ok value ↔ layout.decode data = .ok (value, []) := by
  rw [decodeExact, bind_eq_ok_iff]
  constructor
  · rintro ⟨⟨found, rest⟩, decoded, finished⟩
    cases rest with
    | nil =>
        cases finished
        exact decoded
    | cons byte bytes => cases finished
  · intro decoded
    exact ⟨(value, []), decoded, rfl⟩

/-- Decoding and encoding are inverse up to the order of entries: every value that can be
decoded has one encoding, and the bytes that decode exactly are the encodings. -/
structure EncodesUniquely (layout : Layout) : Prop where
  /-- Encoding a decoded value restores the bytes that were read. -/
  restored : ∀ data value rest, layout.decode data = .ok (value, rest) →
    ∃ bytes, layout.encode value = .ok bytes ∧ bytes ++ rest = data
  /-- Exact decoding yields the ordered values whose encoding is all of the bytes. -/
  exact_iff : ∀ data value,
    layout.decodeExact data = .ok value ↔ layout.Ordered value ∧ layout.encode value = .ok data
  /-- The bytes that decode exactly are the encodings of values. -/
  image : ∀ data,
    (∃ value, layout.decodeExact data = .ok value) ↔ ∃ value, layout.encode value = .ok data
  /-- Different bytes do not decode exactly to one value. -/
  separate : ∀ first second value, layout.decodeExact first = .ok value →
    layout.decodeExact second = .ok value → first = second

/-- An encoding decodes exactly to the canonical form of the value. -/
theorem Outcome.decodeExact {layout : Layout} {value : Value} {bytes : List UInt8}
    (specified : layout.Outcome value (.ok bytes)) :
    ∃ canonical, layout.canonical? value = some canonical ∧
      layout.decodeExact bytes = .ok canonical := by
  obtain ⟨canonical, found, decoded⟩ := specified.decode_append
  refine ⟨canonical, found, decodeExact_eq_ok_iff.mpr ?_⟩
  rw [← decoded [], List.append_nil]

/-- Under distinct names, exact decoding yields the ordered values whose encoding is all of
the bytes. -/
theorem WellFormed.decodeExact_eq_ok_iff {layout : Layout} {data : List UInt8} {value : Value}
    (wellFormed : layout.WellFormed) :
    layout.decodeExact data = .ok value ↔
      layout.Ordered value ∧ layout.encode value = .ok data := by
  constructor
  · intro decoded
    have verdict := verdict_of_decode_eq (Layout.decodeExact_eq_ok_iff.mp decoded)
    obtain ⟨ordered, bytes, specified, rfl⟩ := verdict.restore wellFormed
    rw [List.append_nil]
    exact ⟨ordered, specified.encode_eq⟩
  · rintro ⟨ordered, accepted⟩
    have decoded := wellFormed.decode_append ordered accepted []
    rw [List.append_nil] at decoded
    exact Layout.decodeExact_eq_ok_iff.mpr decoded

/-- A layout of distinct names, with and without a payload. -/
def orders : Layout :=
  .enum ⟨"Order", [⟨"Cancel", none⟩, ⟨"Limit", some [⟨"price", .u64⟩, ⟨"size", .u32⟩]⟩]⟩

/-- A validated layout gives every value that can be decoded one encoding. -/
theorem encodesUniquely_of_validate {layout : Layout} (valid : layout.validate = .ok ()) :
    layout.EncodesUniquely := by
  have wellFormed : layout.WellFormed := validate_eq_ok_iff.mp valid
  refine ⟨?restored, fun data value => wellFormed.decodeExact_eq_ok_iff, ?image, ?separate⟩
  case restored =>
    intro data value rest decoded
    obtain ⟨_, bytes, specified, joined⟩ := (verdict_of_decode_eq decoded).restore wellFormed
    exact ⟨bytes, specified.encode_eq, joined⟩
  case image =>
    intro data
    constructor
    · rintro ⟨value, decoded⟩
      exact ⟨value, (wellFormed.decodeExact_eq_ok_iff.mp decoded).2⟩
    · rintro ⟨value, accepted⟩
      obtain ⟨canonical, _, decoded⟩ := (outcome_of_encode_eq accepted).decodeExact
      exact ⟨canonical, decoded⟩
  case separate =>
    intro first second value fromFirst fromSecond
    have left := (wellFormed.decodeExact_eq_ok_iff.mp fromFirst).2
    have right := (wellFormed.decodeExact_eq_ok_iff.mp fromSecond).2
    exact Except.ok.inj (left.symm.trans right)

/-- Orders are encoded uniquely. -/
theorem encodesUniquely_orders : orders.validate = .ok () ∧ orders.EncodesUniquely :=
  ⟨rfl, encodesUniquely_of_validate rfl⟩

end Layout

end FixedLayout
