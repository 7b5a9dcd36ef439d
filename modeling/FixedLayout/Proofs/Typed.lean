import FixedLayout.Proofs.Codec.Repeats
import FixedLayout.Proofs.Value.Offering
import FixedLayout.Typed

/-!
# The typed path over the wire

A type takes part in the codec by three descriptions: its layout and the two conversions.
`Typed.Lawful` says that they describe the same values, without mentioning bytes: typed
values convert to exactly the values that show the layout, and back. From it follows
`Typed.AgreesWithWire`: the typed path accepts, refuses and restores exactly the bytes that
the codec does. That the layout is validated is needed where bytes are restored.

A conversion from values looks names up by itself. `Typed.ReadsOffers` says that nothing else of
a value matters to it, and then it also understands values that the codec accepts without having
decoded them: entries in any order, some of them repeated.
-/

namespace FixedLayout

namespace Layout

/-- Under distinct names a value that shows the layout is written and read back, whatever
follows it. -/
theorem Shows.exists_encoding {layout : Layout} {value : Value} (shown : layout.Shows value)
    (wellFormed : layout.WellFormed) :
    ∃ bytes, layout.encode value = .ok bytes ∧
      ∀ rest, layout.decode (bytes ++ rest) = .ok (value, rest) := by
  obtain ⟨bytes, specified⟩ := shown.exists_outcome wellFormed
  have accepted := specified.encode_eq
  exact ⟨bytes, accepted, wellFormed.decode_append shown.ordered accepted⟩

end Layout

namespace Typed

/-- The layout of a type and its conversions describe the same values. -/
class Lawful (α : Type) [Typed α] : Prop where
  /-- The layout is validated. -/
  validate_layout : (layout α).validate = .ok ()
  /-- Every typed value converts to a value that shows the layout. -/
  shows_toValue : ∀ item : α, (layout α).Shows (toValue item)
  /-- Every value that shows the layout stands for a typed value. -/
  exists_toValue : ∀ value, (layout α).Shows value → ∃ item : α, toValue item = value
  /-- The typed value is found again. -/
  ofValue_toValue : ∀ item : α, ofValue (toValue item) = .ok item

/-- The typed path does on bytes what the codec does under the layout of the type. -/
structure AgreesWithWire (α : Type) [Typed α] : Prop where
  /-- Every typed value has an encoding, and is decoded from it whatever follows. -/
  restored : ∀ item : α, ∃ bytes, encode item = .ok bytes ∧
    ∀ rest, decode (bytes ++ rest) = .ok (item, rest)
  /-- Every value that the codec decodes is converted. -/
  converted : ∀ data value rest, (layout α).decode data = .ok (value, rest) →
    ∃ item : α, ofValue value = .ok item ∧ decode data = .ok (item, rest)
  /-- Bytes are refused exactly when the codec refuses them, for the same cause. -/
  refused_iff : ∀ data error,
    (decode data : Except LayoutError (α × List UInt8)) = .error error ↔
      (layout α).decode data = .error error
  /-- The bytes of a decoded typed value are its encoding. -/
  rewritten : ∀ data (item : α) rest, decode data = .ok (item, rest) →
    ∃ bytes, encode item = .ok bytes ∧ bytes ++ rest = data
  /-- A typed value stands for all of the bytes exactly when they are its encoding. -/
  exact_iff : ∀ data (item : α), decodeExact data = .ok item ↔ encode item = .ok data

section Laws

variable {α : Type} [Typed α] [Lawful α] {data rest : List UInt8} {item : α} {value : Value}
  {error : LayoutError}

omit [Lawful α] in
/-- Exact decoding is decoding with nothing left over. -/
theorem decodeExact_eq_ok_iff : decodeExact data = .ok item ↔ decode data = .ok (item, []) := by
  rw [decodeExact, bind_eq_ok_iff, decode, bind_eq_ok_iff]
  constructor
  · rintro ⟨value, decoded, converted⟩
    exact ⟨(value, []), Layout.decodeExact_eq_ok_iff.mp decoded,
      bind_eq_ok_iff.mpr ⟨item, converted, rfl⟩⟩
  · rintro ⟨⟨value, rest⟩, decoded, kept⟩
    obtain ⟨_, converted, same⟩ := bind_eq_ok_iff.mp kept
    cases same
    exact ⟨value, Layout.decodeExact_eq_ok_iff.mpr decoded, converted⟩

/-- Under the layout of a lawful type, what is decoded stands for a typed value. -/
theorem exists_toValue_of_decode (decoded : (layout α).decode data = .ok (value, rest)) :
    ∃ item : α, toValue item = value :=
  Lawful.exists_toValue value (Layout.verdict_of_decode_eq decoded).shows

/-- Decoding a typed value is decoding the value it converts to. -/
theorem decode_eq_ok_iff :
    decode data = .ok (item, rest) ↔ (layout α).decode data = .ok (toValue item, rest) := by
  rw [decode, bind_eq_ok_iff]
  constructor
  · rintro ⟨⟨value, left⟩, decoded, kept⟩
    obtain ⟨found, converted, same⟩ := bind_eq_ok_iff.mp kept
    cases same
    obtain ⟨stands, rfl⟩ := exists_toValue_of_decode (α := α) decoded
    rw [Lawful.ofValue_toValue] at converted
    cases converted
    exact decoded
  · intro decoded
    refine ⟨_, decoded, bind_eq_ok_iff.mpr ⟨item, ?_, rfl⟩⟩
    exact Lawful.ofValue_toValue item

/-- A conversion never refuses what was decoded, so the causes are those of the codec. -/
theorem decode_eq_error_iff :
    (decode data : Except LayoutError (α × List UInt8)) = .error error ↔
      (layout α).decode data = .error error := by
  rw [decode, bind_eq_error_iff]
  constructor
  · rintro (refused | ⟨⟨value, left⟩, decoded, failed⟩)
    · exact refused
    · obtain ⟨item, rfl⟩ := exists_toValue_of_decode (α := α) decoded
      rcases bind_eq_error_iff.mp failed with impossible | ⟨_, _, impossible⟩
      · rw [Lawful.ofValue_toValue] at impossible
        cases impossible
      · cases impossible
  · exact .inl

variable (α) in
/-- The typed path of a lawful type agrees with the wire. -/
theorem agreesWithWire_of_lawful : AgreesWithWire α := by
  have wellFormed : (layout α).WellFormed :=
    Layout.validate_eq_ok_iff.mp Lawful.validate_layout
  refine ⟨?restored, ?converted, fun data error => decode_eq_error_iff, ?rewritten, ?exact_iff⟩
  case restored =>
    intro item
    obtain ⟨bytes, encoded, decoded⟩ := (Lawful.shows_toValue item).exists_encoding wellFormed
    exact ⟨bytes, encoded, fun rest => decode_eq_ok_iff.mpr (decoded rest)⟩
  case converted =>
    intro data value rest decoded
    obtain ⟨item, rfl⟩ := exists_toValue_of_decode (α := α) decoded
    exact ⟨item, Lawful.ofValue_toValue item, decode_eq_ok_iff.mpr decoded⟩
  case rewritten =>
    intro data item rest decoded
    have specified := Layout.verdict_of_decode_eq (decode_eq_ok_iff.mp decoded)
    obtain ⟨_, bytes, accepted, joined⟩ := specified.restore wellFormed
    exact ⟨bytes, accepted.encode_eq, joined⟩
  case exact_iff =>
    intro data item
    rw [decodeExact_eq_ok_iff, decode_eq_ok_iff, ← Layout.decodeExact_eq_ok_iff,
      wellFormed.decodeExact_eq_ok_iff]
    exact and_iff_right (Lawful.shows_toValue item).ordered

end Laws

/-- A conversion from values takes every value that offers a typed one for it. -/
class ReadsOffers (α : Type) [Typed α] : Prop where
  ofValue_of_offers : ∀ {value : Value} {item : α}, value.Offers (toValue item) →
    ofValue value = .ok item

/-- The typed value is found again, since it offers itself. -/
theorem ofValue_toValue_of_shows {α : Type} [Typed α] [ReadsOffers α] {item : α}
    (valid : (layout α).validate = .ok ()) (shown : (layout α).Shows (toValue item)) :
    ofValue (toValue item) = .ok item :=
  ReadsOffers.ofValue_of_offers (shown.offers_self (Layout.validate_eq_ok_iff.mp valid))

/-- A typed value is what a conversion has to make of a value with the given encoding. -/
structure StandsFor {α : Type} [Typed α] (item : α) (value : Value) (bytes : List UInt8) :
    Prop where
  /-- The value is converted to it. -/
  converted : ofValue value = .ok item
  /-- It has the encoding of the value. -/
  encoded : encode item = .ok bytes
  /-- It converts to the canonical form of the value. -/
  canonical : (layout α).canonical? value = some (toValue item)
  /-- There the names stand in declaration order. -/
  ordered : (layout α).Ordered (toValue item)
  /-- The entries are the first ones of every name of the value. -/
  firsts : (toValue item).entries.Perm value.entries.firsts

/-- Every value that the codec accepts under the layout of a type stands for a typed value. -/
def Understands (α : Type) [Typed α] : Prop :=
  ∀ value bytes, (layout α).encode value = .ok bytes → ∃ item : α, StandsFor item value bytes

/-- The typed path of a lawful type that reads offers understands what the codec accepts. -/
theorem understands_of_lawful (α : Type) [Typed α] [Lawful α] [ReadsOffers α] : Understands α := by
  intro value bytes accepted
  have wellFormed : (layout α).WellFormed :=
    Layout.validate_eq_ok_iff.mp Lawful.validate_layout
  have specified := Layout.outcome_of_encode_eq accepted
  obtain ⟨canonical, found, decoded⟩ := specified.decodeExact
  -- What the codec makes of the encoding shows the layout, which the value itself need not do.
  have verdict := Layout.verdict_of_decode_eq (Layout.decodeExact_eq_ok_iff.mp decoded)
  obtain ⟨item, rfl⟩ := Lawful.exists_toValue canonical verdict.shows
  obtain ⟨ordered, encoded⟩ := wellFormed.decodeExact_eq_ok_iff.mp decoded
  exact ⟨item, ReadsOffers.ofValue_of_offers (Layout.offers_of_canonical? found), encoded, found,
    ordered, specified.perm_firsts wellFormed found⟩

end Typed

end FixedLayout
