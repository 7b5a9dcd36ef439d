import FixedLayout.Proofs.Codec.RoundTrip

/-!
# Layouts that grow at the end

A layout may get further variants or fields behind those it has. Further variants leave
every discriminant and every first declaration where it is, so what could be written or
read before can be written or read as before. Further fields stand behind the bytes of the
others, so who knows only the others reads them and finds the further ones left over.
-/

namespace FixedLayout

namespace EnumLayout

/-- The enum with further variants behind its own. -/
def extend (declared : EnumLayout) (further : List Variant) : EnumLayout :=
  { declared with variants := declared.variants ++ further }

variable {declared : EnumLayout} {name : String} {index : Nat} {variant : Variant}

/-- A variant keeps its place when others follow. -/
theorem getElem?_variants_extend (here : declared.variants[index]? = some variant)
    (further : List Variant) : (declared.extend further).variants[index]? = some variant := by
  have bound : index < declared.variants.length := (List.getElem?_eq_some_iff.mp here).1
  rw [extend, List.getElem?_append_left bound, here]

/-- The first declaration of a name stays the first one when others follow. -/
theorem FirstDeclared.extend (first : declared.FirstDeclared name index variant)
    (further : List Variant) : (declared.extend further).FirstDeclared name index variant where
  here := getElem?_variants_extend first.here further
  named := first.named
  fresh := by
    intro earlier less other found
    apply first.fresh earlier less
    have bound : index < declared.variants.length := (List.getElem?_eq_some_iff.mp first.here).1
    rw [EnumLayout.extend, List.getElem?_append_left (Nat.lt_trans less bound)] at found
    exact found

end EnumLayout

/-- The struct with further fields behind its own. -/
def StructLayout.extend (declared : StructLayout) (further : List Field) : StructLayout :=
  { declared with fields := declared.fields ++ further }

namespace Layout

/-- A value of an enum is written as before when further variants follow. -/
theorem Outcome.extend {declared : EnumLayout} {value : Value} {bytes : List UInt8}
    (specified : (enum declared).Outcome value (.ok bytes)) (further : List Variant) :
    (enum (declared.extend further)).Outcome value (.ok bytes) := by
  cases specified with
  | bareAccepted first reached bare => exact .bareAccepted (first.extend further) reached bare
  | payloadAccepted first reached carries accepted =>
      exact .payloadAccepted (first.extend further) reached carries accepted

/-- A value of an enum is read as before when further variants follow. -/
theorem Verdict.extend {declared : EnumLayout} {data : List UInt8} {result : Value × List UInt8}
    (specified : (enum declared).Verdict data (.ok result)) (further : List Variant) :
    (enum (declared.extend further)).Verdict data (.ok result) := by
  cases specified with
  | enumRead here enough complete stands =>
      exact .enumRead (EnumLayout.getElem?_variants_extend here further) enough complete stands

/-- A struct is read when its bytes are there, and its entries are those of its fields. -/
theorem decode_struct_eq_ok_iff {declared : StructLayout} {data rest : List UInt8} {value : Value} :
    (struct declared).decode data = .ok (value, rest) ↔
      declared.size ≤ data.length ∧ value = .struct (Entries.ofBytes declared.fields data) ∧
        rest = data.drop declared.size := by
  constructor
  · intro decoded
    cases verdict_of_decode_eq decoded with
    | structRead enough complete stands =>
        have entries := (Entries.eq_ofBytes_iff enough).mpr ⟨complete, stands⟩
        exact ⟨enough, congrArg Value.struct entries, rfl⟩
  · rintro ⟨enough, rfl, rfl⟩
    exact (Verdict.structOfBytes enough).decode_eq

/-- What is written or read under `earlier` is written or read under `later` in the same way. -/
structure Honours (later earlier : Layout) : Prop where
  encodes : ∀ value bytes, earlier.encode value = .ok bytes → later.encode value = .ok bytes
  decodes : ∀ data result, earlier.decode data = .ok result → later.decode data = .ok result

/-- An enum with further variants writes and reads what it did without them. -/
theorem honours_extend (declared : EnumLayout) (further : List Variant) :
    (enum (declared.extend further)).Honours (enum declared) where
  encodes := by
    intro value bytes accepted
    exact ((outcome_of_encode_eq accepted).extend further).encode_eq
  decodes := by
    intro data result decoded
    exact ((verdict_of_decode_eq decoded).extend further).decode_eq

/-- What is read under `whole` can be read under `front` and then, from what that leaves over,
under `back`: the entries are those of `front` followed by those of `back`. -/
def Splits (whole front back : StructLayout) : Prop :=
  ∀ data value rest, (struct whole).decode data = .ok (value, rest) →
    ∃ entries middle, value = .struct entries ∧
      (struct front).decode data = .ok (.struct (entries.take front.fields.length), middle) ∧
        (struct back).decode middle = .ok (.struct (entries.drop front.fields.length), rest)

/-- A struct with further fields splits into the one without them and one of just them. -/
theorem splits_extend (declared : StructLayout) (further : List Field) (name : String) :
    Splits (declared.extend further) declared ⟨name, further⟩ := by
  intro data value rest decoded
  obtain ⟨enough, rfl, rfl⟩ := decode_struct_eq_ok_iff.mp decoded
  have size : (declared.extend further).size = declared.size + fieldsSize further :=
    fieldsSize_append declared.fields further
  have entries : Entries.ofBytes (declared.extend further).fields data =
      Entries.ofBytes declared.fields data ++
        Entries.ofBytes further (data.drop declared.size) :=
    Entries.ofBytes_append declared.fields further data
  have count : (Entries.ofBytes declared.fields data).length = declared.fields.length :=
    Entries.length_ofBytes declared.fields data
  rw [size] at enough ⊢
  refine ⟨_, data.drop declared.size, rfl, ?front, ?back⟩
  case front =>
    rw [entries, List.take_left' count, decode_struct_eq_ok_iff]
    exact ⟨Nat.le_trans (Nat.le_add_right _ _) enough, rfl, rfl⟩
  case back =>
    have behind : fieldsSize further ≤ (data.drop declared.size).length := by
      rw [List.length_drop]
      omega
    rw [entries, List.drop_left' count, decode_struct_eq_ok_iff]
    exact ⟨behind, rfl, List.drop_drop.symm⟩

/-- Growth at the end keeps the format: further variants leave what was written and read before
as it was, and further fields are read behind those that were there. -/
theorem honours_extend_and_splits_extend :
    (∀ (declared : EnumLayout) (further : List Variant),
      (enum (declared.extend further)).Honours (enum declared)) ∧
      ∀ (declared : StructLayout) (further : List Field) (name : String),
        Splits (declared.extend further) declared ⟨name, further⟩ :=
  ⟨honours_extend, splits_extend⟩

/-- An enum to which a variant of a known name is added. -/
def limited : EnumLayout := ⟨"Order", [⟨"Cancel", none⟩, ⟨"Limit", some [⟨"price", .u16⟩]⟩]⟩

/-- A limit keeps its encoding when a second variant of its name is added, and a tick with a size is
read as a tick and, behind it, as the fields that were added. -/
theorem honours_extend_and_splits_extend_limited :
    (enum (limited.extend [⟨"Limit", none⟩])).encode
        (.enum "Limit" (some [("price", ⟨.u16, 513, by decide⟩)])) = .ok [1, 1, 2] ∧
      ∃ entries middle,
        Value.struct [("price", ⟨.u8, 7, by decide⟩), ("size", ⟨.u16, 9, by decide⟩)] =
            .struct entries ∧
          (struct ⟨"Tick", [⟨"price", .u8⟩]⟩).decode [7, 9, 0, 5] =
              .ok (.struct (entries.take 1), middle) ∧
            (struct ⟨"More", [⟨"size", .u16⟩]⟩).decode middle =
              .ok (.struct (entries.drop 1), [5]) :=
  ⟨(honours_extend_and_splits_extend.1 limited [⟨"Limit", none⟩]).encodes _ _ rfl,
    honours_extend_and_splits_extend.2 ⟨"Tick", [⟨"price", .u8⟩]⟩ [⟨"size", .u16⟩] "More"
      [7, 9, 0, 5] _ _ rfl⟩

end Layout

end FixedLayout
