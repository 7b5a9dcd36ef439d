import FixedLayout.Proofs.CommandLine.Commands
import FixedLayout.Proofs.Value.Missing
import FixedLayout.Proofs.Value.Reordering

/-!
# Trees that describe encodings

`Layout.Describes` relates a tree to the bytes that it describes under a layout. It is
written without values, readers and encoders: every declared field is a key, nothing else
is, and each number fits its field. `CommandLine.acceptsDescribed_of_validate` shows that
under a validated layout exactly the described trees are encoded, as the bytes that they
describe.
-/

namespace FixedLayout

/-- The numbers of a type are those of as many bits as its bytes have. -/
theorem FieldType.capacity_eq (type : FieldType) : type.capacity = 2 ^ (8 * type.width) := by
  rw [capacity, Nat.pow_mul]

namespace Json

/-- The members of an object spell the bytes of some fields: for each field in order, the
digits of the number under its name, as many as the field is wide. -/
inductive Spells (members : List (String × Json)) : List Field → List UInt8 → Prop where
  | nil : Spells members [] []
  | cons {field fields tree n bytes} (found : members.lookup field.name = some tree)
      (denotes : tree.Denotes n) (fits : n < 2 ^ (8 * field.type.width))
      (others : Spells members fields bytes) :
      Spells members (field :: fields) (LittleEndian.digits field.type.width n ++ bytes)

/-- An object describes the bytes of some fields when it spells them and its keys are exactly
the names of the fields. -/
structure Describes (members : List (String × Json)) (fields : List Field) (bytes : List UInt8) :
    Prop where
  spells : Spells members fields bytes
  declared : ∀ member ∈ members, ∃ field ∈ fields, field.name = member.1

end Json

/-- The bytes that a tree describes under a layout. A variant without fields may be named
alone; for one without payload no fields may be given at all. -/
inductive Layout.Describes : Layout → Json → List UInt8 → Prop where
  | struct {declared members bytes} (describes : Json.Describes members declared.fields bytes) :
      Describes (.struct declared) (.object members) bytes
  | named {declared tree index variant} (here : declared.variants[index]? = some variant)
      (chooses : tree.Chooses variant.name none)
      (empty : variant.payload = none ∨ variant.payload = some []) :
      Describes (.enum declared) tree [UInt8.ofNat index]
  | filled {declared tree index variant fields given bytes}
      (here : declared.variants[index]? = some variant)
      (chooses : tree.Chooses variant.name (some given))
      (carries : variant.payload = some fields) (describes : Json.Describes given fields bytes) :
      Describes (.enum declared) tree (UInt8.ofNat index :: bytes)

section Fields

variable {members : List (String × Json)} {fields : List Field} {bytes : List UInt8}

/-- Spelled bytes are those of entries that show the fields, with the numbers under their
names. -/
theorem Json.spells_iff :
    Spells members fields bytes ↔
      ∃ entries : Entries, entries.shape = fields ∧ entries.bytes = bytes ∧
        ∀ entry ∈ entries, ∃ tree, members.lookup entry.1 = some tree ∧
          tree.Denotes entry.2.value := by
  constructor
  · intro spells
    induction spells with
    | nil => exact ⟨[], rfl, rfl, by simp⟩
    | @cons field fields tree n bytes found denotes fits others inductionHypothesis =>
        obtain ⟨entries, shown, same, denoted⟩ := inductionHypothesis
        have small : n < field.type.capacity := field.type.capacity_eq ▸ fits
        refine ⟨(field.name, ⟨field.type, n, small⟩) :: entries, ?_, ?_, ?_⟩
        · rw [Entries.shape_cons, shown]
        · rw [Entries.bytes_cons, same, Word.bytes, LittleEndian.encode_eq_digits]
        · exact List.forall_mem_cons.mpr ⟨⟨tree, found, denotes⟩, denoted⟩
  · rintro ⟨entries, rfl, rfl, denoted⟩
    induction entries with
    | nil => exact .nil
    | cons entry entries inductionHypothesis =>
        obtain ⟨⟨tree, found, denotes⟩, others⟩ := List.forall_mem_cons.mp denoted
        rw [Entries.bytes_cons, Word.bytes, LittleEndian.encode_eq_digits]
        exact .cons found denotes (entry.2.type.capacity_eq ▸ entry.2.fits)
          (inductionHypothesis others)

/-- Under distinct names, given entries that are accepted show all fields, and are written as
they stand. -/
theorem Entries.Given.shape_of_accepted {entries : Entries} (given : Given members fields entries)
    (accepted : entries.Accepted fields bytes) (distinct : DistinctFields fields) :
    entries.shape = fields ∧ entries.bytes = bytes := by
  obtain ⟨arranged, arranges, rfl⟩ := accepted_iff.mp accepted
  have complete : ∀ field ∈ fields, field.name ∈ members.map Prod.fst := by
    intro field declared
    obtain ⟨word, first, _⟩ :=
      exists_arranged_iff.mp ⟨arranged, arranges.found, arranges.shape⟩ field declared
    obtain ⟨tree, found, _⟩ := given.denoted _ (mem_of_lookup_eq_some first)
    exact List.mem_map_of_mem (mem_of_lookup_eq_some found)
  have shown := given.shape_of_complete complete
  have ordered : entries.map Prod.fst = fields.map Field.name := by
    rw [← shown, map_name_shape]
  have found := arranges.found
  rw [arrange?_self ordered distinct] at found
  cases found
  exact ⟨shown, rfl⟩

/-- Under distinct names, an object describes the bytes with which the entries that it conveys
are accepted. -/
theorem Json.describes_iff (distinct : DistinctFields fields) :
    Describes members fields bytes ↔
      ∃ entries, Entries.Conveyed members fields entries ∧ entries.Accepted fields bytes := by
  constructor
  · rintro ⟨spells, declared⟩
    obtain ⟨entries, shown, rfl, denoted⟩ := spells_iff.mp spells
    have complete : fields.filter (fun field => (members.lookup field.name).isSome) = fields := by
      rw [List.filter_eq_self, ← shown]
      intro field member
      obtain ⟨entry, present, rfl⟩ := List.mem_map.mp member
      obtain ⟨tree, found, _⟩ := denoted entry present
      exact Option.isSome_iff_exists.mpr ⟨tree, found⟩
    refine ⟨entries, ⟨⟨shown.trans complete.symm, denoted⟩, fun member written => ?_⟩,
      Entries.accepted_of_shape shown distinct⟩
    exact List.mem_map.mpr (declared member written)
  · rintro ⟨entries, conveyed, accepted⟩
    obtain ⟨shown, same⟩ := conveyed.given.shape_of_accepted accepted distinct
    exact ⟨spells_iff.mpr ⟨entries, shown, same, conveyed.given.denoted⟩,
      fun member written => List.mem_map.mp (conveyed.declared member written)⟩

/-- Without members only the absence of fields is described, by no bytes. -/
theorem Json.describes_nil_iff : Describes [] fields bytes ↔ fields = [] ∧ bytes = [] := by
  constructor
  · rintro ⟨spells, _⟩
    cases spells with
    | nil => exact ⟨rfl, rfl⟩
    | cons found _ _ _ => cases found
  · rintro ⟨rfl, rfl⟩
    exact ⟨.nil, by simp⟩

end Fields

namespace Layout

section Trees

variable {layout : Layout} {tree other : Json} {value : Value} {bytes : List UInt8}

/-- A tree describes the bytes with which the value that it conveys is accepted. -/
theorem Conveys.describes (wellFormed : layout.WellFormed) (conveys : layout.Conveys tree value)
    (accepted : layout.Outcome value (.ok bytes)) : layout.Describes tree bytes := by
  cases conveys with
  | struct conveyed =>
      cases accepted with
      | structAccepted accepted =>
          exact .struct ((Json.describes_iff wellFormed).mpr ⟨_, conveyed, accepted⟩)
  | bare first reached chooses bare =>
      cases accepted with
      | bareAccepted again _ _ =>
          obtain ⟨rfl, rfl⟩ := again.unique first
          exact .named first.here (first.named ▸ chooses) (.inl bare)
  | @payload _ _ _ _ _ given fields _ first reached chooses carries conveyed =>
      cases accepted with
      | payloadAccepted again _ carried accepted =>
          obtain ⟨rfl, rfl⟩ := again.unique first
          cases carried.symm.trans carries
          have distinct := EnumLayout.WellFormed.distinctFields wellFormed first.here carries
          have describes := (Json.describes_iff distinct).mpr ⟨_, conveyed, accepted⟩
          cases given with
          | none =>
              obtain ⟨rfl, rfl⟩ := Json.describes_nil_iff.mp describes
              exact .named first.here (first.named ▸ chooses) (.inr carries)
          | some given => exact .filled first.here (first.named ▸ chooses) carries describes

/-- A tree that describes bytes conveys a value that is accepted with them. -/
theorem Describes.exists_conveys (wellFormed : layout.WellFormed)
    (describes : layout.Describes tree bytes) :
    ∃ value, layout.Conveys tree value ∧ layout.Outcome value (.ok bytes) := by
  cases describes with
  | struct describes =>
      obtain ⟨entries, conveyed, accepted⟩ := (Json.describes_iff wellFormed).mp describes
      exact ⟨_, .struct conveyed, .structAccepted accepted⟩
  | named here chooses empty =>
      have first := EnumLayout.WellFormed.firstDeclared wellFormed here
      have reached := EnumLayout.WellFormed.reached wellFormed here
      rcases empty with bare | carries
      · exact ⟨_, .bare first reached chooses bare, .bareAccepted first reached bare⟩
      · have nothing : Entries.Accepted [] [] [] := ⟨.nil, by simp⟩
        exact ⟨_, .payload first reached chooses carries (Entries.conveyed_nil_iff.mpr rfl),
          .payloadAccepted first reached carries nothing⟩
  | filled here chooses carries describes =>
      have first := EnumLayout.WellFormed.firstDeclared wellFormed here
      have reached := EnumLayout.WellFormed.reached wellFormed here
      have distinct := EnumLayout.WellFormed.distinctFields wellFormed here carries
      obtain ⟨entries, conveyed, accepted⟩ := (Json.describes_iff distinct).mp describes
      exact ⟨_, .payload first reached chooses carries conveyed,
        .payloadAccepted first reached carries accepted⟩

/-- A tree is read as a value that is encoded exactly when it describes the bytes. -/
theorem exists_encode_iff_describes (wellFormed : layout.WellFormed) :
    (∃ value, Value.ofTree layout tree = .ok value ∧ layout.encode value = .ok bytes) ↔
      layout.Describes tree bytes := by
  simp only [Value.ofTree_eq_ok_iff, encode_eq_iff_outcome]
  constructor
  · rintro ⟨value, conveys, accepted⟩
    exact conveys.describes wellFormed accepted
  · exact Describes.exists_conveys wellFormed

/-- A tree describes the same bytes when its keys stand in another order. -/
theorem Describes.reorder (wellFormed : layout.WellFormed)
    (describes : layout.Describes tree bytes) (reorders : tree.Reorders other) :
    layout.Describes other bytes := by
  obtain ⟨value, conveys, accepted⟩ := describes.exists_conveys wellFormed
  exact (conveys.reorder reorders).describes wellFormed accepted

end Trees

end Layout

namespace CommandLine

/-- Which trees are encoded under a layout, and as which bytes. -/
structure AcceptsDescribed (layout : Layout) : Prop where
  /-- Exactly the trees that describe bytes are read as values and encoded, as these bytes. -/
  encoded_iff : ∀ tree bytes,
    (∃ value, Value.ofTree layout tree = .ok value ∧ layout.encode value = .ok bytes) ↔
      layout.Describes tree bytes
  /-- The order of the keys does not matter. -/
  reordered : ∀ tree other bytes, layout.Describes tree bytes → tree.Reorders other →
    layout.Describes other bytes
  /-- Under the name of the layout, the command that encodes answers exactly on texts of such
  trees; of a repeated key the last member counts. -/
  answered_iff : ∀ registry type, registry.get type = .ok layout → ∀ text answer,
    run registry (.encode type text) = .ok answer ↔
      ∃ tree bytes, Json.parse text = .ok tree ∧ layout.Describes tree.settle bytes ∧
        answer = String.ofList (Base64.encode bytes)

/-- Under a validated layout exactly the trees that describe bytes are encoded. -/
theorem acceptsDescribed_of_validate {layout : Layout} (valid : layout.validate = .ok ()) :
    AcceptsDescribed layout := by
  have wellFormed : layout.WellFormed := Layout.validate_eq_ok_iff.mp valid
  refine ⟨fun tree bytes => Layout.exists_encode_iff_describes wellFormed,
    fun tree other bytes describes => describes.reorder wellFormed, ?answered_iff⟩
  case answered_iff =>
    intro registry type known text answer
    rw [run_encode_eq_ok_iff]
    constructor
    · rintro ⟨found, tree, value, bytes, same, parsed, read, accepted, answered⟩
      cases known.symm.trans same
      have described := (Layout.exists_encode_iff_describes wellFormed).mp ⟨value, read, accepted⟩
      exact ⟨tree, bytes, parsed, described, answered⟩
    · rintro ⟨tree, bytes, parsed, describes, answered⟩
      obtain ⟨value, read, accepted⟩ :=
        (Layout.exists_encode_iff_describes wellFormed).mpr describes
      exact ⟨layout, tree, value, bytes, known, parsed, read, accepted, answered⟩

/-- A limit order with its keys out of order, a number as a numeral, and a key that is not
looked at. -/
def looseOrder : Json :=
  .object [("fields", .object [("size", .string "+007"), ("price", .number (.unsigned 258))]),
    ("note", .null), ("variant", .string "Limit")]

/-- Keys out of order, a numeral and a stray key still describe the bytes of a limit order. -/
theorem acceptsDescribed_of_validate_orders :
    Layout.orders.validate = .ok () ∧
      Layout.orders.Describes looseOrder [1, 2, 1, 0, 0, 0, 0, 0, 0, 7, 0, 0, 0] := by
  have read : Value.ofTree Layout.orders looseOrder =
      .ok (.enum "Limit" (some [("price", .ofUInt64 258), ("size", .ofBytes .u32 [7, 0, 0, 0])])) :=
    by rfl
  exact ⟨rfl, ((acceptsDescribed_of_validate rfl).encoded_iff _ _).mp ⟨_, read, rfl⟩⟩

end CommandLine

end FixedLayout
