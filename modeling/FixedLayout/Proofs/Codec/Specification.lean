import FixedLayout.Proofs.Bytes.Words
import FixedLayout.Proofs.Layout.Lookup
import FixedLayout.Proofs.Value.Entries

/-!
# The specification of the codec

`Layout.Outcome` relates a layout and a value to what encoding has to answer, the
cause of a refusal or the bytes, and `Layout.Verdict` relates a layout and some bytes
to what decoding has to answer. Both are written without the codec: searches are
stated as splits of a list at the item found, written bytes as digits of numbers, and
a decoded value by the bytes it stands for. Nothing requires a layout to be well
formed or the names of a value to be distinct.
-/

namespace FixedLayout

namespace Entries

/-- The first entry under a name holds the given word. -/
def First (entries : Entries) (name : String) (word : Word) : Prop :=
  ∃ earlier later, entries = earlier ++ (name, word) :: later ∧ ∀ entry ∈ earlier, entry.1 ≠ name

/-- The first entry under the name of a field has the type of the field. -/
def Gives (entries : Entries) (field : Field) : Prop :=
  ∃ word, entries.First field.name word ∧ word.type = field.type

/-- The cause for which entries are refused under some fields. The first field that the
entries do not give decides; an undeclared entry counts only if all fields are given. -/
inductive Refused (entries : Entries) (owner : String) (fields : List Field) :
    LayoutError → Prop where
  | missing {earlier field later} (split : fields = earlier ++ field :: later)
      (given : ∀ other ∈ earlier, entries.Gives other)
      (absent : ∀ entry ∈ entries, entry.1 ≠ field.name) :
      Refused entries owner fields (.missingField owner field.name)
  | mistyped {earlier field later word} (split : fields = earlier ++ field :: later)
      (given : ∀ other ∈ earlier, entries.Gives other)
      (first : entries.First field.name word) (differ : word.type ≠ field.type) :
      Refused entries owner fields (.fieldTypeMismatch owner field.name field.type word.type)
  | undeclared {earlier entry later} (given : ∀ field ∈ fields, entries.Gives field)
      (split : entries = earlier ++ entry :: later)
      (known : ∀ other ∈ earlier, ∃ field ∈ fields, field.name = other.1)
      (unknown : ∀ field ∈ fields, field.name ≠ entry.1) :
      Refused entries owner fields (.unknownField owner entry.1)

/-- The bytes of some fields under some entries: for each field in order, the digits of the
first word of its name, as many as the field is wide. -/
inductive Written (entries : Entries) : List Field → List UInt8 → Prop where
  | nil : Written entries [] []
  | cons {field fields word bytes} (first : entries.First field.name word)
      (typed : word.type = field.type) (others : Written entries fields bytes) :
      Written entries (field :: fields)
        (LittleEndian.digits field.type.width word.value ++ bytes)

/-- Entries are accepted with the given bytes: every field is given, and every entry is
declared. -/
structure Accepted (entries : Entries) (fields : List Field) (bytes : List UInt8) : Prop where
  written : entries.Written fields bytes
  declared : ∀ entry ∈ entries, ∃ field ∈ fields, field.name = entry.1

end Entries

/-- What encoding a value under a layout has to answer. -/
inductive Layout.Outcome : Layout → Value → Except LayoutError (List UInt8) → Prop where
  | kindMismatch {layout value} (differ : layout.kind ≠ value.kind) :
      Outcome layout value (.error (.kindMismatch layout.name layout.kind))
  | structRefused {declared entries error}
      (refused : entries.Refused declared.name declared.fields error) :
      Outcome (.struct declared) (.struct entries) (.error error)
  | structAccepted {declared entries bytes} (accepted : entries.Accepted declared.fields bytes) :
      Outcome (.struct declared) (.struct entries) (.ok bytes)
  | unknownVariant {declared name payload}
      (unreached : ∀ index variant, declared.FirstDeclared name index variant → 256 ≤ index) :
      Outcome (.enum declared) (.enum name payload) (.error (.unknownVariant declared.name name))
  | unexpectedPayload {declared name index variant entries}
      (first : declared.FirstDeclared name index variant) (reached : index < 256)
      (bare : variant.payload = none) :
      Outcome (.enum declared) (.enum name (some entries))
        (.error (.unexpectedPayload declared.name name))
  | missingPayload {declared name index variant fields}
      (first : declared.FirstDeclared name index variant) (reached : index < 256)
      (carries : variant.payload = some fields) :
      Outcome (.enum declared) (.enum name none) (.error (.missingPayload declared.name name))
  | payloadRefused {declared name index variant fields entries error}
      (first : declared.FirstDeclared name index variant) (reached : index < 256)
      (carries : variant.payload = some fields)
      (refused : entries.Refused (declared.name ++ "::" ++ name) fields error) :
      Outcome (.enum declared) (.enum name (some entries)) (.error error)
  | bareAccepted {declared name index variant}
      (first : declared.FirstDeclared name index variant) (reached : index < 256)
      (bare : variant.payload = none) :
      Outcome (.enum declared) (.enum name none) (.ok [UInt8.ofNat index])
  | payloadAccepted {declared name index variant fields entries bytes}
      (first : declared.FirstDeclared name index variant) (reached : index < 256)
      (carries : variant.payload = some fields) (accepted : entries.Accepted fields bytes) :
      Outcome (.enum declared) (.enum name (some entries)) (.ok (UInt8.ofNat index :: bytes))

/-- What decoding some bytes under a layout has to answer. The entries of a decoded value
show the declared fields and stand for exactly the bytes that are missing from the rest. -/
inductive Layout.Verdict :
    Layout → List UInt8 → Except LayoutError (Value × List UInt8) → Prop where
  | structShort {declared data} (short : data.length < declared.size) :
      Verdict (.struct declared) data
        (.error (.truncatedInput declared.name declared.size data.length))
  | structRead {declared data entries} (enough : declared.size ≤ data.length)
      (complete : Entries.shape entries = declared.fields)
      (stands : entries.bytes = data.take declared.size) :
      Verdict (.struct declared) data (.ok (.struct entries, data.drop declared.size))
  | enumEmpty {declared} :
      Verdict (.enum declared) [] (.error (.truncatedInput declared.name 1 0))
  | unknownTag {declared tag behind} (beyond : declared.variants.length ≤ tag.toNat) :
      Verdict (.enum declared) (tag :: behind) (.error (.unknownDiscriminant declared.name tag))
  | enumShort {declared tag behind variant}
      (here : declared.variants[tag.toNat]? = some variant)
      (short : (tag :: behind).length < variant.size) :
      Verdict (.enum declared) (tag :: behind)
        (.error (.truncatedInput declared.name variant.size (tag :: behind).length))
  | enumRead {declared tag behind variant payload}
      (here : declared.variants[tag.toNat]? = some variant)
      (enough : variant.size ≤ (tag :: behind).length)
      (complete : payload.map Entries.shape = variant.payload)
      (stands : tag :: (payload.map Entries.bytes).getD [] = (tag :: behind).take variant.size) :
      Verdict (.enum declared) (tag :: behind)
        (.ok (.enum variant.name payload, (tag :: behind).drop variant.size))

end FixedLayout
