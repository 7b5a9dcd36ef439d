import FixedLayout.Proofs.Bytes.Words
import FixedLayout.Proofs.Layout.Sizes
import FixedLayout.Proofs.Members

/-!
# Entries in declaration order

Entries that stand in the order of some fields are the decoded form of those
fields. `Entries.ofBytes_bytes` and `Entries.bytes_ofBytes` relate them to the
bytes of their words in both directions. `Entries.arrange?` brings arbitrary
entries into declaration order by looking each declared name up; nothing here
requires names to be distinct unless it says so.
-/

namespace FixedLayout

namespace Entries

/-- The fields that entries show: their names with the types of their words. -/
def shape (entries : Entries) : List Field := entries.map fun entry => ⟨entry.1, entry.2.type⟩

/-- The bytes of the words, one word behind the other. -/
def bytes (entries : Entries) : List UInt8 := entries.flatMap fun entry => entry.2.bytes

/-- The entries of some fields whose words stand one behind the other at the front of
some bytes. -/
def ofBytes : List Field → List UInt8 → Entries
  | [], _ => []
  | field :: fields, bytes =>
      (field.name, Word.ofBytes field.type bytes) :: ofBytes fields (bytes.drop field.type.width)

@[simp] theorem shape_nil : shape [] = [] := rfl

@[simp] theorem shape_cons (entry : String × Word) (entries : Entries) :
    shape (entry :: entries) = ⟨entry.1, entry.2.type⟩ :: shape entries := rfl

@[simp] theorem bytes_nil : bytes [] = [] := rfl

@[simp] theorem bytes_cons (entry : String × Word) (entries : Entries) :
    bytes (entry :: entries) = entry.2.bytes ++ bytes entries := rfl

/-- Entries show no fields exactly if there are none of them. -/
theorem shape_eq_nil_iff {entries : Entries} : entries.shape = [] ↔ entries = [] :=
  List.map_eq_nil_iff

/-- Entries show a field and further fields when they start with a word for it. -/
theorem shape_eq_cons_iff {entries : Entries} {field : Field} {fields : List Field} :
    entries.shape = field :: fields ↔
      ∃ (word : Word) (others : Entries), entries = (field.name, word) :: others ∧
        word.type = field.type ∧ others.shape = fields := by
  constructor
  · intro shown
    obtain ⟨⟨name, word⟩, others, rfl, same, rest⟩ := List.map_eq_cons_iff.mp shown
    subst same
    exact ⟨word, others, rfl, rfl, rest⟩
  · rintro ⟨word, others, rfl, typed, rfl⟩
    rw [shape_cons, typed]

/-- The names of entries are the names of the fields they show. -/
theorem map_name_shape (entries : Entries) :
    entries.shape.map Field.name = entries.map Prod.fst := by
  simp [shape]

/-- Entries take as many bytes as the fields they show. -/
@[simp] theorem length_bytes (entries : Entries) :
    entries.bytes.length = fieldsSize entries.shape := by
  induction entries with
  | nil => rfl
  | cons entry entries inductionHypothesis => simp [inductionHypothesis]

/-- Reading fields yields entries that show them. -/
@[simp] theorem shape_ofBytes (fields : List Field) (bytes : List UInt8) :
    (ofBytes fields bytes).shape = fields := by
  induction fields generalizing bytes with
  | nil => rfl
  | cons field fields inductionHypothesis => simp [ofBytes, inductionHypothesis]

/-- Reading fields yields an entry for each of them. -/
@[simp] theorem length_ofBytes (fields : List Field) (bytes : List UInt8) :
    (ofBytes fields bytes).length = fields.length := by
  have shown := congrArg List.length (shape_ofBytes fields bytes)
  rwa [shape, List.length_map] at shown

/-- The entries of two lists of fields are those of the first and then, from the bytes behind
them, those of the second. -/
theorem ofBytes_append (front back : List Field) (bytes : List UInt8) :
    ofBytes (front ++ back) bytes =
      ofBytes front bytes ++ ofBytes back (bytes.drop (fieldsSize front)) := by
  induction front generalizing bytes with
  | nil => rfl
  | cons field front inductionHypothesis =>
      rw [List.cons_append, ofBytes, ofBytes, inductionHypothesis, List.drop_drop, fieldsSize_cons,
        List.cons_append]

/-- Written entries are read back, whatever follows them. -/
theorem ofBytes_bytes (entries : Entries) (rest : List UInt8) :
    ofBytes entries.shape (entries.bytes ++ rest) = entries := by
  induction entries with
  | nil => rfl
  | cons entry entries inductionHypothesis =>
      have behind : (entry.2.bytes ++ (bytes entries ++ rest)).drop entry.2.type.width =
          bytes entries ++ rest :=
        List.drop_left' (Word.length_bytes entry.2)
      rw [shape_cons, bytes_cons, List.append_assoc, ofBytes, Word.ofBytes_bytes, behind,
        inductionHypothesis]

/-- Entries that were read are written back to the bytes they were read from. -/
theorem bytes_ofBytes {fields : List Field} {bytes : List UInt8}
    (enough : fieldsSize fields ≤ bytes.length) :
    (ofBytes fields bytes).bytes = bytes.take (fieldsSize fields) := by
  induction fields generalizing bytes with
  | nil => simp [ofBytes]
  | cons field fields inductionHypothesis =>
      rw [fieldsSize_cons] at enough ⊢
      have first : field.type.width ≤ bytes.length := by omega
      have others : fieldsSize fields ≤ (bytes.drop field.type.width).length := by
        rw [List.length_drop]
        omega
      rw [ofBytes, bytes_cons, Word.bytes_ofBytes first, inductionHypothesis others, List.take_add]

/-- Only one list of entries shows some fields and stands for the bytes they are read from. -/
theorem eq_ofBytes_iff {entries : Entries} {fields : List Field} {bytes : List UInt8}
    (enough : fieldsSize fields ≤ bytes.length) :
    entries = ofBytes fields bytes ↔
      entries.shape = fields ∧ entries.bytes = bytes.take (fieldsSize fields) := by
  constructor
  · rintro rfl
    exact ⟨shape_ofBytes fields bytes, bytes_ofBytes enough⟩
  · rintro ⟨complete, stands⟩
    have readBack := ofBytes_bytes entries (bytes.drop (fieldsSize fields))
    rw [complete, stands, List.take_append_drop] at readBack
    exact readBack.symm

/-- The first entry under each declared name, in declaration order; nothing if a name
has no entry. -/
def arrange? (entries : Entries) (fields : List Field) : Option Entries :=
  fields.mapM fun field => (entries.lookup field.name).map fun word => (field.name, word)

/-- Arranged entries carry the declared names in order, and each of them is a first
entry of its name. -/
theorem arrange?_eq_some_iff {entries arranged : Entries} {fields : List Field} :
    entries.arrange? fields = some arranged ↔
      arranged.map Prod.fst = fields.map Field.name ∧
        ∀ entry ∈ arranged, entries.lookup entry.1 = some entry.2 := by
  induction fields generalizing arranged with
  | nil =>
      constructor
      · intro found
        cases found
        simp
      · rintro ⟨names, _⟩
        rw [List.map_eq_nil_iff.mp names]
        rfl
  | cons field fields inductionHypothesis =>
      simp only [arrange?, List.mapM_cons] at inductionHypothesis ⊢
      constructor
      · intro found
        simp only [Option.bind_eq_bind, Option.bind_eq_some_iff, Option.map_eq_some_iff] at found
        obtain ⟨_, ⟨word, given, rfl⟩, others, rest, same⟩ := found
        cases same
        obtain ⟨names, firsts⟩ := inductionHypothesis.mp rest
        refine ⟨by simp [names], ?_⟩
        intro entry member
        rcases List.mem_cons.mp member with rfl | member
        · exact given
        · exact firsts entry member
      · rintro ⟨names, firsts⟩
        obtain ⟨⟨name, word⟩, others, rfl, rfl, otherNames⟩ := List.map_eq_cons_iff.mp names
        have given := firsts _ List.mem_cons_self
        have rest := inductionHypothesis.mpr
          ⟨otherNames, fun entry member => firsts entry (List.mem_cons_of_mem _ member)⟩
        simp only at given
        simp [given, rest]

/-- A first entry of a name stands before the arranged entries of further fields. -/
theorem arrange?_cons {entries arranged : Entries} {field : Field} {fields : List Field}
    {word : Word} (first : entries.lookup field.name = some word)
    (found : entries.arrange? fields = some arranged) :
    entries.arrange? (field :: fields) = some ((field.name, word) :: arranged) := by
  rw [arrange?_eq_some_iff] at found ⊢
  obtain ⟨names, firsts⟩ := found
  refine ⟨by simp [names], fun entry member => ?_⟩
  rcases List.mem_cons.mp member with rfl | member
  · exact first
  · exact firsts entry member

/-- Entries that already stand in the order of distinct fields stay as they are. -/
theorem arrange?_self {entries : Entries} {fields : List Field}
    (ordered : entries.map Prod.fst = fields.map Field.name)
    (distinct : (fields.map Field.name).Nodup) : entries.arrange? fields = some entries := by
  rw [arrange?_eq_some_iff]
  refine ⟨ordered, fun entry member => ?_⟩
  rw [← ordered] at distinct
  exact (lookup_eq_some_iff_mem distinct).mpr member

end Entries

end FixedLayout
