import FixedLayout.Codec.Encode
import FixedLayout.Proofs.Attempts
import FixedLayout.Proofs.Codec.Specification
import FixedLayout.Proofs.Value.Entries

/-!
# Checked entries

`Entries.Arranges` says when entries can be written as some fields: each declared
name has a first entry of the declared type, and no entry is undeclared. It carries
the entries that are written, in declaration order. `Entries.check_eq_ok_iff` shows
that the check accepts exactly that, and `Entries.check_eq_error_iff_refused` that it
refuses everything else for the specified cause.
-/

namespace FixedLayout

namespace Entries

/-- A declared field passes when the first entry of its name has its type. -/
theorem checkField_eq_ok_iff {entries : Entries} {owner : String} {field : Field} :
    entries.checkField owner field = .ok () ↔
      ∃ word, entries.lookup field.name = some word ∧ word.type = field.type := by
  rw [checkField, bind_eq_ok_iff, require]
  cases entries.lookup field.name with
  | none => simp
  | some word =>
      by_cases typed : word.type = field.type
      · simp [typed, pure, Except.pure]
      · simp [typed]

/-- A declared field is refused when its name has no entry, or a first entry of
another type. -/
theorem checkField_eq_error_iff {entries : Entries} {owner : String} {field : Field}
    {error : LayoutError} :
    entries.checkField owner field = .error error ↔
      entries.lookup field.name = none ∧ error = .missingField owner field.name ∨
        ∃ word, entries.lookup field.name = some word ∧ word.type ≠ field.type ∧
          error = .fieldTypeMismatch owner field.name field.type word.type := by
  rw [checkField, bind_eq_error_iff, require]
  cases entries.lookup field.name with
  | none => simp [eq_comm]
  | some word =>
      by_cases typed : word.type = field.type
      · simp [typed, pure, Except.pure]
      · simp [typed, eq_comm]

/-- No entry is undeclared when every entry has the name of a field. -/
theorem undeclared?_eq_none_iff {entries : Entries} {fields : List Field} :
    entries.undeclared? fields = none ↔ ∀ entry ∈ entries, entry.1 ∈ fields.map Field.name := by
  simp [undeclared?, List.find?_eq_none]

/-- The undeclared entry is the first one whose name no field has. -/
theorem undeclared?_eq_some_iff {entries : Entries} {fields : List Field}
    {entry : String × Word} :
    entries.undeclared? fields = some entry ↔
      entry.1 ∉ fields.map Field.name ∧ ∃ earlier later, entries = earlier ++ entry :: later ∧
        ∀ other ∈ earlier, other.1 ∈ fields.map Field.name := by
  simp [undeclared?, List.find?_eq_some_iff_append]

/-- The check looks at the fields first and at the names of the entries only then. -/
theorem check_eq_error_iff {entries : Entries} {owner : String} {fields : List Field}
    {error : LayoutError} :
    entries.check owner fields = .error error ↔
      fields.forM (entries.checkField owner) = .error error ∨
        fields.forM (entries.checkField owner) = .ok () ∧
          ∃ entry, entries.undeclared? fields = some entry ∧
            error = .unknownField owner entry.1 := by
  rw [check, bind_eq_error_iff]
  cases entries.undeclared? fields with
  | none => simp [pure, Except.pure]
  | some entry =>
      constructor
      · rintro (failed | ⟨_, passed, refused⟩)
        · exact .inl failed
        · cases refused
          exact .inr ⟨passed, entry, rfl, rfl⟩
      · rintro (failed | ⟨passed, _, same, rfl⟩)
        · exact .inl failed
        · cases same
          exact .inr ⟨(), passed, rfl⟩

/-- The entries can be written as the fields, and `arranged` is what is written. -/
structure Arranges (entries : Entries) (fields : List Field) (arranged : Entries) : Prop where
  found : entries.arrange? fields = some arranged
  shape : arranged.shape = fields
  declared : ∀ entry ∈ entries, entry.1 ∈ fields.map Field.name

/-- Every declared name has a first entry of the declared type exactly when the
entries can be arranged into the declared shape. -/
theorem exists_arranged_iff {entries : Entries} {fields : List Field} :
    (∃ arranged, entries.arrange? fields = some arranged ∧ arranged.shape = fields) ↔
      ∀ field ∈ fields, ∃ word, entries.lookup field.name = some word ∧ word.type = field.type := by
  constructor
  · rintro ⟨arranged, found, shape⟩ field member
    rw [← shape] at member
    obtain ⟨entry, present, rfl⟩ := List.mem_map.mp member
    exact ⟨entry.2, (arrange?_eq_some_iff.mp found).2 entry present, rfl⟩
  · intro given
    induction fields with
    | nil => exact ⟨[], rfl, rfl⟩
    | cons field fields inductionHypothesis =>
        obtain ⟨word, first, typed⟩ := given field List.mem_cons_self
        obtain ⟨others, found, shape⟩ := inductionHypothesis fun other member =>
          given other (List.mem_cons_of_mem _ member)
        exact ⟨(field.name, word) :: others, arrange?_cons first found, by
          rw [shape_cons, shape, typed]⟩

/-- The check accepts exactly the entries that can be written. -/
theorem check_eq_ok_iff {entries : Entries} {owner : String} {fields : List Field} :
    entries.check owner fields = .ok () ↔ ∃ arranged, entries.Arranges fields arranged := by
  have fieldsPass : fields.forM (entries.checkField owner) = .ok () ↔
      ∃ arranged, entries.arrange? fields = some arranged ∧ arranged.shape = fields := by
    rw [forM_eq_ok_iff, exists_arranged_iff]
    exact forall₂_congr fun _ _ => checkField_eq_ok_iff
  rw [check, bind_eq_ok_iff]
  constructor
  · rintro ⟨_, passed, declared⟩
    obtain ⟨arranged, found, shape⟩ := fieldsPass.mp passed
    refine ⟨arranged, found, shape, undeclared?_eq_none_iff.mp ?_⟩
    rcases unknown : entries.undeclared? fields with _ | entry
    · rfl
    · rw [unknown] at declared
      cases declared
  · rintro ⟨arranged, found, shape, declared⟩
    refine ⟨(), fieldsPass.mpr ⟨arranged, found, shape⟩, ?_⟩
    rw [undeclared?_eq_none_iff.mpr declared]
    rfl

end Entries

/-- Writing the fields writes the arranged entries one behind the other. -/
theorem Output.putFields_of_arrange? {entries arranged : Entries} {fields : List Field}
    (found : entries.arrange? fields = some arranged) (output : Output) :
    output.putFields fields entries = output.putBytes arranged.bytes := by
  induction fields generalizing output arranged with
  | nil =>
      cases found
      simp [putFields, putBytes]
  | cons field fields inductionHypothesis =>
      rw [Entries.arrange?_eq_some_iff] at found
      obtain ⟨names, firsts⟩ := found
      obtain ⟨⟨name, word⟩, others, rfl, rfl, otherNames⟩ := List.map_eq_cons_iff.mp names
      have first : entries.lookup field.name = some word := firsts _ List.mem_cons_self
      have rest : entries.arrange? fields = some others := Entries.arrange?_eq_some_iff.mpr
        ⟨otherNames, fun entry member => firsts entry (List.mem_cons_of_mem _ member)⟩
      have written := inductionHypothesis rest (output.putWord word)
      simp only [putFields, List.foldl_cons, first] at written ⊢
      rw [written]
      simp [putWord, putBytes]

namespace Entries

/-- What is looked up among entries is the word of the first one with the name. -/
theorem lookup_eq_some_iff {entries : Entries} {name : String} {word : Word} :
    entries.lookup name = some word ↔ entries.First name word := by
  rw [List.lookup_eq_some_iff]
  refine exists₂_congr fun earlier later => and_congr_right fun _ => forall₂_congr fun entry _ => ?_
  rw [bne_iff_ne, ne_comm]

/-- A name is not found exactly if no entry has it. -/
theorem lookup_eq_none_iff {entries : Entries} {name : String} :
    entries.lookup name = none ↔ ∀ entry ∈ entries, entry.1 ≠ name := by
  rw [List.lookup_eq_none_iff]
  refine forall₂_congr fun entry _ => ?_
  rw [bne_iff_ne, ne_comm]

/-- A field is given when its check passes. -/
theorem checkField_eq_ok_iff_gives {entries : Entries} {owner : String} {field : Field} :
    entries.checkField owner field = .ok () ↔ entries.Gives field := by
  simp [checkField_eq_ok_iff, Gives, lookup_eq_some_iff]

/-- The check refuses entries for the specified cause. -/
theorem check_eq_error_iff_refused {entries : Entries} {owner : String} {fields : List Field}
    {error : LayoutError} :
    entries.check owner fields = .error error ↔ entries.Refused owner fields error := by
  rw [check_eq_error_iff, forM_eq_error_iff, forM_eq_ok_iff]
  simp only [checkField_eq_ok_iff_gives]
  constructor
  · rintro (⟨earlier, field, later, split, given, failed⟩ | ⟨given, entry, found, rfl⟩)
    · rcases checkField_eq_error_iff.mp failed with ⟨absent, rfl⟩ | ⟨word, first, differ, rfl⟩
      · exact .missing split given (lookup_eq_none_iff.mp absent)
      · exact .mistyped split given (lookup_eq_some_iff.mp first) differ
    · obtain ⟨unknown, earlier, later, split, known⟩ := undeclared?_eq_some_iff.mp found
      refine .undeclared given split (fun other member => List.mem_map.mp (known other member)) ?_
      intro field member same
      exact unknown (same ▸ List.mem_map_of_mem member)
  · intro refused
    cases refused with
    | missing split given absent =>
        exact .inl ⟨_, _, _, split, given,
          checkField_eq_error_iff.mpr (.inl ⟨lookup_eq_none_iff.mpr absent, rfl⟩)⟩
    | mistyped split given first differ =>
        exact .inl ⟨_, _, _, split, given,
          checkField_eq_error_iff.mpr (.inr ⟨_, lookup_eq_some_iff.mpr first, differ, rfl⟩)⟩
    | undeclared given split known unknown =>
        refine .inr ⟨given, _, undeclared?_eq_some_iff.mpr ⟨?_, _, _, split, ?_⟩, rfl⟩
        · intro present
          obtain ⟨field, member, same⟩ := List.mem_map.mp present
          exact unknown field member same
        · intro other member
          exact List.mem_map.mpr (known other member)

/-- The specified bytes of some fields are those of the arranged entries. -/
theorem written_iff {entries : Entries} {fields : List Field} {bytes : List UInt8} :
    entries.Written fields bytes ↔
      ∃ arranged, entries.arrange? fields = some arranged ∧ arranged.shape = fields ∧
        bytes = arranged.bytes := by
  constructor
  · intro written
    induction written with
    | nil => exact ⟨[], rfl, rfl, rfl⟩
    | @cons field fields word bytes first typed others inductionHypothesis =>
        obtain ⟨arranged, found, shape, rfl⟩ := inductionHypothesis
        refine ⟨(field.name, word) :: arranged, ?_, ?_, ?_⟩
        · exact arrange?_cons (lookup_eq_some_iff.mpr first) found
        · rw [shape_cons, shape, typed]
        · rw [bytes_cons, ← typed, ← LittleEndian.encode_eq_digits, Word.bytes]
  · rintro ⟨arranged, found, rfl, rfl⟩
    have firsts := (arrange?_eq_some_iff.mp found).2
    clear found
    induction arranged with
    | nil => exact .nil
    | cons entry arranged inductionHypothesis =>
        have others := inductionHypothesis fun other member =>
          firsts other (List.mem_cons_of_mem _ member)
        rw [bytes_cons, Word.bytes, LittleEndian.encode_eq_digits]
        exact .cons (lookup_eq_some_iff.mp (firsts entry List.mem_cons_self)) rfl others

/-- Entries are accepted with the bytes of their arranged form. -/
theorem accepted_iff {entries : Entries} {fields : List Field} {bytes : List UInt8} :
    entries.Accepted fields bytes ↔
      ∃ arranged, entries.Arranges fields arranged ∧ bytes = arranged.bytes := by
  constructor
  · rintro ⟨written, declared⟩
    obtain ⟨arranged, found, shape, same⟩ := written_iff.mp written
    exact ⟨arranged, ⟨found, shape, fun entry member => List.mem_map.mpr (declared entry member)⟩,
      same⟩
  · rintro ⟨arranged, ⟨found, shape, declared⟩, same⟩
    exact ⟨written_iff.mpr ⟨arranged, found, shape, same⟩,
      fun entry member => List.mem_map.mp (declared entry member)⟩

end Entries

end FixedLayout
