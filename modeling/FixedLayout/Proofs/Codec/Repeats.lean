import FixedLayout.Proofs.Codec.RoundTrip
import Mathlib.Data.List.Nodup

/-!
# Repeated names in values

A value may name a field more than once. Encoding looks every declared name up and so
writes its first entry; the later ones are neither written nor refused.
`Layout.keepsFirsts_of_validate` says what this means for the entries of an accepted value:
decoding returns exactly the first entry of every name, and nothing is missing exactly when
no name is repeated.
-/

namespace FixedLayout

namespace Entries

/-- The first entry of every name. -/
def firsts : Entries → Entries
  | [] => []
  | entry :: entries => entry :: (firsts entries).filter fun other => other.1 != entry.1

@[simp] theorem firsts_nil : firsts [] = [] := rfl

@[simp] theorem firsts_cons (entry : String × Word) (entries : Entries) :
    firsts (entry :: entries) =
      entry :: (firsts entries).filter fun other => other.1 != entry.1 := rfl

/-- First entries have distinct names. -/
theorem nodup_firsts (entries : Entries) : (entries.firsts.map Prod.fst).Nodup := by
  induction entries with
  | nil => exact List.nodup_nil
  | cons entry entries inductionHypothesis =>
      rw [firsts_cons, List.map_cons, List.nodup_cons]
      constructor
      · intro repeated
        obtain ⟨other, member, same⟩ := List.mem_map.mp repeated
        have apart := (List.mem_filter.mp member).2
        rw [bne_iff_ne] at apart
        exact apart same
      · exact inductionHypothesis.sublist (List.filter_sublist.map Prod.fst)

/-- Entries with distinct names are all first ones. -/
theorem firsts_of_nodup {entries : Entries} (distinct : (entries.map Prod.fst).Nodup) :
    entries.firsts = entries := by
  induction entries with
  | nil => rfl
  | cons entry entries inductionHypothesis =>
      rw [List.map_cons, List.nodup_cons] at distinct
      rw [firsts_cons, inductionHypothesis distinct.2, List.filter_eq_self.mpr]
      intro other member
      rw [bne_iff_ne]
      intro same
      exact distinct.1 (same ▸ List.mem_map_of_mem member)

/-- A search by name ends at a first entry, so it finds the same among the first entries. -/
theorem find?_firsts (entries : Entries) (wanted : String → Bool) :
    (entries.firsts.find? fun entry => wanted entry.1) =
      entries.find? fun entry => wanted entry.1 := by
  induction entries with
  | nil => rfl
  | cons entry entries inductionHypothesis =>
      rw [firsts_cons, List.find?_cons, List.find?_cons]
      cases here : wanted entry.1 with
      | true => rfl
      | false =>
          -- What is left out has the name of this entry, which is not wanted.
          rw [List.find?_filter, ← inductionHypothesis]
          refine congrArg (fun test => List.find? test (firsts entries)) (funext fun other => ?_)
          by_cases same : other.1 = entry.1
          · simp [same, here]
          · simp [same]

/-- Looking a name up is finding the first entry that has it. -/
theorem lookup_eq_map_find? (entries : Entries) (name : String) :
    entries.lookup name = (entries.find? fun entry => name == entry.1).map Prod.snd := by
  induction entries with
  | nil => rfl
  | cons entry entries inductionHypothesis =>
      rw [List.lookup_cons, List.find?_cons]
      cases name == entry.1 with
      | true => rfl
      | false => exact inductionHypothesis

/-- Looking a name up among the first entries finds the same word. -/
@[simp] theorem lookup_firsts (entries : Entries) (name : String) :
    entries.firsts.lookup name = entries.lookup name := by
  rw [lookup_eq_map_find?, lookup_eq_map_find?, find?_firsts entries fun other => name == other]

/-- The first entries are what looking names up finds. -/
theorem mem_firsts_iff {entries : Entries} {name : String} {word : Word} :
    (name, word) ∈ entries.firsts ↔ entries.lookup name = some word := by
  rw [← lookup_firsts]
  exact (lookup_eq_some_iff_mem entries.nodup_firsts).symm

/-- All entries are first ones exactly when no name is repeated. -/
theorem perm_firsts_iff {entries : Entries} :
    entries.firsts.Perm entries ↔ (entries.map Prod.fst).Nodup := by
  constructor
  · intro same
    exact (same.map Prod.fst).nodup_iff.mp entries.nodup_firsts
  · intro distinct
    rw [firsts_of_nodup distinct]

/-- Of entries that can be written as distinct fields, exactly the first ones are. -/
theorem Arranges.perm_firsts {entries arranged : Entries} {fields : List Field}
    (arranges : entries.Arranges fields arranged) (distinct : DistinctFields fields) :
    arranged.Perm entries.firsts := by
  obtain ⟨names, firsts⟩ := arrange?_eq_some_iff.mp arranges.found
  have apart : (arranged.map Prod.fst).Nodup := names ▸ distinct
  rw [List.perm_ext_iff_of_nodup (apart.of_map Prod.fst) (entries.nodup_firsts.of_map Prod.fst)]
  rintro ⟨name, word⟩
  rw [mem_firsts_iff]
  constructor
  · exact firsts (name, word)
  · intro first
    -- The name is declared, so it is the name of an arranged entry, whose word is the first one.
    have declared := arranges.declared _ (mem_of_lookup_eq_some first)
    rw [← names] at declared
    obtain ⟨⟨_, found⟩, member, rfl⟩ := List.mem_map.mp declared
    have same := (firsts _ member).symm.trans first
    cases same
    exact member

/-- The check does not tell later entries of a name apart from none. -/
theorem check_firsts (entries : Entries) (owner : String) (fields : List Field) :
    entries.firsts.check owner fields = entries.check owner fields := by
  have searched : entries.firsts.undeclared? fields = entries.undeclared? fields :=
    entries.find?_firsts fun name => fields.all fun field => field.name != name
  have checked : entries.firsts.checkField owner = entries.checkField owner := by
    funext field
    rw [checkField, checkField, require, require, lookup_firsts]
  rw [check, check, searched, checked]

end Entries

/-- Nor does writing. -/
theorem Output.putFields_firsts (output : Output) (fields : List Field) (entries : Entries) :
    output.putFields fields entries.firsts = output.putFields fields entries := by
  simp only [putFields, Entries.lookup_firsts]

namespace Value

/-- The entries of a struct, or of the payload of an enum if it carries one. -/
def entries : Value → Entries
  | struct entries => entries
  | enum _ payload => payload.getD []

/-- The value with the first entry of every name only. -/
def firsts : Value → Value
  | struct entries => struct entries.firsts
  | enum variant payload => enum variant (payload.map Entries.firsts)

end Value

namespace Layout

/-- Later entries of a name change nothing about writing a value. -/
theorem write_firsts (layout : Layout) (value : Value) :
    layout.write value.firsts = layout.write value := by
  cases layout <;> cases value
  case struct.struct declared entries =>
    simp only [Value.firsts, write, StructLayout.write, Entries.check_firsts,
      Output.putFields_firsts]
  case struct.enum => rfl
  case enum.struct => rfl
  case enum.enum declared name payload =>
    cases payload with
    | none => rfl
    | some entries =>
        rw [Value.firsts, write, write, EnumLayout.write, EnumLayout.write]
        refine congrArg (bind (ofExcept (declared.find name))) (funext fun found => ?_)
        obtain ⟨tag, variant⟩ := found
        cases carried : variant.payload with
        | none => simp only [carried, Option.map_some]
        | some fields =>
            simp only [carried, Option.map_some, Entries.check_firsts, Output.putFields_firsts]

/-- Later entries of a name change neither whether a value is accepted nor its encoding. -/
theorem encode_firsts (layout : Layout) (value : Value) :
    layout.encode value.firsts = layout.encode value := by
  have measured : layout.encodedLength value.firsts = layout.encodedLength value := by
    cases layout <;> cases value <;> rfl
  simp only [encode, encodeInto, measured, write_firsts]

/-- Under distinct names the entries of the canonical form are the first ones of the value. -/
theorem Outcome.perm_firsts {layout : Layout} {value canonical : Value} {bytes : List UInt8}
    (wellFormed : layout.WellFormed) (specified : layout.Outcome value (.ok bytes))
    (found : layout.canonical? value = some canonical) :
    canonical.entries.Perm value.entries.firsts := by
  cases specified with
  | structAccepted accepted =>
      obtain ⟨arranged, arranges, rfl⟩ := Entries.accepted_iff.mp accepted
      rw [canonical?_struct arranges.found] at found
      cases found
      exact arranges.perm_firsts wellFormed
  | bareAccepted first reached bare =>
      rw [canonical?_enum first reached (Variant.arrange?_bare bare)] at found
      cases found
      exact .nil
  | @payloadAccepted declared name _ variant fields entries _ first reached carries accepted =>
      obtain ⟨arranged, arranges, rfl⟩ := Entries.accepted_iff.mp accepted
      have kept := Variant.arrange?_payload carries arranges.found
      rw [canonical?_enum first reached kept] at found
      cases found
      have member := List.mem_of_getElem? first.here
      exact arranges.perm_firsts (wellFormed.variants variant member fields carries)

/-- What becomes of the entries of a value. -/
structure KeepsFirsts (layout : Layout) : Prop where
  /-- A later entry of a name changes neither whether a value is accepted nor its encoding. -/
  unread : ∀ value, layout.encode value.firsts = layout.encode value
  /-- Decoding an encoding returns the first entry of every name, and nothing else. -/
  kept : ∀ value bytes, layout.encode value = .ok bytes →
    ∃ decoded, layout.decode bytes = .ok (decoded, []) ∧
      decoded.entries.Perm value.entries.firsts
  /-- No entry is missing exactly when no name is repeated. -/
  complete_iff : ∀ value bytes decoded, layout.encode value = .ok bytes →
    layout.decode bytes = .ok (decoded, []) →
      (decoded.entries.Perm value.entries ↔ (value.entries.map Prod.fst).Nodup)

/-- Under a validated layout an encoding stands for the first entry of every name. -/
theorem keepsFirsts_of_validate {layout : Layout} (valid : layout.validate = .ok ()) :
    layout.KeepsFirsts := by
  have wellFormed : layout.WellFormed := validate_eq_ok_iff.mp valid
  have kept : ∀ value bytes, layout.encode value = .ok bytes →
      ∃ decoded, layout.decode bytes = .ok (decoded, []) ∧
        decoded.entries.Perm value.entries.firsts := by
    intro value bytes accepted
    have specified := outcome_of_encode_eq accepted
    obtain ⟨canonical, found, decoded⟩ := specified.decode_append
    have alone := decoded []
    rw [List.append_nil] at alone
    exact ⟨canonical, alone, specified.perm_firsts wellFormed found⟩
  refine ⟨layout.encode_firsts, kept, ?complete_iff⟩
  case complete_iff =>
    intro value bytes decoded accepted returned
    obtain ⟨other, same, firsts⟩ := kept value bytes accepted
    rw [returned] at same
    cases same
    rw [← Entries.perm_firsts_iff]
    exact ⟨firsts.symm.trans, firsts.trans⟩

/-- A struct of one price. -/
def quote : Layout := .struct ⟨"Quote", [⟨"price", .u8⟩]⟩

/-- A value that names the price twice. -/
def quotedTwice : Value := .struct [("price", ⟨.u8, 1, by decide⟩), ("price", ⟨.u8, 2, by decide⟩)]

/-- Of a price that is named twice the first one is encoded and decoded. -/
theorem keepsFirsts_of_validate_quote :
    quote.validate = .ok () ∧ quote.encode quotedTwice = .ok [1] ∧
      ∃ decoded, quote.decode [1] = .ok (decoded, []) ∧
        decoded.entries.Perm [("price", ⟨.u8, 1, by decide⟩)] :=
  ⟨rfl, rfl, (keepsFirsts_of_validate rfl).kept quotedTwice [1] rfl⟩

/-- A value that names a declared field twice is accepted, and what decoding returns is not all
of its entries. -/
theorem accepts_repeated_field :
    quote.validate = .ok () ∧ quote.encode quotedTwice = .ok [1] ∧
      ∀ decoded, quote.decode [1] = .ok (decoded, []) →
        ¬ decoded.entries.Perm quotedTwice.entries := by
  refine ⟨rfl, rfl, ?_⟩
  intro decoded returned same
  cases returned
  exact absurd same.length_eq (by decide)

end Layout

end FixedLayout
