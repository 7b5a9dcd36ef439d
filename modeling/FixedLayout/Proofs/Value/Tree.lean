import FixedLayout.Proofs.Codec.RoundTrip
import FixedLayout.Proofs.Json.Tokens
import FixedLayout.Proofs.Value.Reading

/-!
# Values are restored from their trees

A decoded value shows its layout: the declared names with words of the declared types,
in declaration order. The tree of such a value conveys it, so that
`Layout.Shows.ofTree_toTree` reads the value back. The trees of values with distinct
names are settled and plain, so neither a printer nor a parser changes them.
-/

namespace FixedLayout

namespace Value

/-- No word is too great for a natural number of a tree. -/
theorem lt_of_word (word : Word) : word.value < 2 ^ 128 := by
  refine Nat.lt_of_lt_of_le word.fits ?_
  cases word.type <;> decide

/-- The members of the object of some entries, if no name is repeated. -/
def entryMembers (entries : Entries) : List (String × Json) :=
  entries.map fun entry => (entry.1, Json.ofNat entry.2.value)

/-- The members of some entries stand under the names of the entries. -/
theorem map_key_entryMembers (entries : Entries) :
    (entryMembers entries).map Prod.fst = entries.map Prod.fst := by
  rw [entryMembers, List.map_map]
  rfl

section Distinct

variable {entries : Entries} (distinct : (entries.map Prod.fst).Nodup)
include distinct

/-- Under distinct names the tree of some entries has a member for each of them. -/
theorem entriesTree_of_nodup : entriesTree entries = .object (entryMembers entries) := by
  rw [← map_key_entryMembers] at distinct
  exact congrArg Json.object (Json.settleMembers_of_nodup distinct)

/-- The object that is written of entries conveys them for the fields that they show. -/
theorem conveyed_entryMembers :
    Entries.Conveyed (entryMembers entries) entries.shape entries := by
  have keys := distinct
  rw [← map_key_entryMembers] at keys
  have found : ∀ entry ∈ entries,
      (entryMembers entries).lookup entry.1 = some (Json.ofNat entry.2.value) :=
    fun entry member => (lookup_eq_some_iff_mem keys).mpr (List.mem_map_of_mem member)
  refine ⟨⟨?shape, ?denoted⟩, ?declared⟩
  case shape =>
    refine (List.filter_eq_self.mpr fun field shown => ?_).symm
    obtain ⟨entry, member, rfl⟩ := List.mem_map.mp shown
    rw [found entry member]
    rfl
  case denoted =>
    intro entry member
    exact ⟨_, found entry member, Json.denotes_ofNat (lt_of_word entry.2)⟩
  case declared =>
    intro member written
    rw [Entries.map_name_shape, ← map_key_entryMembers]
    exact List.mem_map_of_mem written

end Distinct

/-- The names of the entries of a value tell them apart. -/
def Distinct : Value → Prop
  | struct entries => (entries.map Prod.fst).Nodup
  | enum _ payload => ∀ entries, payload = some entries → (entries.map Prod.fst).Nodup

section Trees

open Json (Plain)

/-- The tree of a number has no key to settle. -/
theorem settle_ofNat (number : Nat) : (Json.ofNat number).settle = Json.ofNat number := by
  rw [Json.ofNat]
  split <;> rw [Json.settle]

/-- The tree of a number nests nothing. -/
theorem plain_ofNat {depth : Nat} (number : Nat) : (Json.ofNat number).Plain depth := by
  rw [Json.ofNat]
  split
  · exact .number
  · exact .string

/-- The tree of some entries repeats no key. -/
theorem settle_entriesTree {entries : Entries} (distinct : (entries.map Prod.fst).Nodup) :
    (entriesTree entries).settle = entriesTree entries := by
  rw [entriesTree_of_nodup distinct]
  refine Json.settle_object ?_ (map_key_entryMembers entries ▸ distinct)
  exact List.forall_mem_map.mpr fun entry _ => settle_ofNat entry.2.value

/-- The tree of some entries nests one deep. -/
theorem plain_entriesTree {depth : Nat} {entries : Entries}
    (distinct : (entries.map Prod.fst).Nodup) : (entriesTree entries).Plain (depth + 1) := by
  rw [entriesTree_of_nodup distinct]
  exact .object (List.forall_mem_map.mpr fun entry _ => plain_ofNat entry.2.value)

/-- The tree of a value repeats no key. -/
theorem Distinct.settle_toTree {value : Value} (distinct : value.Distinct) :
    value.toTree.settle = value.toTree := by
  cases value with
  | struct entries => exact settle_entriesTree distinct
  | enum variant payload =>
      cases payload with
      | none => exact Json.settle_object (by simp [Json.settle]) (by simp)
      | some entries =>
          have inner := settle_entriesTree (distinct entries rfl)
          exact Json.settle_object (by simp [Json.settle, inner]) (by simp)

/-- The tree of a value nests two deep. -/
theorem Distinct.plain_toTree {depth : Nat} {value : Value} (distinct : value.Distinct) :
    value.toTree.Plain (depth + 2) := by
  cases value with
  | struct entries => exact plain_entriesTree distinct
  | enum variant payload =>
      cases payload with
      | none => exact .object (by simp [Plain.string])
      | some entries =>
          have inner : (entriesTree entries).Plain (depth + 1) :=
            plain_entriesTree (distinct entries rfl)
          exact .object (by simp [Plain.string, inner])

end Trees

end Value

namespace Layout

/-- Under distinct names, the names of a value that shows the layout are distinct. -/
theorem Shows.distinct {layout : Layout} {value : Value} (shown : layout.Shows value)
    (wellFormed : layout.WellFormed) : value.Distinct := by
  cases shown with
  | @struct declared entries complete =>
      rw [Value.Distinct, ← Entries.map_name_shape, complete]
      exact wellFormed
  | @enum declared variant payload member complete =>
      rintro entries rfl
      rw [← Entries.map_name_shape]
      exact wellFormed.variants variant member _ complete.symm

/-- The tree of a value that shows a layout conveys the value. -/
theorem Shows.conveys {layout : Layout} {value : Value} (shown : layout.Shows value)
    (wellFormed : layout.WellFormed) : layout.Conveys value.toTree value := by
  have distinct := shown.distinct wellFormed
  cases shown with
  | @struct declared entries complete =>
      rw [Value.toTree, Value.entriesTree_of_nodup distinct]
      exact .struct (complete ▸ Value.conveyed_entryMembers distinct)
  | @enum declared variant payload member complete =>
      obtain ⟨index, first, reached⟩ := EnumLayout.WellFormed.exists_firstDeclared wellFormed member
      cases payload with
      | none => exact .bare first reached (.bare rfl rfl) complete.symm
      | some entries =>
          rw [Value.toTree, Value.entriesTree_of_nodup (distinct entries rfl)]
          exact .payload first reached (.filled rfl rfl) complete.symm
            (Value.conveyed_entryMembers (distinct entries rfl))

/-- A value that shows a layout is read back from its tree. -/
theorem Shows.ofTree_toTree {layout : Layout} {value : Value} (shown : layout.Shows value)
    (wellFormed : layout.WellFormed) : Value.ofTree layout value.toTree = .ok value :=
  Value.ofTree_eq_ok_iff.mpr (shown.conveys wellFormed)

end Layout

end FixedLayout
