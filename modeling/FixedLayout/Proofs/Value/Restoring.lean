import FixedLayout.Proofs.Value.Reordering
import FixedLayout.Proofs.Value.Tree

/-!
# Values restored from trees

`Value.Depicted` says how the tree of a value looks: its entries in order, each with its
number exactly, and a payload only if the value has one. `Layout.restoresTrees_of_validate`
shows that under a validated layout an encodable value with its entries in declaration order
is read back from that tree, also if its keys have been brought into another order.
-/

namespace FixedLayout

/-- The tree of a word: a number below `2 ^ 64`, from there on the decimal digits. -/
inductive Word.Depicted : Word → Json → Prop where
  | number {word : Word} {value : UInt64} (exact : value.toNat = word.value) :
      Depicted word (.number (.unsigned value))
  | digits {word : Word} {text : String} (wide : 2 ^ 64 ≤ word.value)
      (exact : text.toList = Nat.toDigits 10 word.value) : Depicted word (.string text)

/-- The members for some entries: one for each of them, in order. -/
inductive Entries.Depicted : Entries → List (String × Json) → Prop where
  | nil : Depicted [] []
  | cons {name word tree entries members} (depicted : Word.Depicted word tree)
      (others : Depicted entries members) :
      Depicted ((name, word) :: entries) ((name, tree) :: members)

/-- The tree of a value. The fields of a variant without payload are left out of it, and those
of an empty payload are an empty object. -/
inductive Value.Depicted : Value → Json → Prop where
  | struct {entries members} (depicted : Entries.Depicted entries members) :
      Depicted (.struct entries) (.object members)
  | bare {variant} : Depicted (.enum variant none) (.object [("variant", .string variant)])
  | payload {variant entries members} (depicted : Entries.Depicted entries members) :
      Depicted (.enum variant (some entries))
        (.object [("variant", .string variant), ("fields", .object members)])

/-- A word is depicted by the tree of its number. -/
theorem Word.depicted_ofNat (word : Word) : word.Depicted (Json.ofNat word.value) := by
  rw [Json.ofNat]
  split
  · next narrow => exact .number (UInt64.toNat_ofNat_of_lt' narrow)
  · next wide =>
      refine .digits (Nat.le_of_not_lt wide) ?_
      rw [Nat.toString_eq_repr, Nat.toList_repr]

namespace Value

/-- The members of some entries depict them. -/
theorem depicted_entryMembers (entries : Entries) : entries.Depicted (entryMembers entries) := by
  induction entries with
  | nil => exact .nil
  | cons entry entries inductionHypothesis =>
      exact .cons entry.2.depicted_ofNat inductionHypothesis

/-- Under distinct names the tree of a value depicts it. -/
theorem Distinct.depicted_toTree {value : Value} (distinct : value.Distinct) :
    value.Depicted value.toTree := by
  cases value with
  | struct entries =>
      rw [toTree, entriesTree_of_nodup distinct]
      exact .struct (depicted_entryMembers entries)
  | enum variant payload =>
      cases payload with
      | none => exact .bare
      | some entries =>
          rw [toTree, entriesTree_of_nodup (distinct entries rfl)]
          exact .payload (depicted_entryMembers entries)

end Value

namespace Layout

/-- Under distinct names an encodable ordered value shows the layout. -/
theorem WellFormed.shows_of_ordered {layout : Layout} {value : Value} {bytes : List UInt8}
    (wellFormed : layout.WellFormed) (accepted : layout.encode value = .ok bytes)
    (ordered : layout.Ordered value) : layout.Shows value :=
  (verdict_of_decode_eq (wellFormed.decode_append ordered accepted [])).shows

/-- What becomes of encodable values that have their entries in declaration order when they
are written as trees and read back. -/
structure RestoresTrees (layout : Layout) : Prop where
  /-- The tree depicts the value, with every number exactly. -/
  depicted : ∀ value bytes, layout.encode value = .ok bytes → layout.Ordered value →
    value.Depicted value.toTree
  /-- The value is read back from it. -/
  restored : ∀ value bytes, layout.encode value = .ok bytes → layout.Ordered value →
    Value.ofTree layout value.toTree = .ok value
  /-- It is read back in declaration order also from a tree with its keys in another order. -/
  reordered : ∀ value bytes, layout.encode value = .ok bytes → layout.Ordered value →
    ∀ tree, value.toTree.Reorders tree → Value.ofTree layout tree = .ok value
  /-- Every decoded value is one of these. -/
  decoded : ∀ data value rest, layout.decode data = .ok (value, rest) →
    layout.Ordered value ∧ ∃ bytes, layout.encode value = .ok bytes

/-- Under a validated layout, encodable values in declaration order are restored from trees. -/
theorem restoresTrees_of_validate {layout : Layout} (valid : layout.validate = .ok ()) :
    layout.RestoresTrees := by
  have wellFormed : layout.WellFormed := validate_eq_ok_iff.mp valid
  refine ⟨?depicted, ?restored, ?reordered, ?decoded⟩
  case depicted =>
    intro value bytes accepted ordered
    exact ((wellFormed.shows_of_ordered accepted ordered).distinct wellFormed).depicted_toTree
  case restored =>
    intro value bytes accepted ordered
    exact (wellFormed.shows_of_ordered accepted ordered).ofTree_toTree wellFormed
  case reordered =>
    intro value bytes accepted ordered tree reorders
    have conveys := (wellFormed.shows_of_ordered accepted ordered).conveys wellFormed
    exact Value.ofTree_eq_ok_iff.mpr (conveys.reorder reorders)
  case decoded =>
    intro data value rest decoded
    obtain ⟨ordered, bytes, specified, _⟩ := (verdict_of_decode_eq decoded).restore wellFormed
    exact ⟨ordered, bytes, specified.encode_eq⟩

/-- A layout with a variant without payload, one with an empty payload and one whose numbers
may need more than 64 bits. -/
def transfers : Layout :=
  .enum ⟨"Transfer", [⟨"Stop", none⟩, ⟨"Ping", some []⟩,
    ⟨"Pay", some [⟨"fee", .u8⟩, ⟨"amount", .u128⟩]⟩]⟩

/-- A payment of the greatest amount. -/
def payment : Value :=
  .enum "Pay" (some [("fee", .ofUInt8 7), ("amount", .ofBytes .u128 (List.replicate 16 255))])

/-- A payment of the greatest amount is restored from its tree. -/
theorem restoresTrees_of_validate_transfers :
    transfers.validate = .ok () ∧ ∃ bytes, transfers.encode payment = .ok bytes ∧
      transfers.Ordered payment ∧ Value.ofTree transfers payment.toTree = .ok payment := by
  have ordered : transfers.Ordered payment :=
    ⟨⟨"Pay", some [⟨"fee", .u8⟩, ⟨"amount", .u128⟩]⟩, by simp, rfl, rfl⟩
  exact ⟨rfl, _, rfl, ordered, (restoresTrees_of_validate rfl).restored payment _ rfl ordered⟩

end Layout

end FixedLayout
