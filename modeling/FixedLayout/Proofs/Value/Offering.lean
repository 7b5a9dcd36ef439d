import FixedLayout.Proofs.Codec.RoundTrip

/-!
# What a value offers

A value offers another one if it chooses the same variant and every entry of the other one is the
first entry of its name there. Whoever looks names up finds in the first value what stands in the
second one. A value offers its canonical form, and one that shows a layout of distinct names
offers itself.
-/

namespace FixedLayout

namespace Entries

/-- Every entry of the other list is the first entry of its name here. -/
def Offers (entries offered : Entries) : Prop :=
  ∀ entry ∈ offered, entries.lookup entry.1 = some entry.2

/-- A first entry of the right type is what is required. -/
theorem require_of_lookup {entries : Entries} {field : String} {word : Word} {type : FieldType}
    (found : entries.lookup field = some word) (typed : word.type = type) (owner : String) :
    entries.require type owner field = .ok word := by
  rw [require, found]
  exact if_pos typed

/-- Arranged entries are offered by those they were arranged from. -/
theorem offers_of_arrange? {entries arranged : Entries} {fields : List Field}
    (found : entries.arrange? fields = some arranged) : entries.Offers arranged :=
  (arrange?_eq_some_iff.mp found).2

end Entries

/-- The same variant and the same presence of a payload, if it is an enum, and entries that offer
the other ones. -/
inductive Value.Offers : Value → Value → Prop where
  | struct {entries offered} (offers : Entries.Offers entries offered) :
      Offers (.struct entries) (.struct offered)
  | bare {variant} : Offers (.enum variant none) (.enum variant none)
  | payload {variant entries offered} (offers : Entries.Offers entries offered) :
      Offers (.enum variant (some entries)) (.enum variant (some offered))

/-- A payload that a variant can arrange offers what is arranged. -/
theorem Variant.offers_of_arrange? {variant : Variant} {name : String}
    {payload arranged : Option Entries} (found : variant.arrange? payload = some arranged) :
    (Value.enum name payload).Offers (.enum name arranged) := by
  obtain ⟨_, carried⟩ := variant
  cases carried <;> cases payload
  case none.none =>
    cases found
    exact .bare
  case none.some => cases found
  case some.none => cases found
  case some.some fields entries =>
    obtain ⟨offered, given, rfl⟩ := Option.map_eq_some_iff.mp found
    exact .payload (Entries.offers_of_arrange? given)

namespace Layout

/-- A value offers its canonical form. -/
theorem offers_of_canonical? {layout : Layout} {value canonical : Value}
    (found : layout.canonical? value = some canonical) : value.Offers canonical := by
  cases layout <;> cases value
  case struct.struct declared entries =>
    obtain ⟨offered, given, rfl⟩ := Option.map_eq_some_iff.mp found
    exact .struct (Entries.offers_of_arrange? given)
  case struct.enum => cases found
  case enum.struct => cases found
  case enum.enum declared name payload =>
    obtain ⟨⟨_, variant⟩, _, kept⟩ := Option.bind_eq_some_iff.mp found
    obtain ⟨arranged, given, same⟩ := Option.bind_eq_some_iff.mp kept
    cases same
    exact Variant.offers_of_arrange? given

/-- Under distinct names a value that shows the layout offers itself. -/
theorem Shows.offers_self {layout : Layout} {value : Value} (shown : layout.Shows value)
    (wellFormed : layout.WellFormed) : value.Offers value :=
  offers_of_canonical? (canonical?_of_ordered wellFormed shown.ordered)

end Layout

end FixedLayout
