import FixedLayout.Proofs.Codec.RoundTrip

/-!
# Input that arrives in pieces

Decoding looks at the front of the bytes only, so what it answers on some bytes says what
it will answer once more have arrived. A value that was read and an unknown discriminant
are final. A record that is short is reported with the count of bytes at which it is whole,
and this count holds for every continuation; only an enum of which nothing has arrived
asks for its discriminant first. `Layout.readsPieces` collects these laws for every layout.
-/

namespace FixedLayout.Layout

variable {layout : Layout} {data : List UInt8} {value : Value} {rest : List UInt8}
  {error : LayoutError} {type : String} {tag : UInt8} {needed available : Nat}

/-- A verdict that accepts stays when more bytes follow, and leaves them over. -/
theorem Verdict.append_of_ok (specified : layout.Verdict data (.ok (value, rest)))
    (more : List UInt8) : layout.Verdict (data ++ more) (.ok (value, rest ++ more)) := by
  have longer : data.length ≤ (data ++ more).length := by simp
  cases specified with
  | @structRead declared data entries enough complete stands =>
      rw [← List.drop_append_of_le_length enough]
      rw [← List.take_append_of_le_length enough] at stands
      exact .structRead (Nat.le_trans enough longer) complete stands
  | @enumRead declared tag behind variant payload here enough complete stands =>
      rw [← List.drop_append_of_le_length enough]
      rw [← List.take_append_of_le_length enough] at stands
      exact .enumRead here (Nat.le_trans enough longer) complete stands

/-- A discriminant stays unknown when more bytes follow. -/
theorem Verdict.append_of_unknown
    (specified : layout.Verdict data (.error (.unknownDiscriminant type tag)))
    (more : List UInt8) :
    layout.Verdict (data ++ more) (.error (.unknownDiscriminant type tag)) := by
  cases specified with
  | unknownTag beyond => exact .unknownTag beyond

/-- A record is refused for two causes only. -/
theorem Verdict.error_cases (specified : layout.Verdict data (.error error)) :
    (∃ needed, error = .truncatedInput layout.name needed data.length ∧ data.length < needed) ∨
      ∃ tag, error = .unknownDiscriminant layout.name tag := by
  cases specified with
  | structShort short => exact .inl ⟨_, rfl, short⟩
  | enumEmpty => exact .inl ⟨1, rfl, Nat.one_pos⟩
  | unknownTag => exact .inr ⟨_, rfl⟩
  | enumShort here short => exact .inl ⟨_, rfl, short⟩

/-- A short record is reported with the bytes that are there, fewer than it needs. -/
theorem Verdict.short_of_truncated
    (specified : layout.Verdict data (.error (.truncatedInput type needed available))) :
    available = data.length ∧ data.length < needed := by
  rcases specified.error_cases with ⟨_, same, short⟩ | ⟨_, impossible⟩
  · cases same
    exact ⟨rfl, short⟩
  · cases impossible

/-- A record stays short, with the same need, until so many bytes have arrived. -/
theorem Verdict.append_of_truncated
    (specified : layout.Verdict data (.error (.truncatedInput type needed available)))
    {more : List UInt8} (short : (data ++ more).length < needed) :
    layout.Verdict (data ++ more)
      (.error (.truncatedInput type needed (data ++ more).length)) := by
  cases specified with
  | structShort => exact .structShort short
  | enumEmpty =>
      have nothing : more = [] := List.eq_nil_of_length_eq_zero (by simpa using short)
      rw [nothing]
      exact .enumEmpty
  | enumShort here => exact .enumShort here short

/-- A short record of a known width is whole once so many bytes have arrived, and takes exactly
these. -/
theorem Verdict.exists_append_of_truncated
    (specified : layout.Verdict data (.error (.truncatedInput type needed available)))
    (known : data ≠ [] ∨ layout.kind = .struct) {more : List UInt8}
    (enough : needed ≤ (data ++ more).length) :
    ∃ value, layout.Verdict (data ++ more) (.ok (value, (data ++ more).drop needed)) := by
  cases specified with
  | structShort => exact ⟨_, .structOfBytes enough⟩
  | enumEmpty =>
      rcases known with something | struct
      · exact absurd rfl something
      · cases struct
  | enumShort here => exact ⟨_, .enumOfBytes here enough⟩

/-- A part of a record is short: if it were whole the record would end with it, and if its
discriminant were unknown the record would be refused. -/
theorem Verdict.truncated_of_prefix {consumed early : List UInt8}
    (specified : layout.Verdict (consumed ++ rest) (.ok (value, rest)))
    (part : early <+: consumed) (proper : early ≠ consumed) :
    ∃ needed, layout.Verdict early (.error (.truncatedInput layout.name needed early.length)) := by
  obtain ⟨late, rfl⟩ := part
  rw [List.append_assoc] at specified
  obtain ⟨verdict, holds⟩ := layout.exists_verdict early
  rcases verdict with error | ⟨found, left⟩
  · rcases holds.error_cases with ⟨needed, rfl, _⟩ | ⟨tag, rfl⟩
    · exact ⟨needed, holds⟩
    · cases specified.unique (holds.append_of_unknown (late ++ rest))
  · have same := specified.unique (holds.append_of_ok (late ++ rest))
    simp only [Except.ok.injEq, Prod.mk.injEq] at same
    have lengths := congrArg List.length same.2
    rw [List.length_append, List.length_append] at lengths
    have nothing : late = [] := List.eq_nil_of_length_eq_zero (by omega)
    exact absurd (by rw [nothing, List.append_nil]) proper

/-- What decoding some bytes says about what it answers when more bytes follow. -/
structure ReadsPieces (layout : Layout) : Prop where
  /-- A value that was read stays, and further bytes are left over. -/
  settled : ∀ data value rest, layout.decode data = .ok (value, rest) →
    ∀ more, layout.decode (data ++ more) = .ok (value, rest ++ more)
  /-- What was consumed is the front of the bytes, and any part of it is reported as short. -/
  consumed : ∀ data value rest, layout.decode data = .ok (value, rest) →
    ∃ consumed, data = consumed ++ rest ∧ ∀ early, early <+: consumed → early ≠ consumed →
      ∃ needed, layout.decode early =
        .error (.truncatedInput layout.name needed early.length)
  /-- An unknown discriminant stays unknown. -/
  refused : ∀ data type tag, layout.decode data = .error (.unknownDiscriminant type tag) →
    ∀ more, layout.decode (data ++ more) = .error (.unknownDiscriminant type tag)
  /-- A short record is reported with the bytes that are there, fewer than it needs. -/
  short : ∀ data type needed available,
    layout.decode data = .error (.truncatedInput type needed available) →
      available = data.length ∧ data.length < needed
  /-- It stays short, with the same need, until so many bytes have arrived. -/
  awaiting : ∀ data type needed available,
    layout.decode data = .error (.truncatedInput type needed available) →
      ∀ more, (data ++ more).length < needed →
        layout.decode (data ++ more) =
          .error (.truncatedInput type needed (data ++ more).length)
  /-- Once so many bytes have arrived it is read, and exactly these are consumed, unless it is
  an enum of which nothing had arrived. -/
  completed : ∀ data type needed available,
    layout.decode data = .error (.truncatedInput type needed available) →
      data ≠ [] ∨ layout.kind = .struct → ∀ more, needed ≤ (data ++ more).length →
        ∃ value, layout.decode (data ++ more) = .ok (value, (data ++ more).drop needed)

/-- Under every layout bytes may arrive in pieces. -/
theorem readsPieces (layout : Layout) : layout.ReadsPieces := by
  refine ⟨?settled, ?consumed, ?refused, ?short, ?awaiting, ?completed⟩
  case settled =>
    intro data value rest decoded more
    exact ((verdict_of_decode_eq decoded).append_of_ok more).decode_eq
  case consumed =>
    intro data value rest decoded
    have specified := verdict_of_decode_eq decoded
    obtain ⟨consumed, rfl⟩ := specified.rest_suffix
    refine ⟨consumed, rfl, fun early part proper => ?_⟩
    obtain ⟨needed, cutShort⟩ := specified.truncated_of_prefix part proper
    exact ⟨needed, cutShort.decode_eq⟩
  case refused =>
    intro data type tag unknown more
    exact ((verdict_of_decode_eq unknown).append_of_unknown more).decode_eq
  case short =>
    intro data type needed available failed
    exact (verdict_of_decode_eq failed).short_of_truncated
  case awaiting =>
    intro data type needed available failed more short
    exact ((verdict_of_decode_eq failed).append_of_truncated short).decode_eq
  case completed =>
    intro data type needed available failed known more enough
    obtain ⟨value, whole⟩ :=
      (verdict_of_decode_eq failed).exists_append_of_truncated known enough
    exact ⟨value, whole.decode_eq⟩

/-- Two bytes of a limit order are truncated where thirteen are needed; the twelve bytes that follow
complete it and leave one. -/
theorem readsPieces_orders :
    orders.decode [1, 7] = .error (.truncatedInput "Order" 13 2) ∧
      ∃ value, orders.decode ([1, 7] ++ [0, 0, 0, 0, 0, 0, 0, 2, 0, 0, 0, 9]) = .ok (value, [9]) :=
  ⟨rfl, (readsPieces orders).completed [1, 7] "Order" 13 2 rfl (.inl (List.cons_ne_nil _ _))
    [0, 0, 0, 0, 0, 0, 0, 2, 0, 0, 0, 9] (by decide)⟩

end FixedLayout.Layout
