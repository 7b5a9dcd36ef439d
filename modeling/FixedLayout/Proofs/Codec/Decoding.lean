import FixedLayout.Codec.Decode
import FixedLayout.Proofs.Bytes.Readings
import FixedLayout.Proofs.Codec.Specification

/-!
# Decoding meets its specification

A record is read in one piece or not at all: once its whole width is known to
remain, no reading inside it fails, so the loop over the fields has one outcome.
The theorems about `read` hold for every cursor, also one in the middle of its
data, and `Layout.Verdict` says what it answers from the unread bytes there;
`Layout.decode` is the case of a cursor at the start.
-/

namespace FixedLayout

namespace Reading

variable {Result Next : Type} {reading : Reading EndOfInput Result}
  {next : Result → Reading LayoutError Next} {cursor after : Cursor}

/-- A reading inside a record that succeeds is passed over. -/
theorem perform_withinRecord_bind_ok {result : Result} (type : String) (alreadyRead : Nat)
    (succeeded : reading.perform cursor = (.ok result, after)) :
    (withinRecord type alreadyRead reading >>= next).perform cursor =
      (next result).perform after := by
  apply perform_bind_ok
  change (Except.mapError (truncated type alreadyRead) <$> reading.run).run cursor = _
  change reading.run.run cursor = _ at succeeded
  rw [StateT.run_map, succeeded]
  rfl

/-- A reading inside a record that fails is reported with the record. -/
theorem perform_withinRecord_bind_error {failure : EndOfInput} (type : String) (alreadyRead : Nat)
    (failed : reading.perform cursor = (.error failure, after)) :
    (withinRecord type alreadyRead reading >>= next).perform cursor =
      (.error (truncated type alreadyRead failure), after) := by
  apply perform_bind_error
  change (Except.mapError (truncated type alreadyRead) <$> reading.run).run cursor = _
  change reading.run.run cursor = _ at failed
  rw [StateT.run_map, failed]
  rfl

end Reading

/-- Fields whose whole width remains are all read. -/
theorem perform_readFields {type : String} {alreadyRead : Nat} {fields : List Field}
    {cursor : Cursor} (enough : fieldsSize fields ≤ cursor.remaining) :
    (readFields type alreadyRead fields).perform cursor =
      (.ok (Entries.ofBytes fields cursor.rest), cursor.advance (fieldsSize fields)) := by
  induction fields generalizing alreadyRead cursor with
  | nil => rfl
  | cons field fields inductionHypothesis =>
      rw [fieldsSize_cons] at enough
      -- What remains behind each field is enough for the fields behind it.
      have first : field.type.width ≤ cursor.remaining := by omega
      have others : fieldsSize fields ≤ (cursor.advance field.type.width).remaining := by
        rw [Cursor.remaining_advance]
        omega
      rw [readFields,
        Reading.perform_withinRecord_bind_ok type alreadyRead (Cursor.perform_word_of_le first),
        Reading.perform_bind_ok (inductionHypothesis others), Reading.perform_pure,
        Cursor.rest_advance, Cursor.advance_advance, Entries.ofBytes, fieldsSize_cons]

namespace StructLayout

/-- A struct whose width remains is read in one piece. -/
theorem perform_read_of_le {declared : StructLayout} {cursor : Cursor}
    (enough : declared.size ≤ cursor.remaining) :
    declared.read.perform cursor =
      (.ok (Entries.ofBytes declared.fields cursor.rest), cursor.advance declared.size) := by
  rw [read,
    Reading.perform_withinRecord_bind_ok declared.name 0 (Cursor.perform_ensure_of_le enough)]
  exact perform_readFields enough

/-- A short struct is reported with its whole width, and nothing of it is read. -/
theorem perform_read_of_lt {declared : StructLayout} {cursor : Cursor}
    (short : cursor.remaining < declared.size) :
    declared.read.perform cursor =
      (.error (.truncatedInput declared.name declared.size cursor.remaining), cursor) := by
  rw [read,
    Reading.perform_withinRecord_bind_error declared.name 0 (Cursor.perform_ensure_of_lt short)]
  simp [truncated]

end StructLayout

namespace EnumLayout

variable {declared : EnumLayout} {cursor : Cursor} {tag : UInt8} {payload : List UInt8}
  {variant : Variant}

/-- Without a byte there is no discriminant. -/
theorem perform_read_nil (unread : cursor.rest = []) :
    declared.read.perform cursor =
      (.error (.truncatedInput declared.name 1 cursor.remaining), cursor) := by
  rw [read,
    Reading.perform_withinRecord_bind_error declared.name 0 (Cursor.perform_peek_nil unread)]
  simp [truncated]

/-- A discriminant without a variant is refused, however many bytes follow it. -/
theorem perform_read_unknown (unread : cursor.rest = tag :: payload)
    (unknown : declared.variantAt? tag = none) :
    declared.read.perform cursor = (.error (.unknownDiscriminant declared.name tag), cursor) := by
  rw [read,
    Reading.perform_withinRecord_bind_ok declared.name 0 (Cursor.perform_peek_cons unread), unknown]
  rfl

/-- A short variant is reported with its whole width, and nothing of it is read. -/
theorem perform_read_of_lt (unread : cursor.rest = tag :: payload)
    (here : declared.variantAt? tag = some variant) (short : cursor.remaining < variant.size) :
    declared.read.perform cursor =
      (.error (.truncatedInput declared.name variant.size cursor.remaining), cursor) := by
  rw [read,
    Reading.perform_withinRecord_bind_ok declared.name 0 (Cursor.perform_peek_cons unread), here]
  refine (Reading.perform_withinRecord_bind_error declared.name 0
    (Cursor.perform_ensure_of_lt short)).trans ?_
  simp [truncated]

/-- A variant whose width remains is read in one piece. -/
theorem perform_read_of_le (unread : cursor.rest = tag :: payload)
    (here : declared.variantAt? tag = some variant) (enough : variant.size ≤ cursor.remaining) :
    declared.read.perform cursor =
      (.ok (variant.name, variant.payload.map fun fields => Entries.ofBytes fields payload),
        cursor.advance variant.size) := by
  have discriminant : discriminantSize ≤ cursor.remaining :=
    Nat.le_trans variant.discriminantSize_le enough
  have behind : (cursor.advance discriminantSize).rest = payload := by
    rw [Cursor.rest_advance, unread]
    rfl
  rw [read,
    Reading.perform_withinRecord_bind_ok declared.name 0 (Cursor.perform_peek_cons unread), here]
  refine (Reading.perform_withinRecord_bind_ok declared.name 0
    (Cursor.perform_ensure_of_le enough)).trans ?_
  refine (Reading.perform_withinRecord_bind_ok declared.name 0
    (Cursor.perform_skip_of_le discriminant)).trans ?_
  rcases carried : variant.payload with _ | fields
  · simp [Variant.size_of_bare carried]
  · rw [Variant.size_of_payload carried] at enough ⊢
    have others : fieldsSize fields ≤ (cursor.advance discriminantSize).remaining := by
      rw [Cursor.remaining_advance]
      omega
    refine (Reading.perform_bind_ok (perform_readFields others)).trans ?_
    simp [behind]

end EnumLayout

/-- Only one payload shows what a variant carries and stands, behind the discriminant, for
the bytes it is read from. -/
theorem Variant.payload_eq_ofBytes_iff {tag : UInt8} {behind : List UInt8}
    {payload : Option Entries} (variant : Variant)
    (enough : variant.size ≤ (tag :: behind).length) :
    payload = (variant.payload.map fun fields => Entries.ofBytes fields behind) ↔
      payload.map Entries.shape = variant.payload ∧
        tag :: (payload.map Entries.bytes).getD [] = (tag :: behind).take variant.size := by
  rcases carried : variant.payload with _ | fields
  · cases payload <;> simp [variant.size_of_bare carried, discriminantSize]
  · rw [variant.size_of_payload carried, discriminantSize, Nat.add_comm] at enough ⊢
    cases payload with
    | none => simp
    | some entries => simp [Entries.eq_ofBytes_iff (Nat.le_of_succ_le_succ enough)]

/-- A cursor supplies some fields when the loop over them never stops inside: wherever it
stands before a field, the next word can be read. -/
def Cursor.Supplies (cursor : Cursor) (type : String) (fields : List Field) : Prop :=
  ∀ earlier field later, fields = earlier ++ field :: later →
    ∃ entries next, (readFields type 0 earlier).perform cursor = (.ok entries, next) ∧
      ∃ word after, (Cursor.word field.type).perform next = (.ok word, after)

/-- A cursor with the whole width before it supplies the fields. -/
theorem Cursor.supplies_of_le {cursor : Cursor} {type : String} {fields : List Field}
    (enough : fieldsSize fields ≤ cursor.remaining) : cursor.Supplies type fields := by
  intro earlier field later split
  rw [split, fieldsSize_append, fieldsSize_cons] at enough
  have readBefore : fieldsSize earlier ≤ cursor.remaining := by omega
  have next : field.type.width ≤ (cursor.advance (fieldsSize earlier)).remaining := by
    rw [remaining_advance]
    omega
  exact ⟨_, _, perform_readFields readBefore, _, _, perform_word_of_le next⟩

/-- What a reading of known verdict answers, and the cursor after it: moved to the bytes left
over, or as it was. -/
def Cursor.deliver (cursor : Cursor) :
    Except LayoutError (Value × List UInt8) → Except LayoutError Value × Cursor
  | .ok (value, rest) => (.ok value, cursor.advance (cursor.remaining - rest.length))
  | .error error => (.error error, cursor)

/-- A value with what stands behind some unread bytes is delivered by a move over these. -/
theorem Cursor.deliver_drop {cursor : Cursor} {value : Value} {data : List UInt8} {count : Nat}
    (length : data.length = cursor.remaining) (enough : count ≤ data.length) :
    cursor.deliver (.ok (value, data.drop count)) = (.ok value, cursor.advance count) := by
  rw [deliver, List.length_drop, ← length, Nat.sub_sub_self enough]

namespace Layout

/-- The check made before the first field is the only one that can fail: behind it the
discriminant can be passed over, and every field is supplied. -/
def ChecksFirst : Layout → Prop
  | struct declared => ∀ cursor checked,
      (Cursor.ensure declared.size).perform cursor = (.ok (), checked) →
        checked.Supplies declared.name declared.fields
  | enum declared => ∀ variant ∈ declared.variants, ∀ cursor checked,
      (Cursor.ensure variant.size).perform cursor = (.ok (), checked) →
        ∃ behind, (Cursor.skip discriminantSize).perform checked = (.ok (), behind) ∧
          ∀ fields, variant.payload = some fields → behind.Supplies declared.name fields

/-- Under every layout the check made before the first field is the only one that can fail. -/
theorem checksFirst (layout : Layout) : layout.ChecksFirst := by
  cases layout with
  | struct declared =>
      intro cursor checked passed
      obtain ⟨enough, rfl⟩ := Cursor.perform_ensure_eq_ok_iff.mp passed
      exact Cursor.supplies_of_le enough
  | enum declared =>
      intro variant _ cursor checked passed
      obtain ⟨enough, rfl⟩ := Cursor.perform_ensure_eq_ok_iff.mp passed
      have discriminant : discriminantSize ≤ cursor.remaining :=
        Nat.le_trans variant.discriminantSize_le enough
      refine ⟨_, Cursor.perform_skip_of_le discriminant, ?_⟩
      intro fields carries
      apply Cursor.supplies_of_le
      rw [variant.size_of_payload carries] at enough
      rw [Cursor.remaining_advance]
      omega

/-- Reading from any cursor inside its data answers the verdict on the unread bytes. -/
theorem Verdict.perform_read {layout : Layout} {cursor : Cursor}
    {verdict : Except LayoutError (Value × List UInt8)} (inBounds : cursor.InBounds)
    (specified : layout.Verdict cursor.rest verdict) :
    layout.read.perform cursor = cursor.deliver verdict := by
  have length := inBounds.length_rest
  -- The verdict is about some bytes, not about a cursor.
  generalize unread : cursor.rest = data at specified length
  cases specified with
  | structShort short =>
      rw [length] at short ⊢
      exact Reading.perform_bind_error (StructLayout.perform_read_of_lt short)
  | @structRead declared data entries enough complete stands =>
      have remain : declared.size ≤ cursor.remaining := Nat.le_trans enough (Nat.le_of_eq length)
      have read := StructLayout.perform_read_of_le remain
      rw [unread, ← (Entries.eq_ofBytes_iff enough).mpr ⟨complete, stands⟩] at read
      rw [Cursor.deliver_drop length enough]
      exact Reading.perform_bind_ok read
  | @enumEmpty declared =>
      have read : declared.read.perform cursor = _ := EnumLayout.perform_read_nil unread
      rw [← length] at read
      exact Reading.perform_bind_error read
  | unknownTag beyond =>
      exact Reading.perform_bind_error
        (EnumLayout.perform_read_unknown unread (List.getElem?_eq_none beyond))
  | enumShort here short =>
      rw [length] at short ⊢
      exact Reading.perform_bind_error (EnumLayout.perform_read_of_lt unread here short)
  | @enumRead declared tag behind variant payload here enough complete stands =>
      have remain : variant.size ≤ cursor.remaining := Nat.le_trans enough (Nat.le_of_eq length)
      have read := EnumLayout.perform_read_of_le unread here remain
      rw [← (variant.payload_eq_ofBytes_iff enough).mpr ⟨complete, stands⟩] at read
      rw [Cursor.deliver_drop length enough]
      exact Reading.perform_bind_ok read

/-- What decoding leaves over is the end of the bytes. -/
theorem Verdict.rest_suffix {layout : Layout} {data rest : List UInt8} {value : Value}
    (specified : layout.Verdict data (.ok (value, rest))) : rest <:+ data := by
  cases specified with
  | structRead => exact List.drop_suffix _ _
  | enumRead => exact List.drop_suffix _ _

/-- Decoding answers the verdict. -/
theorem Verdict.decode_eq {layout : Layout} {data : List UInt8}
    {verdict : Except LayoutError (Value × List UInt8)} (specified : layout.Verdict data verdict) :
    layout.decode data = verdict := by
  have unread : layout.Verdict (Cursor.start data).rest verdict := by
    rw [Cursor.rest_start]
    exact specified
  rw [decode, unread.perform_read (Cursor.inBounds_start data)]
  rcases verdict with error | ⟨value, rest⟩
  · rfl
  · rw [Cursor.deliver]
    simp only [Cursor.rest_advance, Cursor.rest_start, Cursor.remaining_start]
    rw [← List.suffix_iff_eq_drop.mp specified.rest_suffix]

/-- A struct whose bytes are all there is read from them. -/
theorem Verdict.structOfBytes {declared : StructLayout} {data : List UInt8}
    (enough : declared.size ≤ data.length) :
    (struct declared).Verdict data
      (.ok (.struct (Entries.ofBytes declared.fields data), data.drop declared.size)) :=
  .structRead enough (Entries.shape_ofBytes declared.fields data) (Entries.bytes_ofBytes enough)

/-- A variant whose bytes are all there is read from them. -/
theorem Verdict.enumOfBytes {declared : EnumLayout} {tag : UInt8} {behind : List UInt8}
    {variant : Variant} (here : declared.variants[tag.toNat]? = some variant)
    (enough : variant.size ≤ (tag :: behind).length) :
    (enum declared).Verdict (tag :: behind)
      (.ok (.enum variant.name (variant.payload.map fun fields => Entries.ofBytes fields behind),
        (tag :: behind).drop variant.size)) := by
  obtain ⟨complete, stands⟩ := (variant.payload_eq_ofBytes_iff enough).mp rfl
  exact .enumRead here enough complete stands

/-- There is a verdict for every layout and all bytes. -/
theorem exists_verdict (layout : Layout) (data : List UInt8) :
    ∃ verdict, layout.Verdict data verdict := by
  cases layout with
  | struct declared =>
      rcases Nat.lt_or_ge data.length declared.size with short | enough
      · exact ⟨_, .structShort short⟩
      · exact ⟨_, .structOfBytes enough⟩
  | enum declared =>
      rcases data with _ | ⟨tag, behind⟩
      · exact ⟨_, .enumEmpty⟩
      · rcases here : declared.variants[tag.toNat]? with _ | variant
        · exact ⟨_, .unknownTag (List.getElem?_eq_none_iff.mp here)⟩
        · rcases Nat.lt_or_ge (tag :: behind).length variant.size with short | enough
          · exact ⟨_, .enumShort here short⟩
          · exact ⟨_, .enumOfBytes here enough⟩

/-- Reading from any cursor inside its data answers as decoding the unread bytes does. -/
theorem perform_read (layout : Layout) {cursor : Cursor} (inBounds : cursor.InBounds) :
    layout.read.perform cursor = cursor.deliver (layout.decode cursor.rest) := by
  obtain ⟨verdict, specified⟩ := layout.exists_verdict cursor.rest
  rw [specified.decode_eq]
  exact specified.perform_read inBounds

/-- Some bytes have one verdict. -/
theorem Verdict.unique {layout : Layout} {data : List UInt8}
    {left right : Except LayoutError (Value × List UInt8)} (first : layout.Verdict data left)
    (second : layout.Verdict data right) : left = right :=
  first.decode_eq.symm.trans second.decode_eq

/-- What decoding answers is specified. -/
theorem verdict_of_decode_eq {layout : Layout} {data : List UInt8}
    {verdict : Except LayoutError (Value × List UInt8)} (answered : layout.decode data = verdict) :
    layout.Verdict data verdict := by
  obtain ⟨specified, holds⟩ := layout.exists_verdict data
  rw [← answered, holds.decode_eq]
  exact holds

/-- Decoding answers exactly what is specified, for every layout and all bytes, and the
check of the whole width is the only place where a record can turn out to be short. -/
theorem decode_eq_iff_verdict (layout : Layout) :
    (∀ data verdict, layout.decode data = verdict ↔ layout.Verdict data verdict) ∧
      layout.ChecksFirst := by
  refine ⟨fun data verdict => ?_, layout.checksFirst⟩
  constructor
  · exact verdict_of_decode_eq
  · exact Verdict.decode_eq

end Layout

end FixedLayout
