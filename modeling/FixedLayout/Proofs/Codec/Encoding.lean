import FixedLayout.Proofs.Codec.Checking

/-!
# Encoding meets its specification

A writing leaves the output as it was or puts the whole encoding behind it. Which
of the two happens, with which cause or bytes, is what `Layout.Outcome` says, for
every layout, every value and every output. `Layout.exists_outcome` shows that the
specification leaves no input open.
-/

namespace FixedLayout

/-- What a writing of known outcome answers, and the output after it: the bytes behind
what the output held, or the output as it was. -/
def Output.receive (output : Output) :
    Except LayoutError (List UInt8) → Except LayoutError Unit × Output
  | .ok bytes => (.ok (), output.putBytes bytes)
  | .error error => (.error error, output)

namespace Writing

variable {Result Next : Type}

/-- A sequence whose first part succeeds is its second part. -/
theorem perform_bind_ok {writing : Writing Result} {next : Result → Writing Next}
    {output after : Output} {result : Result}
    (succeeded : writing.perform output = (.ok result, after)) :
    (writing >>= next).perform output = (next result).perform after :=
  run_bind_of_ok succeeded

/-- A sequence whose first part fails has failed. -/
theorem perform_bind_error {writing : Writing Result} {next : Result → Writing Next}
    {output after : Output} {error : LayoutError}
    (failed : writing.perform output = (.error error, after)) :
    (writing >>= next).perform output = (.error error, after) :=
  run_bind_of_error failed

/-- A successful check before a writing changes nothing. -/
theorem perform_ofExcept_bind_ok {attempt : Except LayoutError Result}
    {next : Result → Writing Next} {result : Result} (succeeded : attempt = .ok result)
    (output : Output) :
    (ofExcept attempt >>= next : Writing Next).perform output = (next result).perform output := by
  subst succeeded
  exact perform_bind_ok rfl

/-- A failed check before a writing leaves the output as it was. -/
theorem perform_ofExcept_bind_error {attempt : Except LayoutError Result}
    {next : Result → Writing Next} {error : LayoutError} (failed : attempt = .error error)
    (output : Output) :
    (ofExcept attempt >>= next : Writing Next).perform output = (.error error, output) := by
  subst failed
  exact perform_bind_error rfl

end Writing

/-- Accepted entries are written in one piece behind the output. -/
theorem Entries.Accepted.putFields {entries : Entries} {fields : List Field} {bytes : List UInt8}
    (accepted : entries.Accepted fields bytes) (output : Output) :
    output.putFields fields entries = output.putBytes bytes := by
  obtain ⟨arranged, arranges, rfl⟩ := accepted_iff.mp accepted
  exact Output.putFields_of_arrange? arranges.found output

/-- Accepted entries pass the check. -/
theorem Entries.Accepted.check_eq_ok {entries : Entries} {fields : List Field}
    {bytes : List UInt8} (accepted : entries.Accepted fields bytes) (owner : String) :
    entries.check owner fields = .ok () := by
  obtain ⟨arranged, arranges, _⟩ := accepted_iff.mp accepted
  exact check_eq_ok_iff.mpr ⟨arranged, arranges⟩

/-- Every entry list is accepted with some bytes or refused for some cause. -/
theorem Entries.accepted_or_refused (entries : Entries) (owner : String) (fields : List Field) :
    (∃ bytes, entries.Accepted fields bytes) ∨ ∃ error, entries.Refused owner fields error := by
  rcases checked : entries.check owner fields with error | _
  · exact .inr ⟨error, check_eq_error_iff_refused.mp checked⟩
  · obtain ⟨arranged, arranges⟩ := check_eq_ok_iff.mp checked
    exact .inl ⟨arranged.bytes, accepted_iff.mpr ⟨arranged, arranges, rfl⟩⟩

namespace Layout

/-- Writing behind any output has the specified outcome. -/
theorem Outcome.perform_write {layout : Layout} {value : Value}
    {outcome : Except LayoutError (List UInt8)} (specified : layout.Outcome value outcome)
    (output : Output) : (layout.write value).perform output = output.receive outcome := by
  cases specified with
  | kindMismatch differ =>
      -- Only the combinations of different kinds remain.
      cases layout <;> cases value <;> first | exact absurd rfl differ | rfl
  | structRefused refused =>
      exact Writing.perform_ofExcept_bind_error
        (Entries.check_eq_error_iff_refused.mpr refused) output
  | structAccepted accepted =>
      refine (Writing.perform_ofExcept_bind_ok (accepted.check_eq_ok _) output).trans ?_
      rw [Output.receive, ← accepted.putFields]
      rfl
  | unknownVariant unreached =>
      exact Writing.perform_ofExcept_bind_error
        (EnumLayout.find_eq_error_iff.mpr ⟨rfl, unreached⟩) output
  | unexpectedPayload first reached bare =>
      refine (Writing.perform_ofExcept_bind_ok (first.find_eq_ok reached) output).trans ?_
      simp only [bare, ← first.named]
      rfl
  | missingPayload first reached carries =>
      refine (Writing.perform_ofExcept_bind_ok (first.find_eq_ok reached) output).trans ?_
      simp only [carries, ← first.named]
      rfl
  | payloadRefused first reached carries refused =>
      refine (Writing.perform_ofExcept_bind_ok (first.find_eq_ok reached) output).trans ?_
      rw [← first.named] at refused
      simp only [carries]
      exact Writing.perform_ofExcept_bind_error
        (Entries.check_eq_error_iff_refused.mpr refused) output
  | bareAccepted first reached bare =>
      refine (Writing.perform_ofExcept_bind_ok (first.find_eq_ok reached) output).trans ?_
      simp only [bare]
      rfl
  | @payloadAccepted _ _ index _ fields entries _ first reached carries accepted =>
      refine (Writing.perform_ofExcept_bind_ok (first.find_eq_ok reached) output).trans ?_
      simp only [carries]
      refine (Writing.perform_ofExcept_bind_ok (accepted.check_eq_ok _) output).trans ?_
      change (Except.ok (), (output.putByte (UInt8.ofNat index)).putFields fields entries) = _
      rw [accepted.putFields, Output.receive]
      simp [Output.putByte, Output.putBytes]

/-- A value that cannot be measured is refused for the same cause when it is written. -/
theorem perform_write_of_encodedLength_error {layout : Layout} {value : Value}
    {error : LayoutError} (unmeasured : layout.encodedLength value = .error error)
    (output : Output) : (layout.write value).perform output = (.error error, output) := by
  cases layout <;> cases value
  case struct.struct => cases unmeasured
  case struct.enum =>
    cases unmeasured
    rfl
  case enum.struct =>
    cases unmeasured
    rfl
  case enum.enum =>
    rcases bind_eq_error_iff.mp unmeasured with unknown | ⟨_, _, impossible⟩
    · exact Writing.perform_ofExcept_bind_error unknown output
    · cases impossible

/-- Measuring a value before it is written does not change the outcome. -/
theorem Outcome.perform_encodeInto {layout : Layout} {value : Value}
    {outcome : Except LayoutError (List UInt8)} (specified : layout.Outcome value outcome)
    (output : Output) : (layout.encodeInto value).perform output = output.receive outcome := by
  rw [← specified.perform_write output, encodeInto]
  rcases measured : layout.encodedLength value with error | size
  · rw [perform_write_of_encodedLength_error measured]
    exact Writing.perform_ofExcept_bind_error rfl output
  · exact Writing.perform_ofExcept_bind_ok rfl output

/-- The encoder answers as specified. -/
theorem Outcome.encode_eq {layout : Layout} {value : Value}
    {outcome : Except LayoutError (List UInt8)} (specified : layout.Outcome value outcome) :
    layout.encode value = outcome := by
  rw [encode, specified.perform_encodeInto]
  cases outcome <;> rfl

/-- The specification has an outcome for every layout and every value. -/
theorem exists_outcome (layout : Layout) (value : Value) :
    ∃ outcome, layout.Outcome value outcome := by
  cases layout with
  | struct declared =>
      cases value with
      | struct entries =>
          rcases entries.accepted_or_refused declared.name declared.fields with
            ⟨_, accepted⟩ | ⟨_, refused⟩
          · exact ⟨_, .structAccepted accepted⟩
          · exact ⟨_, .structRefused refused⟩
      | enum name payload => exact ⟨_, .kindMismatch nofun⟩
  | enum declared =>
      cases value with
      | struct entries => exact ⟨_, .kindMismatch nofun⟩
      | enum name payload =>
          rcases found : declared.find name with error | ⟨tag, variant⟩
          · exact ⟨_, .unknownVariant (EnumLayout.find_eq_error_iff.mp found).2⟩
          · have first := EnumLayout.find_eq_ok_iff.mp found
            rcases carried : variant.payload with _ | fields <;> rcases payload with _ | entries
            · exact ⟨_, .bareAccepted first tag.toNat_lt carried⟩
            · exact ⟨_, .unexpectedPayload first tag.toNat_lt carried⟩
            · exact ⟨_, .missingPayload first tag.toNat_lt carried⟩
            · rcases entries.accepted_or_refused (declared.name ++ "::" ++ name) fields with
                ⟨_, accepted⟩ | ⟨_, refused⟩
              · exact ⟨_, .payloadAccepted first tag.toNat_lt carried accepted⟩
              · exact ⟨_, .payloadRefused first tag.toNat_lt carried refused⟩

/-- Writing behind any output answers as encoding does, and what it adds is the encoding. -/
theorem perform_write (layout : Layout) (value : Value) (output : Output) :
    (layout.write value).perform output = output.receive (layout.encode value) := by
  obtain ⟨outcome, specified⟩ := layout.exists_outcome value
  rw [specified.encode_eq]
  exact specified.perform_write output

/-- Measuring first does not change that. -/
theorem perform_encodeInto (layout : Layout) (value : Value) (output : Output) :
    (layout.encodeInto value).perform output = output.receive (layout.encode value) := by
  obtain ⟨outcome, specified⟩ := layout.exists_outcome value
  rw [specified.encode_eq]
  exact specified.perform_encodeInto output

/-- What the encoder answers is specified. -/
theorem outcome_of_encode_eq {layout : Layout} {value : Value}
    {outcome : Except LayoutError (List UInt8)} (answered : layout.encode value = outcome) :
    layout.Outcome value outcome := by
  obtain ⟨specified, holds⟩ := layout.exists_outcome value
  rw [← answered, holds.encode_eq]
  exact holds

/-- Encoding answers exactly what is specified, for every layout and every value. -/
theorem encode_eq_iff_outcome (layout : Layout) (value : Value)
    (outcome : Except LayoutError (List UInt8)) :
    layout.encode value = outcome ↔ layout.Outcome value outcome := by
  constructor
  · exact outcome_of_encode_eq
  · exact Outcome.encode_eq

end Layout

end FixedLayout
