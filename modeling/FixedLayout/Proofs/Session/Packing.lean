import FixedLayout.Proofs.Codec.RoundTrip
import FixedLayout.Proofs.Session.Encoding

/-!
# Packed records

Records of any layouts can stand one behind the other with nothing between them. Who
knows the layouts in their order decodes them one after the other:
`Encoding.decodeSequence_pack` says that this restores every accepted value and leaves
nothing over. Attempts that were refused in between leave no trace, and records without
any bytes are no exception.
-/

namespace FixedLayout

/-- Decodes one value after another, each from what the one before it left over. -/
def decodeSequence : List Layout → List UInt8 → Except LayoutError (List Value × List UInt8)
  | [], data => .ok ([], data)
  | layout :: layouts, data => do
      let (value, rest) ← layout.decode data
      let (values, last) ← decodeSequence layouts rest
      pure (value :: values, last)

/-- A value and then the values behind it are one sequence. -/
theorem decodeSequence_cons {layout : Layout} {layouts : List Layout} {value : Value}
    {values : List Value} {data rest last : List UInt8}
    (decoded : layout.decode data = .ok (value, rest))
    (others : decodeSequence layouts rest = .ok (values, last)) :
    decodeSequence (layout :: layouts) data = .ok (value :: values, last) := by
  simp only [decodeSequence, decoded, others, bind, Except.bind, pure, Except.pure]

namespace Encoding

/-- A value to be written under a layout. -/
structure Attempt where
  layout : Layout
  value : Value

namespace Attempt

/-- The step that makes the attempt. -/
def step (attempt : Attempt) : Step := .encodeInto attempt.layout attempt.value

/-- The form in which the value is decoded. -/
def canonical? (attempt : Attempt) : Option Value := attempt.layout.canonical? attempt.value

/-- What the record decodes to when it stands alone. -/
def readAlone (attempt : Attempt) : Except LayoutError (Value × List UInt8) := do
  let bytes ← attempt.layout.encode attempt.value
  attempt.layout.decode bytes

end Attempt

/-- The session that makes some attempts on an empty output and takes the bytes away. -/
def pack (attempts : List Attempt) :
    List (Except LayoutError (Option (List UInt8)) × List UInt8) :=
  run (attempts.map Attempt.step ++ [.flush]) Output.empty

/-- The attempts that the session accepts. -/
def accepted (attempts : List Attempt) : List Attempt :=
  ((attempts.zip (pack attempts)).filter fun made => made.2.1.isOk).map Prod.fst

/-- Whether the value can be encoded apart. -/
def Attempt.fits (attempt : Attempt) : Bool := (attempt.layout.encode attempt.value).isOk

/-- An attempt behind others is accepted exactly when its value can be encoded apart. -/
theorem Attempt.isOk_perform (attempt : Attempt) (output : Output) :
    ((writing attempt.step).perform output).1.isOk = attempt.fits := by
  rw [fits, step, Step.Writes.into.perform]
  cases attempt.layout.encode attempt.value <;> rfl

/-- The session accepts the attempts whose values can be encoded apart. -/
theorem accepted_eq_filter (attempts : List Attempt) :
    accepted attempts = attempts.filter Attempt.fits := by
  -- The output changes from attempt to attempt.
  rw [accepted, pack]
  generalize Output.empty = output
  induction attempts generalizing output with
  | nil => rfl
  | cons attempt attempts inductionHypothesis =>
      have answered := attempt.isOk_perform output
      rw [List.map_cons, List.cons_append, run_cons, List.zip_cons_cons]
      cases fits : attempt.fits with
      | true => simp [answered, fits, inductionHypothesis]
      | false => simp [answered, fits, inductionHypothesis]

/-- The session takes away the encodings of the accepted values, one behind the other. -/
theorem getLast?_pack (attempts : List Attempt) :
    (pack attempts).getLast? =
      some (.ok (some (attempts.flatMap fun attempt =>
        acceptedBytes attempt.layout attempt.value)), []) := by
  have keeps : ∀ step ∈ attempts.map Attempt.step, ¬ step.Empties := by
    intro step member
    obtain ⟨attempt, _, rfl⟩ := List.mem_map.mp member
    exact id
  have held := bytes_finish_of_keeps Output.empty keeps
  rw [List.flatMap_map] at held
  have flushed : run [.flush] (finish (attempts.map Attempt.step) Output.empty) =
      [(.ok (some (finish (attempts.map Attempt.step) Output.empty).bytes), [])] := rfl
  rw [pack, run_append, flushed, List.getLast?_concat, held]
  rfl

/-- Packed records are read back in order, and refused attempts between them leave no trace. -/
theorem exists_decodeSequence (attempts : List Attempt) :
    ∃ values,
      decodeSequence ((attempts.filter Attempt.fits).map Attempt.layout)
          (attempts.flatMap fun attempt => acceptedBytes attempt.layout attempt.value) =
        .ok (values, []) ∧
      (attempts.filter Attempt.fits).map Attempt.canonical? = values.map some ∧
      (attempts.filter Attempt.fits).map Attempt.readAlone =
        values.map fun value => .ok (value, []) := by
  induction attempts with
  | nil => exact ⟨[], rfl, rfl, rfl⟩
  | cons attempt attempts inductionHypothesis =>
      obtain ⟨values, decoded, canonical, alone⟩ := inductionHypothesis
      rw [List.flatMap_cons, acceptedBytes]
      cases encoded : attempt.layout.encode attempt.value with
      | error error =>
          have refused : ¬ attempt.fits = true := by
            rw [Attempt.fits, encoded]
            exact Bool.false_ne_true
          rw [List.filter_cons_of_neg refused]
          exact ⟨values, decoded, canonical, alone⟩
      | ok bytes =>
          have fits : attempt.fits = true := by
            rw [Attempt.fits, encoded]
            rfl
          obtain ⟨value, found, readBack⟩ := (Layout.outcome_of_encode_eq encoded).decode_append
          have readAlone : attempt.readAlone = .ok (value, []) := by
            have whole := readBack []
            rw [List.append_nil] at whole
            exact bind_eq_ok_iff.mpr ⟨bytes, encoded, whole⟩
          -- The record is read back in front of the bytes of all later attempts.
          rw [List.filter_cons_of_pos fits]
          refine ⟨value :: values, decodeSequence_cons (readBack _) decoded, ?_, ?_⟩
          · rw [List.map_cons, List.map_cons, canonical, Attempt.canonical?, found]
          · rw [List.map_cons, List.map_cons, alone, readAlone]

/-- Whatever is attempted on an empty output, decoding the bytes one after the other under the
layouts of the accepted attempts restores their values in order and leaves nothing over. Each
value is the one that the record alone decodes to. -/
theorem decodeSequence_pack (attempts : List Attempt) :
    ∃ bytes values,
      (pack attempts).getLast? = some (.ok (some bytes), []) ∧
      decodeSequence ((accepted attempts).map Attempt.layout) bytes = .ok (values, []) ∧
      (accepted attempts).map Attempt.canonical? = values.map some ∧
      (accepted attempts).map Attempt.readAlone = values.map fun value => .ok (value, []) := by
  obtain ⟨values, decoded, canonical, alone⟩ := exists_decodeSequence attempts
  rw [← accepted_eq_filter] at decoded canonical alone
  exact ⟨_, values, getLast?_pack attempts, decoded, canonical, alone⟩

end Encoding

end FixedLayout
