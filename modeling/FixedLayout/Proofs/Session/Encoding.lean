import FixedLayout.Codec.Session
import FixedLayout.Proofs.Codec.Encoding

/-!
# Encoding sessions

A session goes on behind a refused step. `Encoding.Answers` says what one step answers
on an output and what the output holds after it; `Encoding.Holds` says what an output
holds after a whole session, whatever it held at the start. Both know of encoding only
what `Layout.encode` answers, so all ways of writing a value agree with it and with
each other, and a refused value is as if it had not been tried.
`Encoding.getElem?_run_eq_some_iff` says that a session shows exactly this, step by step.
-/

namespace FixedLayout.Encoding

/-- The step writes a value under a layout behind what the output holds. -/
inductive Step.Writes : Step → Layout → Value → Prop where
  | value {layout value} : Writes (.writeValue layout value) layout value
  | struct {declared entries} :
      Writes (.writeStruct declared entries) (.struct declared) (.struct entries)
  | enum {declared variant payload} :
      Writes (.writeEnum declared variant payload) (.enum declared) (.enum variant payload)
  | into {layout value} : Writes (.encodeInto layout value) layout value

/-- What a step answers on an output that holds some bytes, and what the output holds
after it. -/
inductive Answers (held : List UInt8) :
    Step → Except LayoutError (Option (List UInt8)) → List UInt8 → Prop where
  | encoded {layout value bytes} (accepted : layout.encode value = .ok bytes) :
      Answers held (.encode layout value) (.ok (some bytes)) []
  | encodeRefused {layout value error} (refused : layout.encode value = .error error) :
      Answers held (.encode layout value) (.error error) []
  | written {step : Step} {layout value bytes} (writes : step.Writes layout value)
      (accepted : layout.encode value = .ok bytes) : Answers held step (.ok none) (held ++ bytes)
  | writeRefused {step : Step} {layout value error} (writes : step.Writes layout value)
      (refused : layout.encode value = .error error) : Answers held step (.error error) held
  | word (word : Word) : Answers held (.word word) (.ok none) (held ++ word.bytes)
  | cleared : Answers held .clear (.ok none) []
  | flushed : Answers held .flush (.ok (some held)) []

/-- The step leaves the output empty, even if it is refused. -/
def Step.Empties : Step → Prop
  | .encode _ _ | .clear | .flush => True
  | _ => False

/-- The bytes of an accepted value; none if the value is refused. -/
def acceptedBytes (layout : Layout) (value : Value) : List UInt8 :=
  match layout.encode value with
  | .ok bytes => bytes
  | .error _ => []

/-- The bytes that a step adds to what the output holds. -/
def Step.added : Step → List UInt8
  | .writeValue layout value => acceptedBytes layout value
  | .writeStruct declared entries => acceptedBytes (.struct declared) (.struct entries)
  | .writeEnum declared variant payload => acceptedBytes (.enum declared) (.enum variant payload)
  | .encodeInto layout value => acceptedBytes layout value
  | .word written => written.bytes
  | .encode _ _ | .clear | .flush => []

/-- What an output holds after a session: what was added since a step last emptied it, behind
what it held at the start if no step did. -/
inductive Holds (start : List UInt8) : List Step → List UInt8 → Prop where
  | kept {steps} (kept : ∀ step ∈ steps, ¬ step.Empties) :
      Holds start steps (start ++ steps.flatMap Step.added)
  | emptied {earlier step later} (empties : step.Empties)
      (kept : ∀ other ∈ later, ¬ other.Empties) :
      Holds start (earlier ++ step :: later) (later.flatMap Step.added)

/-- A writing of known outcome keeps it when it returns no bytes. -/
theorem perform_silently {written : Writing Unit} {output : Output}
    {outcome : Except LayoutError (List UInt8)}
    (received : written.perform output = output.receive outcome) :
    (silently written).perform output =
      (outcome.map fun _ => none, (output.receive outcome).2) := by
  cases outcome with
  | error error => exact Writing.perform_bind_error received
  | ok bytes => exact Writing.perform_bind_ok received

/-- All ways of writing a value behind an output come to the same. -/
theorem Step.Writes.perform {step : Step} {layout : Layout} {value : Value}
    (writes : step.Writes layout value) (output : Output) :
    (writing step).perform output =
      ((layout.encode value).map fun _ => none, (output.receive (layout.encode value)).2) := by
  cases writes with
  | value => exact perform_silently (layout.perform_write value output)
  | struct => exact perform_silently (Layout.perform_write (.struct _) (.struct _) output)
  | enum => exact perform_silently (Layout.perform_write (.enum _) (.enum _ _) output)
  | into => exact perform_silently (layout.perform_encodeInto value output)

/-- Encoding one value apart forgets what the output held and leaves it empty. -/
theorem perform_encodeAlone (layout : Layout) (value : Value) (output : Output) :
    (encodeAlone layout value).perform output = (layout.encode value, Output.empty) := by
  have written := layout.perform_write value Output.empty
  have cleared : (set Output.empty : Writing Unit).perform output = (.ok (), Output.empty) := rfl
  refine (Writing.perform_bind_ok cleared).trans ?_
  cases encoded : layout.encode value with
  | error error =>
      rw [encoded] at written
      exact Writing.perform_bind_error written
  | ok bytes =>
      rw [encoded] at written
      exact Writing.perform_bind_ok written

section Account

variable {output : Output} {held after : List UInt8} {steps : List Step} {step : Step}
  {layout : Layout} {value : Value} {outcome : Except LayoutError (Option (List UInt8))}

/-- A step does what is specified of it. -/
theorem Answers.perform_eq (answers : Answers output.bytes step outcome after) :
    (writing step).perform output = (outcome, ⟨after⟩) := by
  cases answers with
  | @encoded layout value bytes accepted =>
      have alone := perform_encodeAlone layout value output
      rw [accepted] at alone
      exact Writing.perform_bind_ok alone
  | @encodeRefused layout value error refused =>
      have alone := perform_encodeAlone layout value output
      rw [refused] at alone
      exact Writing.perform_bind_error alone
  | written writes accepted =>
      rw [writes.perform, accepted]
      rfl
  | writeRefused writes refused =>
      rw [writes.perform, refused]
      rfl
  | word => rfl
  | cleared => rfl
  | flushed => rfl

/-- A step that writes a value has a specified answer. -/
theorem Step.Writes.exists_answers (writes : step.Writes layout value) (held : List UInt8) :
    ∃ outcome after, Answers held step outcome after := by
  cases encoded : layout.encode value with
  | error error => exact ⟨_, _, .writeRefused writes encoded⟩
  | ok bytes => exact ⟨_, _, .written writes encoded⟩

/-- Every step has a specified answer, whatever the output holds. -/
theorem exists_answers (held : List UInt8) (step : Step) :
    ∃ outcome after, Answers held step outcome after := by
  cases step with
  | encode layout value =>
      cases encoded : layout.encode value with
      | error error => exact ⟨_, _, .encodeRefused encoded⟩
      | ok bytes => exact ⟨_, _, .encoded encoded⟩
  | writeValue layout value => exact Step.Writes.value.exists_answers held
  | writeStruct declared entries => exact Step.Writes.struct.exists_answers held
  | writeEnum declared variant payload => exact Step.Writes.enum.exists_answers held
  | encodeInto layout value => exact Step.Writes.into.exists_answers held
  | word written => exact ⟨_, _, .word written⟩
  | clear => exact ⟨_, _, .cleared⟩
  | flush => exact ⟨_, _, .flushed⟩

/-- What a step does is exactly what is specified of it. -/
theorem answers_iff :
    Answers output.bytes step outcome after ↔
      ((writing step).perform output).1 = outcome ∧
        ((writing step).perform output).2.bytes = after := by
  constructor
  · intro answers
    rw [answers.perform_eq]
    exact ⟨rfl, rfl⟩
  · rintro ⟨rfl, rfl⟩
    obtain ⟨outcome, after, answers⟩ := exists_answers output.bytes step
    rw [answers.perform_eq]
    exact answers

/-- Every step answers as its layouts encode. -/
theorem answers_perform (step : Step) (output : Output) :
    Answers output.bytes step ((writing step).perform output).1
      ((writing step).perform output).2.bytes :=
  answers_iff.mpr ⟨rfl, rfl⟩

/-- A step that empties the output leaves nothing. -/
theorem Answers.after_of_empties (answers : Answers held step outcome after)
    (empties : step.Empties) : after = [] := by
  cases answers with
  | encoded => rfl
  | encodeRefused => rfl
  | written writes => cases writes <;> cases empties
  | writeRefused writes => cases writes <;> cases empties
  | word => cases empties
  | cleared => rfl
  | flushed => rfl

/-- The bytes that a writing step adds are those of the value, if it is accepted. -/
theorem Step.Writes.added_eq (writes : step.Writes layout value) :
    step.added = acceptedBytes layout value := by
  cases writes <;> rfl

/-- Any other step keeps what the output holds, and adds to it only what is accepted. -/
theorem Answers.after_of_keeps (answers : Answers held step outcome after)
    (keeps : ¬ step.Empties) : after = held ++ step.added := by
  cases answers with
  | encoded => exact absurd trivial keeps
  | encodeRefused => exact absurd trivial keeps
  | written writes accepted => rw [writes.added_eq, acceptedBytes, accepted]
  | writeRefused writes refused => rw [writes.added_eq, acceptedBytes, refused, List.append_nil]
  | word => rfl
  | cleared => exact absurd trivial keeps
  | flushed => exact absurd trivial keeps

/-- The output after a session. -/
def finish (steps : List Step) (output : Output) : Output :=
  steps.foldl (fun output step => ((writing step).perform output).2) output

/-- A session goes on with the output of its first step. -/
theorem finish_cons (step : Step) (steps : List Step) (output : Output) :
    finish (step :: steps) output = finish steps ((writing step).perform output).2 := rfl

/-- Two sessions one after the other are one session. -/
theorem finish_append (earlier later : List Step) (output : Output) :
    finish (earlier ++ later) output = finish later (finish earlier output) :=
  List.foldl_append

/-- A session records the reply to its first step with the bytes written by then. -/
theorem run_cons (step : Step) (steps : List Step) (output : Output) :
    run (step :: steps) output =
      (((writing step).perform output).1, ((writing step).perform output).2.bytes) ::
        run steps ((writing step).perform output).2 := rfl

/-- A session goes on from the output that its first part leaves. -/
theorem run_append (earlier later : List Step) (output : Output) :
    run (earlier ++ later) output = run earlier output ++ run later (finish earlier output) := by
  induction earlier generalizing output with
  | nil => rfl
  | cons step earlier inductionHypothesis =>
      rw [List.cons_append, run_cons, run_cons, inductionHypothesis, finish_cons, List.cons_append]

/-- A session shows what each step answers on the output that the steps before it have left. -/
theorem getElem?_run (earlier : List Step) (step : Step) (later : List Step) (output : Output) :
    (run (earlier ++ step :: later) output)[earlier.length]? =
      some (((writing step).perform (finish earlier output)).1,
        ((writing step).perform (finish earlier output)).2.bytes) := by
  induction earlier generalizing output with
  | nil => rfl
  | cons first earlier inductionHypothesis =>
      rw [List.cons_append, run_cons, List.length_cons, List.getElem?_cons_succ,
        inductionHypothesis, finish_cons]

/-- Steps that keep what the output holds put what they add behind it. -/
theorem bytes_finish_of_keeps (output : Output) (keeps : ∀ step ∈ steps, ¬ step.Empties) :
    (finish steps output).bytes = output.bytes ++ steps.flatMap Step.added := by
  induction steps generalizing output with
  | nil => exact (List.append_nil output.bytes).symm
  | cons step steps inductionHypothesis =>
      have others := fun other member => keeps other (List.mem_cons_of_mem step member)
      have first := (answers_perform step output).after_of_keeps (keeps step List.mem_cons_self)
      rw [finish_cons, inductionHypothesis _ others, first, List.flatMap_cons, List.append_assoc]

/-- The account of a session is what the output holds at its end. -/
theorem Holds.bytes_finish_eq (holds : Holds output.bytes steps held) :
    (finish steps output).bytes = held := by
  cases holds with
  | kept keeps => exact bytes_finish_of_keeps output keeps
  | @emptied earlier step later empties keeps =>
      have nothing := (answers_perform step (finish earlier output)).after_of_empties empties
      rw [finish_append, finish_cons, bytes_finish_of_keeps _ keeps, nothing, List.nil_append]

/-- There is an account of every session. -/
theorem exists_holds (start : List UInt8) (steps : List Step) :
    ∃ held, Holds start steps held := by
  induction steps with
  | nil => exact ⟨_, .kept nofun⟩
  | cons step steps inductionHypothesis =>
      obtain ⟨held, holds⟩ := inductionHypothesis
      -- A step in front counts only if no step behind it empties the output.
      cases holds with
      | kept keeps =>
          by_cases empties : step.Empties
          · have emptied : Holds start ([] ++ step :: steps) _ := .emptied empties keeps
            exact ⟨_, emptied⟩
          · exact ⟨_, .kept (List.forall_mem_cons.mpr ⟨empties, keeps⟩)⟩
      | @emptied earlier first later empties keeps =>
          have emptied : Holds start ((step :: earlier) ++ first :: later) _ :=
            .emptied empties keeps
          exact ⟨_, emptied⟩

/-- What an output holds after a session is exactly what the account says. -/
theorem holds_iff : Holds output.bytes steps held ↔ (finish steps output).bytes = held := by
  constructor
  · exact Holds.bytes_finish_eq
  · rintro rfl
    obtain ⟨held, holds⟩ := exists_holds output.bytes steps
    rw [holds.bytes_finish_eq]
    exact holds

end Account

/-- Wherever a step stands in a session, it answers exactly as specified on what the account of
the steps before it says, and afterwards the output holds exactly what the account with the
step says. -/
theorem getElem?_run_eq_some_iff (start : Output) (earlier : List Step) (step : Step)
    (later : List Step) :
    (∀ outcome after,
      (run (earlier ++ step :: later) start)[earlier.length]? = some (outcome, after) ↔
        ∃ held, Holds start.bytes earlier held ∧ Answers held step outcome after) ∧
    ∀ after,
      (∃ outcome,
        (run (earlier ++ step :: later) start)[earlier.length]? = some (outcome, after)) ↔
        Holds start.bytes (earlier ++ [step]) after := by
  rw [getElem?_run]
  simp only [Option.some.injEq, Prod.mk.injEq]
  constructor
  · intro outcome after
    rw [← answers_iff]
    constructor
    · intro answers
      exact ⟨_, holds_iff.mpr rfl, answers⟩
    · rintro ⟨held, holds, answers⟩
      rw [holds_iff.mp holds]
      exact answers
  · intro after
    rw [holds_iff, finish_append]
    constructor
    · rintro ⟨_, _, held⟩
      exact held
    · intro held
      exact ⟨_, rfl, held⟩

end FixedLayout.Encoding
