import FixedLayout.Codec.Session
import FixedLayout.Proofs.Codec.RoundTrip

/-!
# Decoding sessions

A session may reset its cursor, pass over bytes, read words and whole values, and go on
behind a failure. `Decoding.Moves` says how a step can move a cursor: from it follow that
the cursor stays inside its data and that the bytes passed over, one stretch behind the
other, are the data up to the unread bytes. `Decoding.RefinesDecode` says that what a step
reads is `Layout.decode` of the unread bytes, wherever in its data the cursor stands.
-/

namespace FixedLayout

namespace Cursor

/-- The bytes that a cursor passes over on its way to a later place in its data. -/
def passed (cursor next : Cursor) : List UInt8 :=
  (cursor.data.take next.position).drop cursor.position

/-- A move over unread bytes has passed them. -/
theorem passed_advance {cursor : Cursor} {count : Nat} (enough : count ≤ cursor.remaining) :
    cursor.passed (cursor.advance count) = cursor.rest.take count := by
  have stop : min count (cursor.limit - cursor.position) = count := Nat.min_eq_left enough
  simp only [passed, advance, rest, List.drop_take, List.take_take, Nat.add_sub_cancel_left, stop]

/-- What is passed over and what stays unread are together what was unread. -/
theorem passed_advance_append_rest {cursor : Cursor} {count : Nat}
    (enough : count ≤ cursor.remaining) :
    cursor.passed (cursor.advance count) ++ (cursor.advance count).rest = cursor.rest := by
  rw [passed_advance enough, rest_advance, List.take_append_drop]

end Cursor

/-- Reading a struct as a value is reading its entries. -/
theorem StructLayout.perform_read_value (declared : StructLayout) (cursor : Cursor) :
    (Layout.struct declared).read.perform cursor =
      ((declared.read.perform cursor).1.map .struct, (declared.read.perform cursor).2) := by
  rcases performed : declared.read.perform cursor with ⟨error | entries, next⟩
  · exact Reading.perform_bind_error performed
  · exact Reading.perform_bind_ok performed

/-- Reading an enum as a value is reading its variant and payload. -/
theorem EnumLayout.perform_read_value (declared : EnumLayout) (cursor : Cursor) :
    (Layout.enum declared).read.perform cursor =
      ((declared.read.perform cursor).1.map fun found => .enum found.1 found.2,
        (declared.read.perform cursor).2) := by
  rcases performed : declared.read.perform cursor with ⟨error | ⟨variant, payload⟩, next⟩
  · exact Reading.perform_bind_error performed
  · exact Reading.perform_bind_ok performed

namespace Decoding

/-- The layout whose values a step reads. -/
def Step.layout? : Step → Option Layout
  | .value layout => some layout
  | .struct declared => some (.struct declared)
  | .enum declared => some (.enum declared)
  | .word _ | .skip _ | .reset _ => none

/-- What reading a value under a layout came to. -/
def Reply.read? : Reply → Option (Except LayoutError Value)
  | .value found => some (.ok found)
  | .struct entries => some (.ok (.struct entries))
  | .enum variant payload => some (.ok (.enum variant payload))
  | .failed error => some (.error error)
  | .word _ | .done | .ended _ => none

/-- Whether the step succeeded. -/
def Reply.succeeded : Reply → Bool
  | .value _ | .struct _ | .enum _ _ | .word _ | .done => true
  | .failed _ | .ended _ => false

/-- A reply to reading a value has succeeded exactly if the reading has. -/
theorem Reply.succeeded_eq_isOk {reply : Reply} {outcome : Except LayoutError Value}
    (came : reply.read? = some outcome) : reply.succeeded = outcome.isOk := by
  cases reply <;> cases came <;> rfl

/-- All ways of reading a value under a layout come to the same. -/
theorem perform_eq_read {step : Step} {layout : Layout} (reads : step.layout? = some layout)
    (cursor : Cursor) :
    (perform step cursor).1.read? = some (layout.read.perform cursor).1 ∧
      (perform step cursor).2 = (layout.read.perform cursor).2 := by
  cases step with
  | value layout =>
      cases reads
      rw [perform]
      rcases layout.read.perform cursor with ⟨error | value, next⟩ <;> exact ⟨rfl, rfl⟩
  | struct declared =>
      cases reads
      rw [declared.perform_read_value, perform]
      rcases declared.read.perform cursor with ⟨error | entries, next⟩ <;> exact ⟨rfl, rfl⟩
  | enum declared =>
      cases reads
      rw [declared.perform_read_value, perform]
      rcases declared.read.perform cursor with ⟨error | found, next⟩ <;> exact ⟨rfl, rfl⟩
  | word type => cases reads
  | skip count => cases reads
  | reset data => cases reads

/-- How a step can move a cursor. -/
inductive Moves (cursor : Cursor) : Step → Reply → Cursor → Prop where
  | reset {data} : Moves cursor (.reset data) .done (Cursor.start data)
  | forward {step : Step} {reply : Reply} {count : Nat} (succeeded : reply.succeeded = true)
      (enough : count ≤ cursor.remaining) : Moves cursor step reply (cursor.advance count)
  | nowhere {step : Step} {reply : Reply} (failed : reply.succeeded = false) :
      Moves cursor step reply cursor

/-- Inside its data, a cursor is moved by every step in one of these ways. -/
theorem moves_perform {cursor : Cursor} (inBounds : cursor.InBounds) (step : Step) :
    Moves cursor step (perform step cursor).1 (perform step cursor).2 := by
  cases reads : step.layout? with
  | some layout =>
      obtain ⟨came, next⟩ := perform_eq_read reads cursor
      rw [layout.perform_read inBounds] at came next
      have succeeded := Reply.succeeded_eq_isOk came
      rw [next]
      cases decoded : layout.decode cursor.rest with
      | error error =>
          rw [decoded] at succeeded
          exact .nowhere succeeded
      | ok found =>
          rw [decoded] at succeeded
          exact .forward succeeded (Nat.sub_le _ _)
  | none =>
      cases step with
      | value layout => cases reads
      | struct declared => cases reads
      | enum declared => cases reads
      | word type =>
          rw [perform]
          rcases Nat.lt_or_ge cursor.remaining type.width with short | enough
          · rw [Cursor.perform_word_of_lt short]
            exact .nowhere rfl
          · rw [Cursor.perform_word_of_le enough]
            exact .forward rfl enough
      | skip count =>
          rw [perform]
          rcases Nat.lt_or_ge cursor.remaining count with short | enough
          · rw [Cursor.perform_skip_of_lt short]
            exact .nowhere rfl
          · rw [Cursor.perform_skip_of_le enough]
            exact .forward rfl enough
      | reset data => exact .reset

section Movement

variable {cursor next : Cursor} {step : Step} {reply : Reply}

/-- However a cursor is moved, it stays inside its data. -/
theorem Moves.inBounds (moves : Moves cursor step reply next) (inBounds : cursor.InBounds) :
    next.InBounds := by
  cases moves with
  | reset => exact Cursor.inBounds_start _
  | forward _ enough => exact inBounds.advance enough
  | nowhere => exact inBounds

/-- A step that fails does not move the cursor. -/
theorem Moves.eq_of_failed (moves : Moves cursor step reply next)
    (failed : reply.succeeded = false) : next = cursor := by
  cases moves with
  | reset => cases failed
  | forward succeeded =>
      rw [succeeded] at failed
      cases failed
  | nowhere => rfl

/-- A step that succeeds passes over the front of the unread bytes, unless it turns to other
data. -/
theorem Moves.passed_append_rest (moves : Moves cursor step reply next)
    (succeeded : reply.succeeded = true) (stays : ∀ data, step ≠ .reset data) :
    cursor.passed next ++ next.rest = cursor.rest := by
  cases moves with
  | reset => exact absurd rfl (stays _)
  | forward _ enough => exact Cursor.passed_advance_append_rest enough
  | nowhere failed =>
      rw [succeeded] at failed
      cases failed

end Movement

/-- The cursor after a session. -/
def finish (steps : List Step) (cursor : Cursor) : Cursor :=
  steps.foldl (fun cursor step => (perform step cursor).2) cursor

/-- The bytes that each successful step of a session passes over. -/
def consumed : List Step → Cursor → List (List UInt8)
  | [], _ => []
  | step :: steps, cursor =>
      let (reply, next) := perform step cursor
      if reply.succeeded then cursor.passed next :: consumed steps next else consumed steps next

/-- A session goes on where its first step leaves the cursor. -/
theorem finish_cons (step : Step) (steps : List Step) (cursor : Cursor) :
    finish (step :: steps) cursor = finish steps (perform step cursor).2 := rfl

/-- A session records the reply to its first step with what is unread behind it. -/
theorem run_cons (step : Step) (steps : List Step) (cursor : Cursor) :
    run (step :: steps) cursor =
      ((perform step cursor).1, (perform step cursor).2.rest) ::
        run steps (perform step cursor).2 := rfl

/-- A step consumes what it passes if it succeeds, and otherwise nothing. -/
theorem consumed_cons (step : Step) (steps : List Step) (cursor : Cursor) :
    consumed (step :: steps) cursor =
      if (perform step cursor).1.succeeded then
        cursor.passed (perform step cursor).2 :: consumed steps (perform step cursor).2
      else consumed steps (perform step cursor).2 := rfl

/-- A session shows what each step replies at the cursor that the steps before it have left. -/
theorem getElem?_run (earlier : List Step) (step : Step) (later : List Step) (cursor : Cursor) :
    (run (earlier ++ step :: later) cursor)[earlier.length]? =
      some ((perform step (finish earlier cursor)).1,
        (perform step (finish earlier cursor)).2.rest) := by
  induction earlier generalizing cursor with
  | nil => rfl
  | cons first earlier inductionHypothesis =>
      rw [List.cons_append, run_cons, List.length_cons, List.getElem?_cons_succ,
        inductionHypothesis, finish_cons]

/-- Whatever a session does, its cursor stays inside its data. -/
theorem inBounds_finish {cursor : Cursor} (inBounds : cursor.InBounds) (steps : List Step) :
    (finish steps cursor).InBounds := by
  induction steps generalizing cursor with
  | nil => exact inBounds
  | cons step steps inductionHypothesis =>
      exact inductionHypothesis ((moves_perform inBounds step).inBounds inBounds)

/-- Without a reset, the bytes passed over and the unread bytes are together what was unread. -/
theorem flatten_consumed_append_rest {cursor : Cursor} {steps : List Step}
    (inBounds : cursor.InBounds) (stays : ∀ data, Step.reset data ∉ steps) :
    (consumed steps cursor).flatten ++ (finish steps cursor).rest = cursor.rest := by
  induction steps generalizing cursor with
  | nil => rfl
  | cons step steps inductionHypothesis =>
      have moves := moves_perform inBounds step
      have others := inductionHypothesis (moves.inBounds inBounds) fun data member =>
        stays data (List.mem_cons_of_mem _ member)
      have staysHere : ∀ data, step ≠ .reset data := fun data same =>
        stays data (same ▸ List.mem_cons_self)
      rw [consumed_cons, finish_cons]
      cases succeeded : (perform step cursor).1.succeeded with
      | true =>
          rw [if_pos rfl, List.flatten_cons, List.append_assoc, others]
          exact moves.passed_append_rest succeeded staysHere
      -- A step that fails consumes nothing, for it leaves the cursor where it was.
      | false =>
          rw [if_neg Bool.false_ne_true, others, moves.eq_of_failed succeeded]

/-- A value is read exactly when it can be decoded, and what decoding leaves over is then
unread. -/
theorem read_eq_ok_iff {cursor : Cursor} {step : Step} {layout : Layout} {value : Value}
    {rest : List UInt8} (inBounds : cursor.InBounds) (reads : step.layout? = some layout) :
    (perform step cursor).1.read? = some (.ok value) ∧ (perform step cursor).2.rest = rest ↔
      layout.decode cursor.rest = .ok (value, rest) := by
  obtain ⟨came, next⟩ := perform_eq_read reads cursor
  rw [came, next, layout.perform_read inBounds]
  cases decoded : layout.decode cursor.rest with
  | error error => simp [Cursor.deliver]
  | ok found =>
      have left := (Layout.verdict_of_decode_eq decoded).rest_suffix
      have unread : (cursor.advance (cursor.remaining - found.2.length)).rest = found.2 := by
        rw [Cursor.rest_advance, ← inBounds.length_rest, ← List.suffix_iff_eq_drop.mp left]
      simp [Cursor.deliver, unread, Prod.ext_iff]

/-- A value is refused exactly when decoding refuses it, for the same cause, and the cursor is
then where it was. -/
theorem read_eq_error_iff {cursor next : Cursor} {step : Step} {layout : Layout}
    {error : LayoutError} (inBounds : cursor.InBounds) (reads : step.layout? = some layout) :
    (perform step cursor).1.read? = some (.error error) ∧ (perform step cursor).2 = next ↔
      layout.decode cursor.rest = .error error ∧ next = cursor := by
  obtain ⟨came, after⟩ := perform_eq_read reads cursor
  rw [came, after, layout.perform_read inBounds]
  cases decoded : layout.decode cursor.rest with
  | error cause => simp [Cursor.deliver, eq_comm]
  | ok found => simp [Cursor.deliver]

/-- Under distinct names, reading a value passes over the encoding of the value. -/
theorem encode_of_read {cursor : Cursor} {step : Step} {layout : Layout} {value : Value}
    (inBounds : cursor.InBounds) (reads : step.layout? = some layout)
    (wellFormed : layout.WellFormed)
    (came : (perform step cursor).1.read? = some (.ok value)) :
    layout.encode value = .ok (cursor.passed (perform step cursor).2) := by
  have decoded := (read_eq_ok_iff inBounds reads).mp ⟨came, rfl⟩
  obtain ⟨_, bytes, specified, front⟩ :=
    (Layout.verdict_of_decode_eq decoded).restore wellFormed
  have stays : ∀ data, step ≠ .reset data := by
    rintro data rfl
    cases reads
  have passed := (moves_perform inBounds step).passed_append_rest
    (Reply.succeeded_eq_isOk came) stays
  rw [List.append_cancel_right (passed.trans front.symm)]
  exact specified.encode_eq

/-- At a cursor, the steps of a session answer as decoding the unread bytes does. -/
structure RefinesDecode (cursor : Cursor) : Prop where
  /-- What is read is what decoding yields, and what decoding leaves over is then unread. -/
  read_iff : ∀ step layout, step.layout? = some layout → ∀ value rest,
    (perform step cursor).1.read? = some (.ok value) ∧ (perform step cursor).2.rest = rest ↔
      layout.decode cursor.rest = .ok (value, rest)
  /-- What is refused is what decoding refuses, and the cursor is then where it was. -/
  refused_iff : ∀ step layout, step.layout? = some layout → ∀ error next,
    (perform step cursor).1.read? = some (.error error) ∧ (perform step cursor).2 = next ↔
      layout.decode cursor.rest = .error error ∧ next = cursor
  /-- No step that fails moves the cursor. -/
  unmoved : ∀ step, (perform step cursor).1.succeeded = false → (perform step cursor).2 = cursor
  /-- Under a validated layout, the bytes passed over are the encoding of the value read. -/
  restored : ∀ step layout, step.layout? = some layout → layout.validate = .ok () → ∀ value,
    (perform step cursor).1.read? = some (.ok value) →
      layout.encode value = .ok (cursor.passed (perform step cursor).2)

/-- Inside its data, a cursor answers as decoding the unread bytes does. -/
theorem refinesDecode_of_inBounds {cursor : Cursor} (inBounds : cursor.InBounds) :
    RefinesDecode cursor where
  read_iff := fun _ _ reads _ _ => read_eq_ok_iff inBounds reads
  refused_iff := fun _ _ reads _ _ => read_eq_error_iff inBounds reads
  unmoved := fun step failed => (moves_perform inBounds step).eq_of_failed failed
  restored := fun _ _ reads valid _ came =>
    encode_of_read inBounds reads (Layout.validate_eq_ok_iff.mp valid) came

/-- After any session a cursor answers as decoding its unread bytes does, and this is what the
session shows of its next step. Without a reset, the bytes that its successful steps passed
over and the unread bytes are together the data. -/
theorem refinesDecode_finish (data : List UInt8) (steps : List Step) :
    RefinesDecode (finish steps (Cursor.start data)) ∧
      (∀ step later, (run (steps ++ step :: later) (Cursor.start data))[steps.length]? =
        some ((perform step (finish steps (Cursor.start data))).1,
          (perform step (finish steps (Cursor.start data))).2.rest)) ∧
      ((∀ fresh, Step.reset fresh ∉ steps) →
        (consumed steps (Cursor.start data)).flatten ++ (finish steps (Cursor.start data)).rest =
          data) := by
  have inBounds := Cursor.inBounds_start data
  refine ⟨refinesDecode_of_inBounds (inBounds_finish inBounds steps), ?_, ?_⟩
  · intro step later
    exact getElem?_run steps step later (Cursor.start data)
  · intro stays
    rw [flatten_consumed_append_rest inBounds stays, Cursor.rest_start]

/-- Behind a byte that is passed over stands an order, and what was consumed and what is left give
the data back. -/
theorem refinesDecode_finish_skipped :
    Layout.orders.validate = .ok () ∧ Layout.orders.encode (.enum "Cancel" none) = .ok [0] ∧
      (∀ fresh, Step.reset fresh ∉ [Step.skip 1]) ∧
      (consumed [.skip 1] (Cursor.start [9, 0, 7])).flatten ++
        (finish [.skip 1] (Cursor.start [9, 0, 7])).rest = [9, 0, 7] := by
  obtain ⟨refines, _, restores⟩ := refinesDecode_finish [9, 0, 7] [.skip 1]
  have stays : ∀ fresh, Step.reset fresh ∉ [Step.skip 1] := by simp
  have cancel := refines.restored (.value Layout.orders) _ rfl rfl (.enum "Cancel" none) rfl
  exact ⟨rfl, cancel, stays, restores stays⟩

end Decoding

end FixedLayout
