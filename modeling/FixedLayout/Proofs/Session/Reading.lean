import FixedLayout.Proofs.Bytes.Guarded

/-!
# Reading sessions

`Cursor.Asks` follows a session to every request that it makes, of its own cursor and of the
parts cut off from it, to any depth. All of these cursors are inside their data, so each
request comes to one of the outcomes of `Cursor.Answers`, and no step that it takes on the
machine lacks a value.
-/

namespace FixedLayout.Cursor

/-- A session makes a request of a cursor, at its own level or inside a part. -/
inductive Asks : List Request → Cursor → Request → Cursor → Prop where
  | here {request : Request} {requests : List Request} {cursor : Cursor} :
      Asks (request :: requests) cursor request cursor
  | later {earlier request : Request} {requests : List Request} {cursor place : Cursor}
      (asks : Asks requests (answer earlier cursor).2 request place) :
      Asks (earlier :: requests) cursor request place
  | inside {count : Nat} {request : Request} {inner requests : List Request}
      {cursor part next place : Cursor}
      (cuts : (Cursor.cut count).perform cursor = (.ok part, next))
      (asks : Asks inner part request place) :
      Asks (.cut count inner :: requests) cursor request place

/-- The cursor that a cut returns is the part with the bytes that it passes over. -/
theorem eq_part_of_cut {count : Nat} {cursor part next : Cursor}
    (cuts : (Cursor.cut count).perform cursor = (.ok part, next)) :
    count ≤ cursor.remaining ∧ part = cursor.part count := by
  rcases Nat.lt_or_ge cursor.remaining count with short | enough
  · rw [perform_cut_of_lt short] at cuts
    cases cuts
  · rw [perform_cut_of_le enough] at cuts
    cases cuts
    exact ⟨enough, rfl⟩

/-- A session that starts inside its data makes all its requests inside their data. -/
theorem Asks.inBounds {requests : List Request} {cursor place : Cursor} {request : Request}
    (asks : Asks requests cursor request place) (inBounds : cursor.InBounds) :
    place.InBounds := by
  induction asks with
  | here => exact inBounds
  | later _ inductionHypothesis => exact inductionHypothesis (inBounds.inBounds_answer _)
  | inside cuts _ inductionHypothesis =>
      obtain ⟨_, rfl⟩ := eq_part_of_cut cuts
      exact inductionHypothesis (inBounds_part _ _)

/-- What a request comes to at a cursor, whichever request it is. -/
structure Obeys (request : Request) (cursor : Cursor) : Prop where
  /-- The request is made inside the data. -/
  before : cursor.InBounds
  /-- It leaves the cursor inside its data. -/
  after : (answer request cursor).2.InBounds
  /-- It fails exactly when it asks for more than remains, and reports both counts. -/
  failed_iff : ∀ failure, (answer request cursor).1 = .failed failure ↔
    cursor.remaining < request.needed ∧ failure = ⟨request.needed, cursor.remaining⟩
  /-- When it fails, the cursor stays as it was. -/
  unchanged : cursor.remaining < request.needed → (answer request cursor).2 = cursor
  /-- When it succeeds, only the position moves, by the distance of the request; a reset
  alone turns to other data. -/
  moved : request.needed ≤ cursor.remaining → (∀ data, request ≠ .reset data) →
    (answer request cursor).2 = cursor.advance request.distance
  /-- No difference, sum, index or stretch of bytes that it takes on the way lacks a value. -/
  defined : answer? request cursor = some (answer request cursor)

/-- Inside the data every request behaves. -/
theorem InBounds.obeys {cursor : Cursor} (inBounds : cursor.InBounds) (request : Request) :
    Obeys request cursor :=
  have answers := inBounds.answers_answer request
  { before := inBounds
    after := answers.inBounds inBounds
    failed_iff := fun _ => answers.eq_failed_iff
    unchanged := answers.eq_of_short
    moved := answers.eq_advance
    defined := inBounds.answer?_eq request }

/-- A session that never leaves its data, at any depth. -/
structure ReadsSafely (requests : List Request) (cursor : Cursor) : Prop where
  /-- It starts inside the data. -/
  inBounds : cursor.InBounds
  /-- Every request of it behaves, at its own cursor and inside every part. -/
  obeys : ∀ request place, Asks requests cursor request place → Obeys request place
  /-- With guarded positions the session shows the same. -/
  defined : answerAll? requests cursor = some (answerAll requests cursor)

/-- From a cursor in bounds every session reads safely. -/
theorem InBounds.readsSafely {cursor : Cursor} (inBounds : cursor.InBounds)
    (requests : List Request) : ReadsSafely requests cursor where
  inBounds := inBounds
  obeys := fun request _ asks => (asks.inBounds inBounds).obeys request
  defined := inBounds.answerAll?_eq requests

/-- Every session on a window of any data, with whatever bounds it was asked for, and on the
data as a whole reads safely. -/
theorem readsSafely_window_and_start (data : List UInt8) (requests : List Request) :
    (∀ position limit, ReadsSafely requests (window data position limit)) ∧
      ReadsSafely requests (start data) :=
  ⟨fun position limit => (inBounds_window data position limit).readsSafely requests,
    (inBounds_start data).readsSafely requests⟩

/-- A part that has been read to its end is still asked, and refuses. -/
example : Asks [.cut 2 [.word .u16, .peek], .skip 1] (start [1, 2, 3]) .peek ⟨[1, 2, 3], 2, 2⟩ ∧
    answer .peek ⟨[1, 2, 3], 2, 2⟩ = (.failed ⟨1, 0⟩, ⟨[1, 2, 3], 2, 2⟩) :=
  ⟨.inside rfl (.later .here), rfl⟩

end FixedLayout.Cursor
