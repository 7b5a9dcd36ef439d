import FixedLayout.Bytes.Cursor
import FixedLayout.Proofs.Attempts
import FixedLayout.Proofs.Bytes.Words

/-!
# Outcomes of readings

A composed reading stops at its first failure and keeps the cursor of that
failure. For each request of a cursor there is one equation that gives its
outcome and the cursor it leaves, for every cursor. Two quantities follow a
cursor along: the unread bytes and their count, and they agree while the cursor
is inside its data.
-/

namespace FixedLayout

namespace Reading

variable {Failure Result Next : Type}

@[simp] theorem perform_pure (result : Result) (cursor : Cursor) :
    (pure result : Reading Failure Result).perform cursor = (.ok result, cursor) := rfl

/-- A sequence whose first part succeeds is its second part. -/
theorem perform_bind_ok {reading : Reading Failure Result} {next : Result → Reading Failure Next}
    {cursor after : Cursor} {result : Result}
    (succeeded : reading.perform cursor = (.ok result, after)) :
    (reading >>= next).perform cursor = (next result).perform after :=
  run_bind_of_ok succeeded

/-- A sequence whose first part fails has failed. -/
theorem perform_bind_error {reading : Reading Failure Result}
    {next : Result → Reading Failure Next} {cursor after : Cursor} {failure : Failure}
    (failed : reading.perform cursor = (.error failure, after)) :
    (reading >>= next).perform cursor = (.error failure, after) :=
  run_bind_of_error failed

end Reading

namespace Cursor

/-- A cursor is in bounds when its position is inside its window and the window
inside the data. -/
structure InBounds (cursor : Cursor) : Prop where
  position_le : cursor.position ≤ cursor.limit
  limit_le : cursor.limit ≤ cursor.data.length

/-- A cursor over all of some data is in bounds. -/
theorem inBounds_start (data : List UInt8) : (start data).InBounds where
  position_le := Nat.zero_le _
  limit_le := Nat.le_refl _

/-- In front of the data all of it is unread. -/
@[simp] theorem rest_start (data : List UInt8) : (start data).rest = data := by
  simp [start, rest]

/-- In front of the data all of its bytes remain. -/
@[simp] theorem remaining_start (data : List UInt8) : (start data).remaining = data.length := rfl

/-- Two moves are one move over both counts. -/
@[simp] theorem advance_advance (cursor : Cursor) (first second : Nat) :
    (cursor.advance first).advance second = cursor.advance (first + second) := by
  simp [advance, Nat.add_assoc]

/-- A move leaves what is behind the bytes that it passes. -/
@[simp] theorem rest_advance (cursor : Cursor) (count : Nat) :
    (cursor.advance count).rest = cursor.rest.drop count := by
  simp [advance, rest, List.drop_drop]

/-- A move takes its count from the bytes that remain. -/
@[simp] theorem remaining_advance (cursor : Cursor) (count : Nat) :
    (cursor.advance count).remaining = cursor.remaining - count := by
  simp [advance, remaining, Nat.sub_add_eq]

/-- A cursor that moves no further than its window stays inside. -/
theorem InBounds.advance {cursor : Cursor} {count : Nat} (inBounds : cursor.InBounds)
    (enough : count ≤ cursor.remaining) : (cursor.advance count).InBounds where
  position_le := by
    have inside := inBounds.position_le
    rw [remaining] at enough
    simp only [Cursor.advance]
    omega
  limit_le := inBounds.limit_le

/-- Inside the data, the count of unread bytes is the length of the unread bytes. -/
theorem InBounds.length_rest {cursor : Cursor} (inBounds : cursor.InBounds) :
    cursor.rest.length = cursor.remaining := by
  have limited : min cursor.limit cursor.data.length = cursor.limit :=
    Nat.min_eq_left inBounds.limit_le
  simp [rest, remaining, limited]

/-- A window is brought inside its data. -/
theorem inBounds_window (data : List UInt8) (position limit : Nat) :
    (window data position limit).InBounds where
  position_le := Nat.min_le_right _ _
  limit_le := Nat.min_le_right _ _

/-- The cursor over just the next bytes. -/
def part (cursor : Cursor) (count : Nat) : Cursor :=
  window cursor.data cursor.position (cursor.position + count)

/-- A part that is cut off is in bounds, whatever the count. -/
theorem inBounds_part (cursor : Cursor) (count : Nat) : (cursor.part count).InBounds :=
  inBounds_window _ _ _

/-- Inside a window nothing is clamped when a part is cut off. -/
theorem InBounds.part_eq {cursor : Cursor} {count : Nat} (inBounds : cursor.InBounds)
    (enough : count ≤ cursor.remaining) :
    cursor.part count = ⟨cursor.data, cursor.position, cursor.position + count⟩ := by
  have inside := inBounds.position_le
  have limited := inBounds.limit_le
  rw [remaining] at enough
  have stop : min (cursor.position + count) cursor.data.length = cursor.position + count :=
    Nat.min_eq_left (by omega)
  simp [part, window, stop]

/-- The unread bytes of a part are the next bytes. -/
theorem InBounds.rest_part {cursor : Cursor} {count : Nat} (inBounds : cursor.InBounds)
    (enough : count ≤ cursor.remaining) : (cursor.part count).rest = cursor.rest.take count := by
  rw [inBounds.part_eq enough]
  rw [remaining] at enough
  have stop : min count (cursor.limit - cursor.position) = count := Nat.min_eq_left enough
  simp [rest, List.drop_take, List.take_take, stop]

/-- Looking at the cursor succeeds and leaves it as it is. -/
theorem perform_get (cursor : Cursor) :
    (get : Reading EndOfInput Cursor).perform cursor = (.ok cursor, cursor) := rfl

/-- Making sure of bytes compares two counts and moves nothing. -/
theorem perform_ensure (needed : Nat) (cursor : Cursor) :
    (ensure needed).perform cursor =
      if needed ≤ cursor.remaining then (.ok (), cursor)
      else (.error ⟨needed, cursor.remaining⟩, cursor) := by
  rw [ensure, Reading.perform_bind_ok (perform_get cursor)]
  split <;> rfl

/-- Enough unread bytes are made sure of. -/
theorem perform_ensure_of_le {needed : Nat} {cursor : Cursor}
    (enough : needed ≤ cursor.remaining) : (ensure needed).perform cursor = (.ok (), cursor) := by
  rw [perform_ensure, if_pos enough]

/-- Too few unread bytes are refused with both counts. -/
theorem perform_ensure_of_lt {needed : Nat} {cursor : Cursor} (short : cursor.remaining < needed) :
    (ensure needed).perform cursor = (.error ⟨needed, cursor.remaining⟩, cursor) := by
  rw [perform_ensure, if_neg (Nat.not_le_of_lt short)]

/-- Bytes are made sure of exactly if they are there, and the cursor stays where it is. -/
theorem perform_ensure_eq_ok_iff {needed : Nat} {cursor after : Cursor} :
    (ensure needed).perform cursor = (.ok (), after) ↔
      needed ≤ cursor.remaining ∧ cursor = after := by
  rw [perform_ensure]
  by_cases enough : needed ≤ cursor.remaining
  · simp [enough]
  · simp [enough]

/-- Unread bytes are passed over. -/
theorem perform_skip_of_le {count : Nat} {cursor : Cursor} (enough : count ≤ cursor.remaining) :
    (skip count).perform cursor = (.ok (), cursor.advance count) := by
  rw [skip, Reading.perform_bind_ok (perform_ensure_of_le enough)]
  rfl

/-- Where there are too few bytes, none is passed over. -/
theorem perform_skip_of_lt {count : Nat} {cursor : Cursor} (short : cursor.remaining < count) :
    (skip count).perform cursor = (.error ⟨count, cursor.remaining⟩, cursor) := by
  rw [skip, Reading.perform_bind_error (perform_ensure_of_lt short)]

/-- Unread bytes are taken off the front. -/
theorem perform_take_of_le {count : Nat} {cursor : Cursor} (enough : count ≤ cursor.remaining) :
    (take count).perform cursor = (.ok (cursor.rest.take count), cursor.advance count) := by
  rw [take, Reading.perform_bind_ok (perform_ensure_of_le enough)]
  rfl

/-- Where there are too few bytes, none is taken. -/
theorem perform_take_of_lt {count : Nat} {cursor : Cursor} (short : cursor.remaining < count) :
    (take count).perform cursor = (.error ⟨count, cursor.remaining⟩, cursor) := by
  rw [take, Reading.perform_bind_error (perform_ensure_of_lt short)]

/-- A word is read from the front of the unread bytes. -/
theorem perform_word_of_le {type : FieldType} {cursor : Cursor}
    (enough : type.width ≤ cursor.remaining) :
    (word type).perform cursor =
      (.ok (Word.ofBytes type cursor.rest), cursor.advance type.width) := by
  rw [word, Reading.perform_bind_ok (perform_take_of_le enough), Reading.perform_pure,
    Word.ofBytes_take]

/-- A word that is cut short is not read in part. -/
theorem perform_word_of_lt {type : FieldType} {cursor : Cursor}
    (short : cursor.remaining < type.width) :
    (word type).perform cursor = (.error ⟨type.width, cursor.remaining⟩, cursor) := by
  rw [word, Reading.perform_bind_error (perform_take_of_lt short)]

/-- Unread bytes are cut off as a part of their own and passed over. -/
theorem perform_cut_of_le {count : Nat} {cursor : Cursor} (enough : count ≤ cursor.remaining) :
    (cut count).perform cursor = (.ok (cursor.part count), cursor.advance count) := by
  rw [cut, Reading.perform_bind_ok (perform_ensure_of_le enough)]
  rfl

/-- Where there are too few bytes, no part is cut off. -/
theorem perform_cut_of_lt {count : Nat} {cursor : Cursor} (short : cursor.remaining < count) :
    (cut count).perform cursor = (.error ⟨count, cursor.remaining⟩, cursor) := by
  rw [cut, Reading.perform_bind_error (perform_ensure_of_lt short)]

/-- The first unread byte is looked at and stays unread. -/
theorem perform_peek_cons {cursor : Cursor} {byte : UInt8} {bytes : List UInt8}
    (unread : cursor.rest = byte :: bytes) : peek.perform cursor = (.ok byte, cursor) := by
  rw [peek, Reading.perform_bind_ok (perform_get cursor), unread]
  rfl

/-- Where no byte is unread, looking at one is refused as one byte too few. -/
theorem perform_peek_nil {cursor : Cursor} (unread : cursor.rest = []) :
    peek.perform cursor = (.error ⟨1, cursor.remaining⟩, cursor) := by
  rw [peek, Reading.perform_bind_ok (perform_get cursor), unread]
  rfl

end Cursor

end FixedLayout
