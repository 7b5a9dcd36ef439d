import FixedLayout.Proofs.Session.Reading

/-!
# Windows and copies

A window of some data and a cursor over a copy of its bytes mirror each other: they have the
same unread bytes, and their positions and limits differ by where the window starts. Every
request that keeps to its data leaves them so and has the same reply from both, with the
positions of a part cut off moved on by the same offset. A session therefore cannot tell a
window from a copy, and a part is a window of its own.
-/

namespace FixedLayout.Cursor

mutual

/-- A reply whose positions and limits, at any depth, are moved on by an offset. -/
def Reply.shift (offset : Nat) : Reply → Reply
  | .inner replies => .inner (shiftAll offset replies)
  | .done => .done
  | .number value => .number value
  | .count value => .count value
  | .bytes value => .bytes value
  | .failed failure => .failed failure

/-- Replies whose positions and limits are moved on by an offset. -/
def shiftAll (offset : Nat) : List (Reply × Nat × Nat) → List (Reply × Nat × Nat)
  | [] => []
  | (reply, position, limit) :: replies =>
      (reply.shift offset, position + offset, limit + offset) :: shiftAll offset replies

end

mutual

/-- Neither the request nor a request inside it turns to other data. -/
def Request.KeepsToData : Request → Prop
  | .cut _ inner => KeepToData inner
  | .reset _ => False
  | .word _ | .peek | .size | .ensure _ | .skip _ | .take _ | .rest => True

/-- No request of a session, at any depth, turns to other data. -/
def KeepToData : List Request → Prop
  | [] => True
  | request :: requests => request.KeepsToData ∧ KeepToData requests

end

/-- What keeps to its data is no request for other data. -/
theorem Request.KeepsToData.ne_reset {request : Request} (keeps : request.KeepsToData)
    (data : List UInt8) : request ≠ .reset data := by
  rintro rfl
  exact keeps

/-- A session that keeps to its data asks nothing that does not. -/
theorem Asks.keepsToData {requests : List Request} {cursor place : Cursor} {request : Request}
    (asks : Asks requests cursor request place) (keep : KeepToData requests) :
    request.KeepsToData := by
  induction asks with
  | here => exact keep.1
  | later _ inductionHypothesis => exact inductionHypothesis keep.2
  | inside _ _ inductionHypothesis => exact inductionHypothesis keep.1

/-- Two cursors that show the same bytes at positions that differ by an offset. -/
structure Mirrors (offset : Nat) (cursor copy : Cursor) : Prop where
  inBounds : cursor.InBounds
  copyInBounds : copy.InBounds
  position_eq : cursor.position = copy.position + offset
  limit_eq : cursor.limit = copy.limit + offset
  rest_eq : cursor.rest = copy.rest

/-- A cursor and one over a copy of its unread bytes mirror each other. -/
theorem InBounds.mirrors_start {cursor : Cursor} (inBounds : cursor.InBounds) :
    Mirrors cursor.position cursor (start cursor.rest) where
  inBounds := inBounds
  copyInBounds := inBounds_start _
  position_eq := (Nat.zero_add _).symm
  limit_eq := by
    change _ = cursor.rest.length + _
    rw [inBounds.length_rest, remaining, Nat.sub_add_cancel inBounds.position_le]
  rest_eq := (rest_start _).symm

section Steps

variable {offset : Nat} {cursor copy : Cursor} (mirrors : Mirrors offset cursor copy)
include mirrors

/-- Cursors that mirror each other have as many bytes left. -/
theorem Mirrors.remaining_eq : cursor.remaining = copy.remaining := by
  rw [← mirrors.inBounds.length_rest, mirrors.rest_eq, mirrors.copyInBounds.length_rest]

/-- Cursors that mirror each other still do after a move over unread bytes. -/
theorem Mirrors.advance {count : Nat} (enough : count ≤ cursor.remaining) :
    Mirrors offset (cursor.advance count) (copy.advance count) where
  inBounds := mirrors.inBounds.advance enough
  copyInBounds := mirrors.copyInBounds.advance (mirrors.remaining_eq ▸ enough)
  position_eq := by
    simp only [Cursor.advance, mirrors.position_eq]
    omega
  limit_eq := mirrors.limit_eq
  rest_eq := by rw [rest_advance, rest_advance, mirrors.rest_eq]

/-- Cursors that mirror each other cut off parts that mirror each other. -/
theorem Mirrors.part {count : Nat} (enough : count ≤ cursor.remaining) :
    Mirrors offset (cursor.part count) (copy.part count) := by
  have copyEnough : count ≤ copy.remaining := mirrors.remaining_eq ▸ enough
  have part := mirrors.inBounds.part_eq enough
  have copied := mirrors.copyInBounds.part_eq copyEnough
  refine ⟨inBounds_part _ _, inBounds_part _ _, ?position, ?limit, ?rest⟩
  case position =>
    rw [part, copied]
    exact mirrors.position_eq
  case limit =>
    rw [part, copied]
    simp only [mirrors.position_eq]
    omega
  case rest =>
    rw [mirrors.inBounds.rest_part enough, mirrors.copyInBounds.rest_part copyEnough,
      mirrors.rest_eq]

/-- A request that keeps to its data leaves cursors that mirror each other mirroring. -/
theorem Mirrors.answer {request : Request} (keeps : request.KeepsToData) :
    Mirrors offset (answer request cursor).2 (answer request copy).2 := by
  have answers := mirrors.inBounds.answers_answer request
  have copied := mirrors.copyInBounds.answers_answer request
  rcases Nat.lt_or_ge cursor.remaining request.needed with short | enough
  · rw [answers.eq_of_short short, copied.eq_of_short (mirrors.remaining_eq ▸ short)]
    exact mirrors
  · rw [answers.eq_advance enough keeps.ne_reset,
      copied.eq_advance (mirrors.remaining_eq ▸ enough) keeps.ne_reset]
    exact mirrors.advance (Nat.le_trans request.distance_le_needed enough)

/-- A request that two mirroring cursors grant has the same reply from both, if the sessions
inside a part have. -/
theorem Mirrors.grants_eq {request : Request} {reply copied : Reply}
    (inside : ∀ count inner, request = .cut count inner →
      answerAll inner (cursor.part count) = shiftAll offset (answerAll inner (copy.part count)))
    (grants : Grants cursor request reply) (copyGrants : Grants copy request copied) :
    reply = copied.shift offset := by
  cases grants with
  | word =>
      cases copyGrants
      rw [mirrors.rest_eq, Reply.shift]
  | peek unread =>
      cases copyGrants with
      | peek copyUnread =>
          rw [mirrors.rest_eq, copyUnread] at unread
          cases unread
          rw [Reply.shift]
  | size =>
      cases copyGrants
      rw [mirrors.remaining_eq, Reply.shift]
  | ensure =>
      cases copyGrants
      rw [Reply.shift]
  | skip =>
      cases copyGrants
      rw [Reply.shift]
  | take =>
      cases copyGrants
      rw [mirrors.rest_eq, Reply.shift]
  | rest =>
      cases copyGrants
      rw [mirrors.rest_eq, Reply.shift]
  | cut =>
      cases copyGrants
      rw [inside _ _ rfl, Reply.shift]

/-- A request has the same reply from two mirroring cursors, if the sessions inside a part
have. -/
theorem Mirrors.reply_eq {request : Request} (keeps : request.KeepsToData)
    (inside : ∀ count inner, request = .cut count inner → count ≤ cursor.remaining →
      answerAll inner (cursor.part count) = shiftAll offset (answerAll inner (copy.part count))) :
    (Cursor.answer request cursor).1 = (Cursor.answer request copy).1.shift offset := by
  rcases Nat.lt_or_ge cursor.remaining request.needed with short | enough
  · rw [mirrors.inBounds.answer_of_lt short,
      mirrors.copyInBounds.answer_of_lt (mirrors.remaining_eq ▸ short), mirrors.remaining_eq,
      Reply.shift]
  · have grants := (mirrors.inBounds.answers_answer request).grants enough keeps.ne_reset
    have copyGrants := (mirrors.copyInBounds.answers_answer request).grants
      (mirrors.remaining_eq ▸ enough) keeps.ne_reset
    refine mirrors.grants_eq ?_ grants copyGrants
    rintro count inner rfl
    exact inside count inner rfl enough

end Steps

/-- A session that keeps to its data shows the same on two mirroring cursors. -/
theorem Mirrors.answerAll_eq {offset : Nat} {cursor copy : Cursor}
    (mirrors : Mirrors offset cursor copy) :
    ∀ {requests : List Request}, KeepToData requests →
      answerAll requests cursor = shiftAll offset (answerAll requests copy)
  | [], _ => rfl
  | request :: requests, ⟨keeps, keep⟩ => by
      have after := mirrors.answer keeps
      -- The part of the copy mirrors the part, so the session inside is a smaller case.
      have inside : ∀ count inner, request = .cut count inner → count ≤ cursor.remaining →
          answerAll inner (cursor.part count) =
            shiftAll offset (answerAll inner (copy.part count)) := by
        rintro count inner rfl enough
        exact (mirrors.part enough).answerAll_eq keeps
      rw [answerAll, answerAll, shiftAll]
      simp only [mirrors.reply_eq keeps inside, after.position_eq, after.limit_eq,
        after.answerAll_eq keep]

/-- A place in the same data, inside what is unread at a cursor. -/
structure Within (cursor place : Cursor) : Prop where
  data_eq : place.data = cursor.data
  position_le : cursor.position ≤ place.position
  limit_le : place.limit ≤ cursor.limit

/-- A cursor is within itself. -/
theorem Within.refl (cursor : Cursor) : Within cursor cursor where
  data_eq := rfl
  position_le := Nat.le_refl _
  limit_le := Nat.le_refl _

/-- A place within one that is within a cursor is within the cursor. -/
theorem Within.trans {cursor between place : Cursor} (outer : Within cursor between)
    (inner : Within between place) : Within cursor place where
  data_eq := inner.data_eq.trans outer.data_eq
  position_le := Nat.le_trans outer.position_le inner.position_le
  limit_le := Nat.le_trans inner.limit_le outer.limit_le

/-- A move stays within what was unread. -/
theorem within_advance (cursor : Cursor) (count : Nat) : Within cursor (cursor.advance count) where
  data_eq := rfl
  position_le := Nat.le_add_right _ _
  limit_le := Nat.le_refl _

/-- A part of the unread bytes is within them. -/
theorem InBounds.within_part {cursor : Cursor} {count : Nat} (inBounds : cursor.InBounds)
    (enough : count ≤ cursor.remaining) : Within cursor (cursor.part count) := by
  have stop := (inBounds.advance enough).position_le
  rw [inBounds.part_eq enough]
  exact ⟨rfl, Nat.le_refl _, stop⟩

/-- No request that keeps to the data leads out of what was unread. -/
theorem InBounds.within_answer {cursor : Cursor} {request : Request} (inBounds : cursor.InBounds)
    (keeps : request.KeepsToData) : Within cursor (answer request cursor).2 := by
  have answers := inBounds.answers_answer request
  rcases Nat.lt_or_ge cursor.remaining request.needed with short | enough
  · rw [answers.eq_of_short short]
    exact .refl cursor
  · rw [answers.eq_advance enough keeps.ne_reset]
    exact within_advance cursor _

/-- A session that keeps to its data makes no request, at any depth, outside of what was
unread when it started. -/
theorem Asks.within {requests : List Request} {cursor place : Cursor} {request : Request}
    (asks : Asks requests cursor request place) (inBounds : cursor.InBounds)
    (keep : KeepToData requests) : Within cursor place := by
  induction asks with
  | here => exact .refl _
  | later _ inductionHypothesis =>
      exact (inBounds.within_answer keep.1).trans
        (inductionHypothesis (inBounds.inBounds_answer _) keep.2)
  | inside cuts _ inductionHypothesis =>
      obtain ⟨enough, rfl⟩ := eq_part_of_cut cuts
      exact (inBounds.within_part enough).trans
        (inductionHypothesis (inBounds_part _ _) keep.1)

/-- Where a part can be cut off, its session shows what a cursor over a copy of the bytes
passed over shows, and the cut moves on behind them. -/
theorem InBounds.answer_cut_eq {cursor : Cursor} {count : Nat} {inner : List Request}
    (inBounds : cursor.InBounds) (enough : count ≤ cursor.remaining) (keep : KeepToData inner) :
    answer (.cut count inner) cursor =
      (.inner (shiftAll cursor.position (answerAll inner (start (cursor.rest.take count)))),
        cursor.advance count) := by
  have inside := inBounds_part cursor count
  have position : (cursor.part count).position = cursor.position := by
    rw [inBounds.part_eq enough]
  rw [answer_cut_of_le enough, inside.mirrors_start.answerAll_eq keep, position,
    inBounds.rest_part enough]

/-- A session that cannot tell a cursor from another over a copy of its unread bytes. -/
structure ReadsAsCopy (requests : List Request) (offset : Nat) (cursor copy : Cursor) : Prop where
  /-- The positions differ by the offset at the start. -/
  position_eq : cursor.position = copy.position + offset
  /-- So do the limits. -/
  limit_eq : cursor.limit = copy.limit + offset
  /-- The replies are the same one by one, with positions and limits that differ by it. -/
  answers_eq : answerAll requests cursor = shiftAll offset (answerAll requests copy)
  /-- A part that is cut off, at any depth, reads as a copy of the bytes that are passed over. -/
  parts : ∀ count inner place, Asks requests cursor (.cut count inner) place →
    count ≤ place.remaining →
      answer (.cut count inner) place =
        (.inner (shiftAll place.position (answerAll inner (start (place.rest.take count)))),
          place.advance count)
  /-- Nothing inside a part is read from outside of these bytes. -/
  confined : ∀ count inner place, Asks requests cursor (.cut count inner) place →
    count ≤ place.remaining → ∀ request inside, Asks inner (place.part count) request inside →
      inside.data = place.data ∧ place.position ≤ inside.position ∧
        inside.position ≤ inside.limit ∧ inside.limit ≤ place.position + count

/-- A session that keeps to its data reads a window of it, whatever the bounds it was asked
for, as a copy of the window. -/
theorem readsAsCopy_window (data : List UInt8) (position limit : Nat) {requests : List Request}
    (keep : KeepToData requests) :
    let last := min limit data.length
    let first := min position last
    ReadsAsCopy requests first (window data position limit)
      (start ((data.take last).drop first)) := by
  intro last first
  have inBounds : (window data position limit).InBounds := inBounds_window data position limit
  have mirrors : Mirrors first (window data position limit) (start ((data.take last).drop first)) :=
    inBounds.mirrors_start
  refine ⟨mirrors.position_eq, mirrors.limit_eq, mirrors.answerAll_eq keep, ?parts, ?confined⟩
  case parts =>
    intro count inner place asks enough
    exact (asks.inBounds inBounds).answer_cut_eq enough (asks.keepsToData keep)
  case confined =>
    intro count inner place asks enough request inside asksInside
    have placed := asks.inBounds inBounds
    have partInBounds := inBounds_part place count
    have within := asksInside.within partInBounds (asks.keepsToData keep)
    rw [placed.part_eq enough] at within
    exact ⟨within.data_eq, within.position_le, (asksInside.inBounds partInBounds).position_le,
      within.limit_le⟩

/-- A window that is asked to end beyond its data, with one part inside another. -/
theorem readsAsCopy_window_nested :
    KeepToData [.cut 4 [.peek, .cut 2 [.word .u16, .peek], .rest], .word .u64, .size] ∧
      ReadsAsCopy [.cut 4 [.peek, .cut 2 [.word .u16, .peek], .rest], .word .u64, .size] 2
        (window [1, 2, 3, 4, 5, 6, 7, 8, 9] 2 100) (start [3, 4, 5, 6, 7, 8, 9]) := by
  have keep : KeepToData [.cut 4 [.peek, .cut 2 [.word .u16, .peek], .rest], .word .u64, .size] := by
    simp [KeepToData, Request.KeepsToData]
  exact ⟨keep, readsAsCopy_window [1, 2, 3, 4, 5, 6, 7, 8, 9] 2 100 keep⟩

end FixedLayout.Cursor
