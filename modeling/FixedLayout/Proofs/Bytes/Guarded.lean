import FixedLayout.Proofs.Bytes.Requests

/-!
# Reading with guarded positions

On a machine a difference below zero, a position beyond the data, a stretch of bytes outside
of it or a copy of the wrong length ends the program. The guarded readings below are made of
such steps only, one for each that the readings of a cursor take, and yield nothing as soon
as one of them has no value. `Cursor.InBounds.answerAll?_eq` shows that inside the data this
never happens: a guarded session comes to an end and shows what the session shows.
-/

namespace FixedLayout

/-- A reading that yields nothing once one of its steps has no value. -/
abbrev GuardedReading (Result : Type) : Type := ExceptT EndOfInput (StateT Cursor Option) Result

namespace GuardedReading

section Sequences

variable {Result Next : Type}

/-- The outcome of a guarded reading and the cursor it leaves, unless a step had no value. -/
def perform (reading : GuardedReading Result) (cursor : Cursor) :
    Option (Except EndOfInput Result × Cursor) :=
  reading.run.run cursor

/-- A step of the machine. -/
def demand (value? : Option Result) : GuardedReading Result :=
  ExceptT.lift (StateT.lift value?)

/-- A result alone moves nothing. -/
theorem perform_pure (result : Result) (cursor : Cursor) :
    (pure result : GuardedReading Result).perform cursor = some (.ok result, cursor) := rfl

/-- Looking at the cursor moves nothing. -/
theorem perform_get (cursor : Cursor) :
    (get : GuardedReading Cursor).perform cursor = some (.ok cursor, cursor) := rfl

/-- A step of the machine that has a value yields it and moves nothing. -/
theorem perform_demand (result : Result) (cursor : Cursor) :
    (demand (some result)).perform cursor = some (.ok result, cursor) := rfl

/-- A sequence whose first part succeeds is its second part. -/
theorem perform_bind_ok {reading : GuardedReading Result} {next : Result → GuardedReading Next}
    {cursor after : Cursor} {result : Result}
    (succeeded : reading.perform cursor = some (.ok result, after)) :
    (reading >>= next).perform cursor = (next result).perform after := by
  change reading.run.run cursor = _ at succeeded
  rw [perform, ExceptT.run_bind, StateT.run_bind, succeeded]
  rfl

/-- A sequence whose first part fails has failed. -/
theorem perform_bind_error {reading : GuardedReading Result}
    {next : Result → GuardedReading Next} {cursor after : Cursor} {failure : EndOfInput}
    (failed : reading.perform cursor = some (.error failure, after)) :
    (reading >>= next).perform cursor = some (.error failure, after) := by
  change reading.run.run cursor = _ at failed
  rw [perform, ExceptT.run_bind, StateT.run_bind, failed]
  rfl

end Sequences

/-- How far two positions lie apart; none if they stand the wrong way round. -/
def between? (first last : Nat) : Option Nat := if first ≤ last then some (last - first) else none

/-- The position `count` bytes further on; none if it lies outside the data. The length of
the data is a number of the machine, so a position inside is one as well. -/
def onward? (cursor : Cursor) (count : Nat) : Option Nat :=
  if cursor.position + count ≤ cursor.data.length then some (cursor.position + count) else none

/-- The bytes between two positions; none unless both lie in order inside the data. -/
def stretch? (data : List UInt8) (first last : Nat) : Option (List UInt8) :=
  if first ≤ last ∧ last ≤ data.length then some ((data.take last).drop first) else none

/-- A copy of some bytes to as many places; none if there are more or fewer. -/
def copy? (places : Nat) (bytes : List UInt8) : Option (List UInt8) :=
  if bytes.length = places then some bytes else none

/-- How many bytes are unread. -/
def remaining : GuardedReading Nat := do
  let cursor ← get
  demand (between? cursor.position cursor.limit)

/-- Fails unless at least `needed` bytes remain. -/
def ensure (needed : Nat) : GuardedReading Unit := do
  let available ← remaining
  if available < needed then throw ⟨needed, available⟩ else pure ()

/-- The unread bytes. -/
def rest : GuardedReading (List UInt8) := do
  let cursor ← get
  demand (stretch? cursor.data cursor.position cursor.limit)

/-- The byte at the cursor. -/
def current : GuardedReading UInt8 := do
  let cursor ← get
  demand cursor.data[cursor.position]?

/-- Moves on by `count` bytes. -/
def move (count : Nat) : GuardedReading Unit := do
  let cursor ← get
  let position ← demand (onward? cursor count)
  set { cursor with position := position }

/-- The next byte, which stays unread. -/
def peek : GuardedReading UInt8 := do
  ensure 1
  current

/-- Passes over `count` bytes. -/
def skip (count : Nat) : GuardedReading Unit := do
  ensure count
  move count

/-- Reads the next `count` bytes. -/
def take (count : Nat) : GuardedReading (List UInt8) := do
  ensure count
  let cursor ← get
  let last ← demand (onward? cursor count)
  set { cursor with position := last }
  demand (stretch? cursor.data cursor.position last)

/-- Reads one byte. -/
def byte : GuardedReading Word := do
  ensure 1
  let byte ← current
  move 1
  pure (Word.ofUInt8 byte)

/-- Reads a word of several bytes through a copy of them. -/
def wideWord (type : FieldType) : GuardedReading Word := do
  let bytes ← take type.width
  let copied ← demand (copy? type.width bytes)
  pure (Word.ofBytes type copied)

/-- Reads one word of the given type. -/
def word : FieldType → GuardedReading Word
  | .u8 => byte
  | type => wideWord type

/-- Passes over `count` bytes and returns a cursor over just them. -/
def cut (count : Nat) : GuardedReading Cursor := do
  ensure count
  let cursor ← get
  let last ← demand (onward? cursor count)
  move count
  pure (Cursor.window cursor.data cursor.position last)

section Steps

variable {cursor : Cursor} (inBounds : cursor.InBounds) {count : Nat}
include inBounds

/-- A move over unread bytes ends inside the data, so the machine can make it. -/
theorem onward?_of_le (enough : count ≤ cursor.remaining) :
    onward? cursor count = some (cursor.position + count) := by
  have inside : cursor.position + count ≤ cursor.limit := (inBounds.advance enough).position_le
  rw [onward?, if_pos (Nat.le_trans inside inBounds.limit_le)]

/-- The next bytes lie in one stretch. -/
theorem stretch?_of_le (enough : count ≤ cursor.remaining) :
    stretch? cursor.data cursor.position (cursor.position + count) =
      some (cursor.rest.take count) := by
  have inside : cursor.position + count ≤ cursor.limit := (inBounds.advance enough).position_le
  rw [← inBounds.rest_part enough, inBounds.part_eq enough, stretch?,
    if_pos ⟨Nat.le_add_right _ _, Nat.le_trans inside inBounds.limit_le⟩, Cursor.rest]

/-- Inside its window a cursor counts its unread bytes without going below zero. -/
theorem perform_remaining : remaining.perform cursor = some (.ok cursor.remaining, cursor) := by
  rw [remaining, perform_bind_ok (perform_get cursor), between?, if_pos inBounds.position_le]
  rfl

/-- The unread bytes are a stretch of the data. -/
theorem perform_rest : rest.perform cursor = some (.ok cursor.rest, cursor) := by
  rw [rest, perform_bind_ok (perform_get cursor), stretch?,
    if_pos ⟨inBounds.position_le, inBounds.limit_le⟩]
  rfl

/-- Where a byte is unread, it is the byte at the cursor. -/
theorem exists_perform_current (something : 1 ≤ cursor.remaining) :
    ∃ byte behind, cursor.rest = byte :: behind ∧
      current.perform cursor = some (.ok byte, cursor) := by
  obtain ⟨byte, behind, unread⟩ :=
    List.exists_cons_of_length_pos (Nat.lt_of_lt_of_eq something inBounds.length_rest.symm)
  refine ⟨byte, behind, unread, ?_⟩
  have inside : cursor.position < cursor.limit := Nat.lt_of_sub_pos something
  have first : cursor.rest[0]? = some byte := by rw [unread]; rfl
  rw [Cursor.rest, List.getElem?_drop, Nat.add_zero, List.getElem?_take_of_lt inside] at first
  rw [current, perform_bind_ok (perform_get cursor), first, perform_demand]

/-- Enough unread bytes are made sure of, and nothing moves. -/
theorem perform_ensure_of_le (enough : count ≤ cursor.remaining) :
    (ensure count).perform cursor = some (.ok (), cursor) := by
  rw [ensure, perform_bind_ok (perform_remaining inBounds), if_neg (Nat.not_lt_of_le enough),
    perform_pure]

/-- Too few unread bytes are refused with both counts, and nothing moves. -/
theorem perform_ensure_of_lt (short : cursor.remaining < count) :
    (ensure count).perform cursor = some (.error ⟨count, cursor.remaining⟩, cursor) := by
  rw [ensure, perform_bind_ok (perform_remaining inBounds), if_pos short]
  rfl

/-- A move over unread bytes is made. -/
theorem perform_move_of_le (enough : count ≤ cursor.remaining) :
    (move count).perform cursor = some (.ok (), cursor.advance count) := by
  rw [move, perform_bind_ok (perform_get cursor), onward?_of_le inBounds enough]
  rfl

end Steps

/-- Inside the data a guarded reading never lacks a value, and comes to what the reading
comes to. -/
def Follows {Result : Type} (guarded : GuardedReading Result)
    (reading : Reading EndOfInput Result) : Prop :=
  ∀ cursor : Cursor, cursor.InBounds → guarded.perform cursor = some (reading.perform cursor)

/-- A guarded reading that first makes sure of some bytes follows one that refuses without
them, if it does so where they are there. -/
theorem follows_of_ensure {Result : Type} {count : Nat} {next : Unit → GuardedReading Result}
    {reading : Reading EndOfInput Result}
    (refuses : ∀ cursor : Cursor, cursor.InBounds → cursor.remaining < count →
      reading.perform cursor = (.error ⟨count, cursor.remaining⟩, cursor))
    (goesOn : ∀ cursor : Cursor, cursor.InBounds → count ≤ cursor.remaining →
      (next ()).perform cursor = some (reading.perform cursor)) :
    Follows (ensure count >>= next) reading := by
  intro cursor inBounds
  rcases Nat.lt_or_ge cursor.remaining count with short | enough
  · rw [refuses cursor inBounds short]
    exact perform_bind_error (perform_ensure_of_lt inBounds short)
  · rw [← goesOn cursor inBounds enough]
    exact perform_bind_ok (perform_ensure_of_le inBounds enough)

/-- With guarded positions bytes are made sure of as without them. -/
theorem follows_ensure (count : Nat) : Follows (ensure count) (Cursor.ensure count) := by
  intro cursor inBounds
  rcases Nat.lt_or_ge cursor.remaining count with short | enough
  · rw [perform_ensure_of_lt inBounds short, Cursor.perform_ensure_of_lt short]
  · rw [perform_ensure_of_le inBounds enough, Cursor.perform_ensure_of_le enough]

/-- The guarded look at the next byte finds one, since it was made sure of. -/
theorem follows_peek : Follows peek Cursor.peek := by
  refine follows_of_ensure ?refuses ?goesOn
  case refuses =>
    intro cursor inBounds short
    have nothing : cursor.rest.length = 0 := by
      rw [inBounds.length_rest]
      exact Nat.lt_one_iff.mp short
    exact Cursor.perform_peek_nil (List.eq_nil_of_length_eq_zero nothing)
  case goesOn =>
    intro cursor inBounds enough
    obtain ⟨byte, behind, unread, looked⟩ := exists_perform_current inBounds enough
    rw [looked, Cursor.perform_peek_cons unread]

/-- The guarded move passes over bytes that were made sure of. -/
theorem follows_skip (count : Nat) : Follows (skip count) (Cursor.skip count) := by
  refine follows_of_ensure (fun _ _ => Cursor.perform_skip_of_lt) ?goesOn
  intro cursor inBounds enough
  rw [Cursor.perform_skip_of_le enough, perform_move_of_le inBounds enough]

/-- The guarded stretch is one of bytes that were made sure of. -/
theorem follows_take (count : Nat) : Follows (take count) (Cursor.take count) := by
  refine follows_of_ensure (fun _ _ => Cursor.perform_take_of_lt) ?goesOn
  intro cursor inBounds enough
  rw [Cursor.perform_take_of_le enough, perform_bind_ok (perform_get cursor),
    onward?_of_le inBounds enough, perform_bind_ok (perform_demand _ cursor),
    stretch?_of_le inBounds enough]
  rfl

/-- The guarded window ends where the bytes end that were made sure of. -/
theorem follows_cut (count : Nat) : Follows (cut count) (Cursor.cut count) := by
  refine follows_of_ensure (fun _ _ => Cursor.perform_cut_of_lt) ?goesOn
  intro cursor inBounds enough
  rw [Cursor.perform_cut_of_le enough, perform_bind_ok (perform_get cursor),
    onward?_of_le inBounds enough, perform_bind_ok (perform_demand _ cursor),
    perform_bind_ok (perform_move_of_le inBounds enough)]
  rfl

/-- A guarded byte is read at the cursor, where one was made sure of. -/
theorem follows_byte : Follows byte (Cursor.word .u8) := by
  refine follows_of_ensure ?refuses ?goesOn
  case refuses =>
    intro cursor _ short
    exact Cursor.perform_word_of_lt short
  case goesOn =>
    intro cursor inBounds enough
    have read : (Cursor.word .u8).perform cursor = _ := Cursor.perform_word_of_le enough
    obtain ⟨byte, behind, unread, looked⟩ := exists_perform_current inBounds enough
    rw [read, unread, Word.ofBytes_u8_cons, perform_bind_ok looked,
      perform_bind_ok (perform_move_of_le inBounds enough), perform_pure]
    rfl

/-- A wider guarded word is copied from the stretch of its bytes. -/
theorem follows_wideWord (type : FieldType) : Follows (wideWord type) (Cursor.word type) := by
  intro cursor inBounds
  have taken := follows_take type.width cursor inBounds
  rcases Nat.lt_or_ge cursor.remaining type.width with short | enough
  · rw [Cursor.perform_take_of_lt short] at taken
    rw [Cursor.perform_word_of_lt short]
    exact perform_bind_error taken
  · rw [Cursor.perform_take_of_le enough] at taken
    have whole : (cursor.rest.take type.width).length = type.width :=
      List.length_take_of_le (inBounds.length_rest ▸ enough)
    rw [Cursor.perform_word_of_le enough, wideWord, perform_bind_ok taken, copy?, if_pos whole,
      perform_bind_ok (perform_demand _ _), perform_pure, Word.ofBytes_take]

/-- With guarded positions words of every type are read as without them. -/
theorem follows_word (type : FieldType) : Follows (word type) (Cursor.word type) := by
  cases type with
  | u8 => exact follows_byte
  | u16 => exact follows_wideWord .u16
  | u32 => exact follows_wideWord .u32
  | u64 => exact follows_wideWord .u64
  | u128 => exact follows_wideWord .u128

end GuardedReading

namespace Cursor

/-- The reply to a guarded reading and the cursor after it. -/
def reply? {Result : Type} (present : Result → Reply) (reading : GuardedReading Result)
    (cursor : Cursor) : Option (Reply × Cursor) :=
  match reading.perform cursor with
  | some (.ok result, next) => some (present result, next)
  | some (.error failure, next) => some (.failed failure, next)
  | none => none

mutual

/-- The reply to one request, with guarded positions. -/
def answer? : Request → Cursor → Option (Reply × Cursor)
  | .word type, cursor =>
      reply? (fun word => .number word.value) (GuardedReading.word type) cursor
  | .peek, cursor => reply? (fun byte => .number byte.toNat) GuardedReading.peek cursor
  | .size, cursor => reply? .count GuardedReading.remaining cursor
  | .ensure count, cursor => reply? (fun _ => .done) (GuardedReading.ensure count) cursor
  | .skip count, cursor => reply? (fun _ => .done) (GuardedReading.skip count) cursor
  | .take count, cursor => reply? .bytes (GuardedReading.take count) cursor
  | .rest, cursor => reply? .bytes GuardedReading.rest cursor
  | .cut count requests, cursor =>
      match (GuardedReading.cut count).perform cursor with
      | some (.ok part, next) =>
          (answerAll? requests part).map fun replies => (.inner replies, next)
      | some (.error failure, next) => some (.failed failure, next)
      | none => none
  | .reset data, _ => some (.done, start data)

/-- The replies to a session with guarded positions; nothing if one of its steps had no
value, at any depth. -/
def answerAll? : List Request → Cursor → Option (List (Reply × Nat × Nat))
  | [], _ => some []
  | request :: requests, cursor => do
      let (given, next) ← answer? request cursor
      let others ← answerAll? requests next
      some ((given, next.position, next.limit) :: others)

end

/-- What follows a reading gives its reply and leaves its cursor. -/
theorem InBounds.reply?_eq {Result : Type} {cursor : Cursor} (inBounds : cursor.InBounds)
    (present : Result → Reply) {guarded : GuardedReading Result}
    {reading : Reading EndOfInput Result} (follows : guarded.Follows reading) :
    reply? present guarded cursor = some (reply present reading cursor) := by
  rw [reply?, follows cursor inBounds, reply]
  rcases reading.perform cursor with ⟨_ | _, _⟩ <;> rfl

mutual

/-- Inside the data guarded positions do not change what a request comes to. -/
theorem InBounds.answer?_eq {cursor : Cursor} (inBounds : cursor.InBounds) :
    ∀ request, answer? request cursor = some (answer request cursor)
  | .word type => inBounds.reply?_eq _ (GuardedReading.follows_word type)
  | .peek => inBounds.reply?_eq _ GuardedReading.follows_peek
  | .size => by rw [answer?, reply?, GuardedReading.perform_remaining inBounds, answer]
  | .ensure count => inBounds.reply?_eq _ (GuardedReading.follows_ensure count)
  | .skip count => inBounds.reply?_eq _ (GuardedReading.follows_skip count)
  | .take count => inBounds.reply?_eq _ (GuardedReading.follows_take count)
  | .rest => by rw [answer?, reply?, GuardedReading.perform_rest inBounds, answer]
  | .cut count requests => by
      rw [answer?, GuardedReading.follows_cut count cursor inBounds]
      rcases Nat.lt_or_ge cursor.remaining count with short | enough
      · rw [answer_cut_of_lt short, perform_cut_of_lt short]
      · rw [answer_cut_of_le enough, perform_cut_of_le enough]
        change (answerAll? requests (cursor.part count)).map _ = _
        rw [(inBounds_part cursor count).answerAll?_eq requests, Option.map_some]
  | .reset data => rfl

/-- Inside the data a session with guarded positions comes to an end and shows what the
session shows. -/
theorem InBounds.answerAll?_eq {cursor : Cursor} (inBounds : cursor.InBounds) :
    ∀ requests, answerAll? requests cursor = some (answerAll requests cursor)
  | [] => rfl
  | request :: requests => by
      have after : (answer request cursor).2.InBounds := inBounds.inBounds_answer request
      rw [answerAll?, inBounds.answer?_eq request, answerAll]
      simp only [Option.bind_eq_bind, Option.bind_some, after.answerAll?_eq requests]

end

end Cursor

end FixedLayout
