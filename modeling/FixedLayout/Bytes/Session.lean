import FixedLayout.Bytes.Cursor

/-!
# Reading sessions

A session is a list of requests made of one cursor, in order. A request may cut
off a window and carry a session of its own for it, to any depth.
-/

namespace FixedLayout.Cursor

/-- One request made of a cursor. -/
inductive Request where
  | word (type : FieldType)
  | peek
  | size
  | ensure (count : Nat)
  | skip (count : Nat)
  | take (count : Nat)
  | rest
  | cut (count : Nat) (inner : List Request)
  | reset (data : List UInt8)

/-- What a cursor answers to a request; after a cut, each answer of the inner
session stands with the position and the limit after it. -/
inductive Reply where
  | done
  | number (value : Nat)
  | count (value : Nat)
  | bytes (value : List UInt8)
  | inner (replies : List (Reply × Nat × Nat))
  | failed (failure : EndOfInput)

/-- The reply to a reading and the cursor after it. -/
def reply {Result : Type} (present : Result → Reply) (reading : Reading EndOfInput Result)
    (cursor : Cursor) : Reply × Cursor :=
  match reading.perform cursor with
  | (.ok result, next) => (present result, next)
  | (.error failure, next) => (.failed failure, next)

mutual

/-- The reply to one request and the cursor after it. -/
def answer : Request → Cursor → Reply × Cursor
  | .word type, cursor => reply (fun word => .number word.value) (Cursor.word type) cursor
  | .peek, cursor => reply (fun byte => .number byte.toNat) Cursor.peek cursor
  | .size, cursor => (.count cursor.remaining, cursor)
  | .ensure count, cursor => reply (fun _ => .done) (Cursor.ensure count) cursor
  | .skip count, cursor => reply (fun _ => .done) (Cursor.skip count) cursor
  | .take count, cursor => reply .bytes (Cursor.take count) cursor
  | .rest, cursor => (.bytes cursor.rest, cursor)
  | .cut count requests, cursor =>
      match (Cursor.cut count).perform cursor with
      | (.ok part, next) => (.inner (answerAll requests part), next)
      | (.error failure, next) => (.failed failure, next)
  | .reset data, _ => (.done, start data)

/-- The replies to a session, each with the position and the limit after it. -/
def answerAll : List Request → Cursor → List (Reply × Nat × Nat)
  | [], _ => []
  | request :: requests, cursor =>
      let (given, next) := answer request cursor
      (given, next.position, next.limit) :: answerAll requests next

end

end FixedLayout.Cursor
