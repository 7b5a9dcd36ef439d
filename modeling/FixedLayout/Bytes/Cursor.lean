import FixedLayout.Word

/-!
# Cursors

A cursor reads bytes from a window of some data. Reading is a computation that
may fail and that carries the cursor along, so what a failed read does to the
cursor is visible: it is the cursor returned beside the failure.
-/

namespace FixedLayout

/-- A position inside a window of `data` that ends before `limit`. -/
structure Cursor where
  data : List UInt8
  position : Nat
  limit : Nat
  deriving DecidableEq

/-- A request for more bytes than remained in the window. -/
structure EndOfInput where
  needed : Nat
  available : Nat
  deriving DecidableEq

/-- The text that reports a request past the end. -/
def EndOfInput.message (failure : EndOfInput) : String :=
  "end of buffer: needed " ++ toString failure.needed ++ " bytes, " ++
    toString failure.available ++ " available"

/-- A computation that reads from a cursor and may fail; the cursor survives a failure. -/
abbrev Reading (Failure Result : Type) : Type := ExceptT Failure (StateM Cursor) Result

/-- The outcome of a reading and the cursor it leaves. -/
def Reading.perform {Failure Result : Type} (reading : Reading Failure Result) (cursor : Cursor) :
    Except Failure Result × Cursor :=
  reading.run.run cursor

namespace Cursor

/-- The cursor at the start of all of `data`. -/
def start (data : List UInt8) : Cursor := ⟨data, 0, data.length⟩

/-- The cursor over part of `data`; the limit is brought down to the length of
the data and the position to the limit. -/
def window (data : List UInt8) (position limit : Nat) : Cursor :=
  ⟨data, min position (min limit data.length), min limit data.length⟩

/-- How many bytes of the window are still unread. -/
def remaining (cursor : Cursor) : Nat := cursor.limit - cursor.position

/-- The unread bytes of the window. -/
def rest (cursor : Cursor) : List UInt8 := (cursor.data.take cursor.limit).drop cursor.position

/-- The cursor moved forward by `count` bytes. -/
def advance (cursor : Cursor) (count : Nat) : Cursor :=
  { cursor with position := cursor.position + count }

/-- Fails unless at least `needed` bytes remain. -/
def ensure (needed : Nat) : Reading EndOfInput Unit := do
  let cursor ← get
  if needed ≤ cursor.remaining then pure () else throw ⟨needed, cursor.remaining⟩

/-- The next byte, which stays unread. -/
def peek : Reading EndOfInput UInt8 := do
  let cursor ← get
  match cursor.rest with
  | byte :: _ => pure byte
  | [] => throw ⟨1, cursor.remaining⟩

/-- Passes over `count` bytes. -/
def skip (count : Nat) : Reading EndOfInput Unit := do
  ensure count
  modify fun cursor => cursor.advance count

/-- Reads the next `count` bytes. -/
def take (count : Nat) : Reading EndOfInput (List UInt8) := do
  ensure count
  let cursor ← get
  set (cursor.advance count)
  pure (cursor.rest.take count)

/-- Reads one word of the given type. -/
def word (type : FieldType) : Reading EndOfInput Word := do
  let bytes ← take type.width
  pure (Word.ofBytes type bytes)

/-- Passes over `count` bytes and returns a cursor over just them. -/
def cut (count : Nat) : Reading EndOfInput Cursor := do
  ensure count
  let cursor ← get
  set (cursor.advance count)
  pure (window cursor.data cursor.position (cursor.position + count))

end Cursor

end FixedLayout
