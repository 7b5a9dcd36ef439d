import FixedLayout.Bytes.Output
import FixedLayout.Proofs.Bytes.Readings

/-!
# Sequences of words

Words of any widths are written one behind the other and read back by their types. Nothing
separates them, so where a word starts is the sum of the widths before it. Reading stops exactly
behind the last word, and in the other direction the words read are written back to the bytes
they were read from. `LittleEndian.digits` says which byte stands where inside a word.
-/

namespace FixedLayout

namespace FieldType

/-- The width of words of the given types one behind the other. -/
def totalWidth : List FieldType → Nat
  | [] => 0
  | type :: types => type.width + totalWidth types

@[simp] theorem totalWidth_nil : totalWidth [] = 0 := rfl

@[simp] theorem totalWidth_cons (type : FieldType) (types : List FieldType) :
    totalWidth (type :: types) = type.width + totalWidth types := rfl

end FieldType

namespace Word

/-- The bytes of words, one word behind the other. -/
def sequence (words : List Word) : List UInt8 := words.flatMap bytes

@[simp] theorem sequence_nil : sequence [] = [] := rfl

@[simp] theorem sequence_cons (word : Word) (words : List Word) :
    sequence (word :: words) = word.bytes ++ sequence words := rfl

/-- The bytes of two sequences stand one behind the other. -/
@[simp] theorem sequence_append (front back : List Word) :
    sequence (front ++ back) = sequence front ++ sequence back :=
  List.flatMap_append

/-- A sequence takes the bytes of all its words. -/
@[simp] theorem length_sequence (words : List Word) :
    (sequence words).length = FieldType.totalWidth (words.map type) := by
  induction words with
  | nil => rfl
  | cons word words inductionHypothesis => simp [inductionHypothesis]

/-- The bytes of a word are the digits of its value to the base 256, lowest place first. -/
theorem getElem?_bytes (word : Word) {place : Nat} (inside : place < word.type.width) :
    word.bytes[place]? = some (UInt8.ofNat (word.value / 256 ^ place % 256)) := by
  rw [bytes, LittleEndian.encode_eq_digits, LittleEndian.digits, List.getElem?_map,
    List.getElem?_range inside, Option.map_some]

/-- In a sequence a word starts behind the widths of the words before it. -/
theorem getElem?_sequence (earlier later : List Word) (word : Word) {place : Nat}
    (inside : place < word.type.width) :
    (sequence (earlier ++ word :: later))[FieldType.totalWidth (earlier.map type) + place]? =
      some (UInt8.ofNat (word.value / 256 ^ place % 256)) := by
  have here : place < word.bytes.length := by rwa [length_bytes]
  rw [sequence_append, sequence_cons, ← length_sequence,
    List.getElem?_append_right (Nat.le_add_right _ _), Nat.add_sub_cancel_left,
    List.getElem?_append_left here, word.getElem?_bytes inside]

end Word

/-- Writes words one behind the other. -/
def Output.putWords (output : Output) (words : List Word) : Output := words.foldl putWord output

/-- Written words stand behind what was written before. -/
theorem Output.bytes_putWords (output : Output) (words : List Word) :
    (output.putWords words).bytes = output.bytes ++ Word.sequence words := by
  induction words generalizing output with
  | nil => exact (List.append_nil _).symm
  | cons word words inductionHypothesis =>
      rw [putWords, List.foldl_cons, ← putWords, inductionHypothesis, Word.sequence_cons,
        ← List.append_assoc]
      rfl

namespace Cursor

/-- Reads words of the given types one behind the other. -/
def words (types : List FieldType) : Reading EndOfInput (List Word) := types.mapM word

/-- A first word that remains is read, and then the others are. -/
theorem perform_words_cons {type : FieldType} {types : List FieldType} {cursor after : Cursor}
    {others : List Word} (enough : type.width ≤ cursor.remaining)
    (succeeded : (words types).perform (cursor.advance type.width) = (.ok others, after)) :
    (words (type :: types)).perform cursor =
      (.ok (Word.ofBytes type cursor.rest :: others), after) := by
  rw [words] at succeeded ⊢
  rw [List.mapM_cons, Reading.perform_bind_ok (perform_word_of_le enough),
    Reading.perform_bind_ok succeeded, Reading.perform_pure]

/-- Words that stand in front of the unread bytes are read by their types. -/
theorem perform_words_of_sequence {expected : List Word} {behind : List UInt8} {cursor : Cursor}
    (inBounds : cursor.InBounds) (unread : cursor.rest = Word.sequence expected ++ behind) :
    (words (expected.map Word.type)).perform cursor =
      (.ok expected, cursor.advance (FieldType.totalWidth (expected.map Word.type))) := by
  induction expected generalizing cursor with
  | nil => rfl
  | cons first others inductionHypothesis =>
      rw [Word.sequence_cons, List.append_assoc] at unread
      have enough : first.type.width ≤ cursor.remaining := by
        rw [← inBounds.length_rest, unread, List.length_append, Word.length_bytes]
        exact Nat.le_add_right _ _
      have next : (cursor.advance first.type.width).rest = Word.sequence others ++ behind := by
        rw [rest_advance, unread, List.drop_left' first.length_bytes]
      rw [List.map_cons, perform_words_cons enough
        (inductionHypothesis (inBounds.advance enough) next), unread, Word.ofBytes_bytes,
        advance_advance, FieldType.totalWidth_cons]

/-- Words whose bytes all remain are read, and stand for the bytes passed over. -/
theorem exists_perform_words {types : List FieldType} {cursor : Cursor}
    (inBounds : cursor.InBounds) (enough : FieldType.totalWidth types ≤ cursor.remaining) :
    ∃ found, (words types).perform cursor =
        (.ok found, cursor.advance (FieldType.totalWidth types)) ∧
      found.map Word.type = types ∧
      Word.sequence found = cursor.rest.take (FieldType.totalWidth types) := by
  induction types generalizing cursor with
  | nil => exact ⟨[], rfl, rfl, rfl⟩
  | cons type types inductionHypothesis =>
      rw [FieldType.totalWidth_cons] at enough ⊢
      have first : type.width ≤ cursor.remaining := by omega
      have others : FieldType.totalWidth types ≤ (cursor.advance type.width).remaining := by
        rw [remaining_advance]
        omega
      obtain ⟨found, read, typed, stands⟩ := inductionHypothesis (inBounds.advance first) others
      have present : type.width ≤ cursor.rest.length := by rwa [inBounds.length_rest]
      refine ⟨Word.ofBytes type cursor.rest :: found, ?read, ?typed, ?stands⟩
      case read => rw [perform_words_cons first read, advance_advance]
      case typed => rw [List.map_cons, Word.type_ofBytes, typed]
      case stands =>
        rw [Word.sequence_cons, Word.bytes_ofBytes present, stands, rest_advance, List.take_add]

end Cursor

/-- Writing sequences of words and reading them are inverse. -/
structure InverseOnSequences : Prop where
  /-- Words written in order, and any bytes behind them, are read back by the types of the words,
  and the bytes behind them are left. -/
  restored : ∀ (words : List Word) (behind : List UInt8), ∃ cursor,
    (Cursor.words (words.map Word.type)).perform
        (Cursor.start ((Output.empty.putWords words).putBytes behind).flush.1) =
      (.ok words, cursor) ∧ cursor.rest = behind
  /-- Bytes that are long enough for some types are read as words of these types, and writing the
  words restores exactly the bytes that were read. -/
  rewritten : ∀ (types : List FieldType) (data : List UInt8),
    FieldType.totalWidth types ≤ data.length → ∃ words cursor,
      (Cursor.words types).perform (Cursor.start data) = (.ok words, cursor) ∧
        words.map Word.type = types ∧ cursor.rest = data.drop (FieldType.totalWidth types) ∧
        (Output.empty.putWords words).flush.1 = data.take (FieldType.totalWidth types)
  /-- Each byte of a written word is a digit of its value to the base 256, lowest place first, and
  words stand one behind the other. -/
  digit : ∀ (earlier later : List Word) (word : Word) (place : Nat), place < word.type.width →
    ∃ byte, (Output.empty.putWords (earlier ++ word :: later)).flush.1[
        FieldType.totalWidth (earlier.map Word.type) + place]? = some byte ∧
      byte.toNat = word.value / 256 ^ place % 256

/-- Words of any widths in any order are restored, and so are the bytes of any widths. -/
theorem inverseOnSequences : InverseOnSequences := by
  refine ⟨?restored, ?rewritten, ?digit⟩
  case restored =>
    intro words behind
    have written : ((Output.empty.putWords words).putBytes behind).flush.1 =
        Word.sequence words ++ behind := by
      rw [Output.flush, Output.putBytes, Output.bytes_putWords]
      rfl
    rw [written]
    refine ⟨_, Cursor.perform_words_of_sequence (Cursor.inBounds_start _)
      (Cursor.rest_start _), ?_⟩
    rw [Cursor.rest_advance, Cursor.rest_start, List.drop_left' (Word.length_sequence words)]
  case rewritten =>
    intro types data enough
    obtain ⟨words, read, typed, stands⟩ :=
      Cursor.exists_perform_words (Cursor.inBounds_start data) enough
    refine ⟨words, _, read, typed, ?_, ?_⟩
    · rw [Cursor.rest_advance, Cursor.rest_start]
    · rw [Output.flush, Output.bytes_putWords, stands, Cursor.rest_start]
      rfl
  case digit =>
    intro earlier later word place inside
    refine ⟨_, ?_, UInt8.toNat_ofNat_of_lt' (Nat.mod_lt _ (by decide))⟩
    rw [Output.flush, Output.bytes_putWords]
    exact Word.getElem?_sequence earlier later word inside

-- The low byte of the second word stands behind both bytes of the first one.
example :
    (Output.empty.putWords [⟨.u16, 513, by decide⟩, ⟨.u32, 5, by decide⟩]).flush.1 =
      [1, 2, 5, 0, 0, 0] := rfl

end FixedLayout
