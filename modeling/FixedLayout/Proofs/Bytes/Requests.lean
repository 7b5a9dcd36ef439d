import FixedLayout.Bytes.Session
import FixedLayout.Proofs.Bytes.Readings

/-!
# What a request does to a cursor

`Cursor.Answers` lists all that a request can come to: with too few unread bytes one and the
same refusal for every request, and otherwise the reply that it has for the unread bytes and
the distance that it moves. It holds of every request made inside the data, so what a session
keeps and what it shows can be read off it case by case, without opening a reading again.
-/

namespace FixedLayout.Cursor

namespace Request

/-- How many unread bytes a request asks for. -/
def needed : Request → Nat
  | .word type => type.width
  | .peek => 1
  | .ensure count | .skip count | .take count | .cut count _ => count
  | .size | .rest | .reset _ => 0

/-- How far a request that succeeds moves the cursor. -/
def distance : Request → Nat
  | .word type => type.width
  | .skip count | .take count | .cut count _ => count
  | .peek | .ensure _ | .size | .rest | .reset _ => 0

end Request

section Replies

variable {Result : Type} {present : Result → Reply} {reading : Reading EndOfInput Result}
  {cursor next : Cursor}

/-- A reading that succeeds is presented by its result. -/
theorem reply_of_ok {result : Result} (succeeded : reading.perform cursor = (.ok result, next)) :
    reply present reading cursor = (present result, next) := by
  simp only [reply, succeeded]

/-- A reading that fails is presented by its failure. -/
theorem reply_of_error {failure : EndOfInput}
    (failed : reading.perform cursor = (.error failure, next)) :
    reply present reading cursor = (.failed failure, next) := by
  simp only [reply, failed]

end Replies

/-- The reply of a request whose bytes are there. -/
inductive Grants (cursor : Cursor) : Request → Reply → Prop where
  | word {type : FieldType} :
      Grants cursor (.word type) (.number (Word.ofBytes type cursor.rest).value)
  | peek {byte : UInt8} {behind : List UInt8} (unread : cursor.rest = byte :: behind) :
      Grants cursor .peek (.number byte.toNat)
  | size : Grants cursor .size (.count cursor.remaining)
  | ensure {count : Nat} : Grants cursor (.ensure count) .done
  | skip {count : Nat} : Grants cursor (.skip count) .done
  | take {count : Nat} : Grants cursor (.take count) (.bytes (cursor.rest.take count))
  | rest : Grants cursor .rest (.bytes cursor.rest)
  | cut {count : Nat} {inner : List Request} :
      Grants cursor (.cut count inner) (.inner (answerAll inner (cursor.part count)))

/-- All that a request can come to at a cursor: the reply and the cursor after it. -/
inductive Answers (cursor : Cursor) : Request → Reply → Cursor → Prop where
  | refused {request : Request} (short : cursor.remaining < request.needed) :
      Answers cursor request (.failed ⟨request.needed, cursor.remaining⟩) cursor
  | granted {request : Request} {reply : Reply} (enough : request.needed ≤ cursor.remaining)
      (grants : Grants cursor request reply) :
      Answers cursor request reply (cursor.advance request.distance)
  | reset {data : List UInt8} : Answers cursor (.reset data) .done (start data)

/-- Over enough bytes a cut answers with all that its part answers, and moves behind the part. -/
theorem answer_cut_of_le {count : Nat} {cursor : Cursor} (enough : count ≤ cursor.remaining)
    (inner : List Request) :
    answer (.cut count inner) cursor =
      (.inner (answerAll inner (cursor.part count)), cursor.advance count) := by
  rw [answer, perform_cut_of_le enough]

/-- Over too few bytes a cut fails and asks its part nothing. -/
theorem answer_cut_of_lt {count : Nat} {cursor : Cursor} (short : cursor.remaining < count)
    (inner : List Request) :
    answer (.cut count inner) cursor = (.failed ⟨count, cursor.remaining⟩, cursor) := by
  rw [answer, perform_cut_of_lt short]

section Outcomes

variable {cursor : Cursor} (inBounds : cursor.InBounds) {request : Request}
include inBounds

/-- With too few unread bytes every request is refused in the same way. -/
theorem InBounds.answer_of_lt (short : cursor.remaining < request.needed) :
    answer request cursor = (.failed ⟨request.needed, cursor.remaining⟩, cursor) := by
  cases request with
  | word type => exact reply_of_error (perform_word_of_lt short)
  | peek =>
      have nothing : cursor.rest.length = 0 := by
        rw [inBounds.length_rest]
        exact Nat.lt_one_iff.mp short
      exact reply_of_error (perform_peek_nil (List.eq_nil_of_length_eq_zero nothing))
  | ensure count => exact reply_of_error (perform_ensure_of_lt short)
  | skip count => exact reply_of_error (perform_skip_of_lt short)
  | take count => exact reply_of_error (perform_take_of_lt short)
  | cut count inner => exact answer_cut_of_lt short inner
  | size => exact absurd short (Nat.not_lt_zero _)
  | rest => exact absurd short (Nat.not_lt_zero _)
  | reset data => exact absurd short (Nat.not_lt_zero _)

/-- With enough unread bytes every request has its reply. -/
theorem InBounds.answers_of_le (enough : request.needed ≤ cursor.remaining) :
    Answers cursor request (answer request cursor).1 (answer request cursor).2 := by
  cases request with
  | word type =>
      rw [answer, reply_of_ok (perform_word_of_le enough)]
      exact .granted enough .word
  | peek =>
      have something : 0 < cursor.rest.length := by
        rw [inBounds.length_rest]
        exact enough
      obtain ⟨byte, behind, unread⟩ := List.exists_cons_of_length_pos something
      rw [answer, reply_of_ok (perform_peek_cons unread)]
      exact .granted enough (.peek unread)
  | ensure count =>
      change count ≤ cursor.remaining at enough
      rw [answer, reply_of_ok (perform_ensure_of_le enough)]
      exact .granted enough .ensure
  | skip count =>
      change count ≤ cursor.remaining at enough
      rw [answer, reply_of_ok (perform_skip_of_le enough)]
      exact .granted enough .skip
  | take count =>
      change count ≤ cursor.remaining at enough
      rw [answer, reply_of_ok (perform_take_of_le enough)]
      exact .granted enough .take
  | cut count inner =>
      change count ≤ cursor.remaining at enough
      rw [answer_cut_of_le enough]
      exact .granted enough .cut
  | size => exact .granted enough .size
  | rest => exact .granted enough .rest
  | reset data => exact .reset

variable (request) in
/-- Inside the data every request comes to one of these. -/
theorem InBounds.answers_answer :
    Answers cursor request (answer request cursor).1 (answer request cursor).2 := by
  rcases Nat.lt_or_ge cursor.remaining request.needed with short | enough
  · rw [inBounds.answer_of_lt short]
    exact .refused short
  · exact inBounds.answers_of_le enough

end Outcomes

/-- No request moves a cursor over bytes that it has not asked for. -/
theorem Request.distance_le_needed (request : Request) : request.distance ≤ request.needed := by
  cases request <;> simp [distance, needed]

/-- What is granted is no failure. -/
theorem Grants.ne_failed {cursor : Cursor} {request : Request} {reply : Reply}
    (grants : Grants cursor request reply) (failure : EndOfInput) : reply ≠ .failed failure := by
  cases grants <;> exact nofun

section Effects

variable {cursor next : Cursor} {request : Request} {reply : Reply}
  (answers : Answers cursor request reply next)
include answers

/-- Whatever a request comes to, the cursor stays inside its data. -/
theorem Answers.inBounds (inBounds : cursor.InBounds) : next.InBounds := by
  cases answers with
  | refused => exact inBounds
  | granted enough => exact inBounds.advance (Nat.le_trans request.distance_le_needed enough)
  | reset => exact inBounds_start _

/-- A request is refused exactly when it asks for more than remains, it is told both counts,
and the cursor stays where it is. -/
theorem Answers.eq_failed_iff {failure : EndOfInput} :
    reply = .failed failure ↔
      cursor.remaining < request.needed ∧ failure = ⟨request.needed, cursor.remaining⟩ := by
  cases answers with
  | refused short => simp [short, eq_comm]
  | granted enough grants => simp [grants.ne_failed, Nat.not_lt_of_le enough]
  | reset => simp [Request.needed]

/-- A request that is refused leaves the cursor as it was. -/
theorem Answers.eq_of_short (short : cursor.remaining < request.needed) : next = cursor := by
  cases answers with
  | refused => rfl
  | granted enough => exact absurd short (Nat.not_lt_of_le enough)
  | reset => exact absurd short (Nat.not_lt_zero _)

/-- With enough unread bytes a request is granted, unless it turns to other data. -/
theorem Answers.grants (enough : request.needed ≤ cursor.remaining)
    (stays : ∀ data, request ≠ .reset data) : Grants cursor request reply := by
  cases answers with
  | refused short => exact absurd short (Nat.not_lt_of_le enough)
  | granted _ grants => exact grants
  | reset => exact absurd rfl (stays _)

/-- A request that is granted moves the cursor by its own distance, unless it turns to other
data. -/
theorem Answers.eq_advance (enough : request.needed ≤ cursor.remaining)
    (stays : ∀ data, request ≠ .reset data) : next = cursor.advance request.distance := by
  cases answers with
  | refused short => exact absurd short (Nat.not_lt_of_le enough)
  | granted => rfl
  | reset => exact absurd rfl (stays _)

end Effects

/-- No request leads out of bounds. -/
theorem InBounds.inBounds_answer {cursor : Cursor} (inBounds : cursor.InBounds)
    (request : Request) : (answer request cursor).2.InBounds :=
  (inBounds.answers_answer request).inBounds inBounds

end FixedLayout.Cursor
