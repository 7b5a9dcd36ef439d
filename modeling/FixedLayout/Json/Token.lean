import FixedLayout.Json.Literal
import FixedLayout.Json.Quoted

/-!
# JSON tokens

A text is cut into tokens from the left. Where no token can be read, the tokens
end with `broken`, so that those before the fault are still known.
-/

namespace FixedLayout.Json

/-- A lexical unit of a JSON text, or the place where none could be read. -/
inductive Token where
  | openArray
  | closeArray
  | openObject
  | closeObject
  | comma
  | colon
  | null
  | bool (value : Bool)
  | number (value : Number)
  | string (value : String)
  | broken
  deriving DecidableEq

namespace Token

/-- Whether a character may stand between tokens. -/
def isBlank (char : Char) : Bool :=
  char = ' ' || char = '\t' || char = '\n' || char = '\r'

/-- The number at the front of a text and what follows it. -/
def readNumber (text : List Char) : Option (Token × List Char) :=
  match Literal.scan text with
  | some (literal, rest) => literal.toNumber.map fun value => (.number value, rest)
  | none => none

/-- The token at the front of a text and what follows it. -/
def read : List Char → Option (Token × List Char)
  | '[' :: rest => some (.openArray, rest)
  | ']' :: rest => some (.closeArray, rest)
  | '\x7b' :: rest => some (.openObject, rest)
  | '\x7d' :: rest => some (.closeObject, rest)
  | ',' :: rest => some (.comma, rest)
  | ':' :: rest => some (.colon, rest)
  | 'n' :: 'u' :: 'l' :: 'l' :: rest => some (.null, rest)
  | 't' :: 'r' :: 'u' :: 'e' :: rest => some (.bool true, rest)
  | 'f' :: 'a' :: 'l' :: 's' :: 'e' :: rest => some (.bool false, rest)
  | '"' :: rest => (Quoted.read rest).map fun result => (.string (String.ofList result.1), result.2)
  | text => readNumber text

/-- A token takes at least one character off the text. -/
theorem length_lt_of_read {text rest : List Char} {token : Token}
    (success : read text = some (token, rest)) : rest.length < text.length := by
  unfold read at success
  split at success
  case h_10 tail =>
    simp only [Option.map_eq_some_iff, Prod.exists] at success
    obtain ⟨value, left, readString, equal⟩ := success
    cases equal
    have := Quoted.length_lt_of_read readString
    simp only [List.length_cons]
    omega
  case h_11 =>
    unfold readNumber at success
    split at success
    · next found =>
        simp only [Option.map_eq_some_iff] at success
        obtain ⟨number, _, equal⟩ := success
        cases equal
        exact Literal.length_lt_of_scan found
    · cases success
  all_goals
    cases success
    simp only [List.length_cons]
    omega

/-- The tokens of a text, up to the first place where none can be read. -/
def scan (text : List Char) : List Token :=
  match text with
  | [] => []
  | char :: text =>
      if isBlank char then scan text
      else
        match _ : read (char :: text) with
        | some (token, rest) => token :: scan rest
        | none => [.broken]
termination_by text.length
decreasing_by
  · simp
  · exact length_lt_of_read ‹_›

end Token

end FixedLayout.Json
