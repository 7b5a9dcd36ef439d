import FixedLayout.Json.Basic
import FixedLayout.Json.Token

/-!
# Parsing

Tokens fill an outline from the left. An outline records every element and member
that is complete and the place that the next token has to fill, so at a fault it
still tells what had been read before. Brackets nest at most 127 deep.
-/

namespace FixedLayout.Json

/-- The place of a value inside a container: after some elements of an array, or
under a key after some members of an object. -/
inductive Place where
  | element (before : List Json)
  | member (before : List (String × Json)) (key : String)

/-- What has been read of a text. The path lists the open containers around the
place, innermost first. -/
inductive Outline where
  | finished (tree : Json)
  | beforeValue (path : List Place)
  | afterOpenArray (path : List Place)
  | afterElement (before : List Json) (path : List Place)
  | afterOpenObject (path : List Place)
  | beforeKey (before : List (String × Json)) (path : List Place)
  | afterKey (before : List (String × Json)) (key : String) (path : List Place)
  | afterMember (before : List (String × Json)) (path : List Place)

namespace Outline

/-- The deepest nesting of brackets. -/
def greatestDepth : Nat := 127

/-- Fills the innermost place with a complete value. -/
def put : List Place → Json → Outline
  | [], value => .finished value
  | .element before :: path, value => .afterElement (before ++ [value]) path
  | .member before key :: path, value => .afterMember (before ++ [(key, value)]) path

/-- Fills the innermost place with the first token of a value. -/
def startValue (path : List Place) : Token → Option Outline
  | .null => some (put path .null)
  | .bool value => some (put path (.bool value))
  | .number value => some (put path (.number value))
  | .string value => some (put path (.string value))
  | .openArray => if path.length < greatestDepth then some (.afterOpenArray path) else none
  | .openObject => if path.length < greatestDepth then some (.afterOpenObject path) else none
  | _ => none

/-- The outline after one more token, unless the token cannot stand there. -/
def step : Outline → Token → Option Outline
  | .beforeValue path, token => startValue path token
  | .afterOpenArray path, .closeArray => some (put path (.array []))
  | .afterOpenArray path, token => startValue (.element [] :: path) token
  | .afterElement before path, .comma => some (.beforeValue (.element before :: path))
  | .afterElement before path, .closeArray => some (put path (.array before))
  | .afterOpenObject path, .string key => some (.afterKey [] key path)
  | .afterOpenObject path, .closeObject => some (put path (.object []))
  | .beforeKey before path, .string key => some (.afterKey before key path)
  | .afterKey before key path, .colon => some (.beforeValue (.member before key :: path))
  | .afterMember before path, .comma => some (.beforeKey before path)
  | .afterMember before path, .closeObject => some (put path (.object before))
  | _, _ => none

/-- The outline after some tokens; the outline before the first token that cannot
stand where it does, if there is one. -/
def fill : Outline → List Token → Except Outline Outline
  | outline, [] => .ok outline
  | outline, token :: tokens =>
      match step outline token with
      | some next => fill next tokens
      | none => .error outline

end Outline

/-- The tree of a text, or what had been read before the fault. -/
def parse (text : String) : Except Outline Json :=
  match (Outline.beforeValue []).fill (Token.scan text.toList) with
  | .ok (.finished tree) => .ok tree
  | .ok outline => .error outline
  | .error outline => .error outline

end FixedLayout.Json
