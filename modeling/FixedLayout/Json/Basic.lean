import FixedLayout.Json.Number

/-!
# JSON trees

A tree keeps the members of an object in the order of the text, repeated keys
included. Readers that want one value for each key settle the tree first: the
last value of a key counts and stands where the key stood first.
-/

namespace FixedLayout

/-- A JSON value. -/
inductive Json where
  | null
  | bool (value : Bool)
  | number (value : Json.Number)
  | string (value : String)
  | array (elements : List Json)
  | object (members : List (String × Json))

namespace Json

/-- A natural number below `2 ^ 64` as a number, a greater one as a string of its digits. -/
def ofNat (value : Nat) : Json :=
  if value < 2 ^ 64 then .number (.unsigned (UInt64.ofNat value)) else .string (toString value)

/-- Members with the value of a key replaced in place, or added at the end. -/
def putMember {Value : Type} (key : String) (value : Value) :
    List (String × Value) → List (String × Value)
  | [] => [(key, value)]
  | (other, old) :: members =>
      if other = key then (key, value) :: members else (other, old) :: putMember key value members

/-- Members with distinct keys: of a repeated key the last value, at the first place. -/
def settleMembers {Value : Type} (members : List (String × Value)) : List (String × Value) :=
  members.foldl (fun settled member => putMember member.1 member.2 settled) []

mutual

/-- The tree in which no object repeats a key. -/
def settle : Json → Json
  | .array elements => .array (settleElements elements)
  | .object members => .object (settleMembers (settleValues members))
  | .null => .null
  | .bool value => .bool value
  | .number value => .number value
  | .string value => .string value

/-- Settles every element. -/
def settleElements : List Json → List Json
  | [] => []
  | element :: elements => settle element :: settleElements elements

/-- Settles the value of every member. -/
def settleValues : List (String × Json) → List (String × Json)
  | [] => []
  | (key, value) :: members => (key, settle value) :: settleValues members

end

end Json

end FixedLayout
