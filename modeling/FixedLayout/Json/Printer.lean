import FixedLayout.Json.Basic
import FixedLayout.Json.Quoted

/-!
# JSON texts of trees

One printer serves both forms. The compact form has no blanks. The indented form
puts every element and member on a line of its own, two spaces deeper than the
bracket that holds it, and a space after every colon.
-/

namespace FixedLayout.Json

/-- How a tree is spaced: on one line, or over lines at a depth of nesting. -/
inductive Spacing where
  | compact
  | indented (depth : Nat)

namespace Spacing

/-- The spacing inside a bracket. -/
def deeper : Spacing → Spacing
  | compact => compact
  | indented depth => indented (depth + 1)

/-- The start of a new line. -/
def lineBreak : Spacing → List Char
  | compact => []
  | indented depth => '\n' :: List.replicate (2 * depth) ' '

/-- What stands between a key and its value. -/
def colon : Spacing → List Char
  | compact => [':']
  | indented _ => [':', ' ']

end Spacing

mutual

/-- The text of a tree. -/
def print (spacing : Spacing) : Json → List Char
  | .null => ['n', 'u', 'l', 'l']
  | .bool true => ['t', 'r', 'u', 'e']
  | .bool false => ['f', 'a', 'l', 's', 'e']
  | .number value => value.text.toList
  | .string value => Quoted.write value.toList
  | .array [] => ['[', ']']
  | .array (element :: elements) =>
      '[' :: spacing.deeper.lineBreak ++ print spacing.deeper element ++
        printElements spacing.deeper elements ++ spacing.lineBreak ++ [']']
  | .object [] => ['\x7b', '\x7d']
  | .object ((key, value) :: members) =>
      '\x7b' :: spacing.deeper.lineBreak ++ Quoted.write key.toList ++ spacing.colon ++
        print spacing.deeper value ++ printMembers spacing.deeper members ++
          spacing.lineBreak ++ ['\x7d']

/-- The texts of elements that follow another one. -/
def printElements (spacing : Spacing) : List Json → List Char
  | [] => []
  | element :: elements =>
      ',' :: spacing.lineBreak ++ print spacing element ++ printElements spacing elements

/-- The texts of members that follow another one. -/
def printMembers (spacing : Spacing) : List (String × Json) → List Char
  | [] => []
  | (key, value) :: members =>
      ',' :: spacing.lineBreak ++ Quoted.write key.toList ++ spacing.colon ++
        print spacing value ++ printMembers spacing members

end

/-- The text of a tree without blanks. -/
def compact (tree : Json) : String := String.ofList (print .compact tree)

/-- The text of a tree over indented lines. -/
def pretty (tree : Json) : String := String.ofList (print (.indented 0) tree)

end FixedLayout.Json
