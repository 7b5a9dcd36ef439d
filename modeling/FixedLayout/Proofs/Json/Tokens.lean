import FixedLayout.Json.Printer
import FixedLayout.Proofs.Json.Decimals
import FixedLayout.Proofs.Json.Quoting

/-!
# Printed trees are cut into their tokens

The tokens of a tree do not depend on how it is spaced. `Json.Plain.scan_print` says
that the text of a tree in either form is cut into exactly these tokens, in front of
any text that does not continue a number. It is stated for plain trees, whose numbers
are unsigned integers: other numbers may be printed as texts that denote a neighbour.
-/

namespace FixedLayout.Json

/-- A tree whose numbers are unsigned integers and whose brackets nest no deeper than
given. -/
inductive Plain : Nat → Json → Prop where
  | null {depth} : Plain depth .null
  | bool {depth value} : Plain depth (.bool value)
  | number {depth value} : Plain depth (.number (.unsigned value))
  | string {depth value} : Plain depth (.string value)
  | array {depth elements} (plain : ∀ element ∈ elements, Plain depth element) :
      Plain (depth + 1) (.array elements)
  | object {depth members} (plain : ∀ member ∈ members, Plain depth member.2) :
      Plain (depth + 1) (.object members)

mutual

/-- The tokens of a tree. -/
def tokens : Json → List Token
  | .null => [.null]
  | .bool value => [.bool value]
  | .number value => [.number value]
  | .string value => [.string value]
  | .array [] => [.openArray, .closeArray]
  | .array (element :: elements) =>
      .openArray :: tokens element ++ elementTokens elements ++ [.closeArray]
  | .object [] => [.openObject, .closeObject]
  | .object ((key, value) :: members) =>
      .openObject :: .string key :: .colon :: tokens value ++ memberTokens members ++
        [.closeObject]

/-- The tokens of elements that follow another one. -/
def elementTokens : List Json → List Token
  | [] => []
  | element :: elements => .comma :: tokens element ++ elementTokens elements

/-- The tokens of members that follow another one. -/
def memberTokens : List (String × Json) → List Token
  | [] => []
  | (key, value) :: members =>
      .comma :: .string key :: .colon :: tokens value ++ memberTokens members

end

namespace Token

/-- No token starts with a blank. -/
theorem read_of_isBlank {char : Char} (text : List Char) (blank : isBlank char = true) :
    read (char :: text) = none := by
  simp only [isBlank, Bool.or_eq_true, decide_eq_true_eq] at blank
  obtain ((rfl | rfl) | rfl) | rfl := blank <;> rfl

/-- The tokens of a text are its first token and those of what follows it. -/
theorem scan_of_read {text rest : List Char} {token : Token}
    (success : read text = some (token, rest)) : scan text = token :: scan rest := by
  cases text with
  | nil => cases success
  | cons char text =>
      have solid : ¬ isBlank char = true := by
        intro blank
        rw [read_of_isBlank text blank] at success
        cases success
      rw [scan, if_neg solid]
      split
      · next found =>
          cases success.symm.trans found
          rfl
      · next failed => cases success.symm.trans failed

/-- A comma is a token. -/
theorem scan_comma (text : List Char) : scan (',' :: text) = .comma :: scan text :=
  scan_of_read rfl

/-- The bracket that opens an array is a token. -/
theorem scan_openArray (text : List Char) : scan ('[' :: text) = .openArray :: scan text :=
  scan_of_read rfl

/-- The bracket that closes an array is a token. -/
theorem scan_closeArray (text : List Char) : scan (']' :: text) = .closeArray :: scan text :=
  scan_of_read rfl

/-- The brace that opens an object is a token. -/
theorem scan_openObject (text : List Char) : scan ('\x7b' :: text) = .openObject :: scan text :=
  scan_of_read rfl

/-- The brace that closes an object is a token. -/
theorem scan_closeObject (text : List Char) : scan ('\x7d' :: text) = .closeObject :: scan text :=
  scan_of_read rfl

/-- The colon behind a key is a token. -/
theorem scan_colonMark (text : List Char) : scan (':' :: text) = .colon :: scan text :=
  scan_of_read rfl

/-- A blank between tokens is passed over. -/
theorem scan_of_isBlank {char : Char} (text : List Char) (blank : isBlank char = true) :
    scan (char :: text) = scan text := by
  rw [scan, if_pos blank]

/-- The start of a line leaves no token. -/
theorem scan_lineBreak (spacing : Spacing) (text : List Char) :
    scan (spacing.lineBreak ++ text) = scan text := by
  cases spacing with
  | compact => rfl
  | indented depth =>
      rw [Spacing.lineBreak, List.cons_append, scan_of_isBlank _ rfl]
      induction 2 * depth with
      | zero => rfl
      | succ count inductionHypothesis =>
          rw [List.replicate_succ, List.cons_append, scan_of_isBlank _ rfl, inductionHypothesis]

/-- A colon is scanned with the blank that a spacing puts behind it. -/
theorem scan_colon (spacing : Spacing) (text : List Char) :
    scan (spacing.colon ++ text) = .colon :: scan text := by
  cases spacing with
  | compact => exact scan_colonMark text
  | indented depth =>
      change scan (':' :: ' ' :: text) = _
      rw [scan_colonMark, scan_of_isBlank _ rfl]

/-- A written string is one token. -/
theorem scan_write (value : String) (rest : List Char) :
    scan (Quoted.write value.toList ++ rest) = .string value :: scan rest := by
  apply scan_of_read
  have quoted := Quoted.read_flatMap_writeChar value.toList rest
  rw [Quoted.write, List.cons_append, List.cons_append, List.append_assoc]
  simp only [read, List.singleton_append, quoted, Option.map_some, String.ofList_toList]

end Token

open Token hiding scan
open Literal (Delimits)

/-- What follows a value on a new line does not continue a number. -/
theorem delimits_lineBreak (spacing : Spacing) {rest : List Char} (delimits : Delimits rest) :
    Delimits (spacing.lineBreak ++ rest) := by
  cases spacing with
  | compact => exact delimits
  | indented depth => exact .cons rfl

/-- What follows an element of an array does not continue a number. -/
theorem delimits_printElements (spacing : Spacing) (elements : List Json) {rest : List Char}
    (delimits : Delimits rest) : Delimits (printElements spacing elements ++ rest) := by
  cases elements with
  | nil => exact delimits
  | cons element elements => exact .cons rfl

/-- What follows a member of an object does not continue a number. -/
theorem delimits_printMembers (spacing : Spacing) (members : List (String × Json))
    {rest : List Char} (delimits : Delimits rest) :
    Delimits (printMembers spacing members ++ rest) := by
  cases members with
  | nil => exact delimits
  | cons member members => exact .cons rfl

/-- The text of the tree is cut into its tokens, however it is spaced and whatever does not
continue a number follows it. -/
def Scans (tree : Json) : Prop :=
  ∀ (spacing : Spacing) (rest : List Char), Delimits rest →
    Token.scan (tree.print spacing ++ rest) = tree.tokens ++ Token.scan rest

/-- Printed elements are scanned as their tokens, if each of them is. -/
theorem scan_printElements {elements : List Json} (scans : ∀ element ∈ elements, element.Scans)
    (spacing : Spacing) {rest : List Char} (delimits : Delimits rest) :
    Token.scan (printElements spacing elements ++ rest) =
      elementTokens elements ++ Token.scan rest := by
  induction elements with
  | nil => rfl
  | cons element elements inductionHypothesis =>
      obtain ⟨first, others⟩ := List.forall_mem_cons.mp scans
      simp only [printElements, elementTokens, List.cons_append, List.append_assoc, scan_comma,
        scan_lineBreak, first spacing _ (delimits_printElements spacing elements delimits),
        inductionHypothesis others]

/-- Printed members are scanned as their tokens, if the value of each is. -/
theorem scan_printMembers {members : List (String × Json)}
    (scans : ∀ member ∈ members, member.2.Scans) (spacing : Spacing) {rest : List Char}
    (delimits : Delimits rest) :
    Token.scan (printMembers spacing members ++ rest) =
      memberTokens members ++ Token.scan rest := by
  induction members with
  | nil => rfl
  | cons member members inductionHypothesis =>
      obtain ⟨first, others⟩ := List.forall_mem_cons.mp scans
      simp only [printMembers, memberTokens, List.cons_append, List.append_assoc, scan_comma,
        scan_lineBreak, scan_write, scan_colon,
        first spacing _ (delimits_printMembers spacing members delimits),
        inductionHypothesis others]

/-- A printed plain tree is cut into its tokens. -/
theorem Plain.scan_print {depth : Nat} {tree : Json} (plain : tree.Plain depth) : tree.Scans := by
  induction plain with
  | null => exact fun _ _ _ => scan_of_read rfl
  | @bool _ value => cases value <;> exact fun _ _ _ => scan_of_read rfl
  | @number _ value =>
      intro spacing rest delimits
      apply scan_of_read
      rw [print, Number.text, Nat.toString_eq_repr, Nat.toList_repr]
      exact read_digits value delimits
  | string => exact fun _ rest _ => scan_write _ rest
  | @array _ elements _ scans =>
      intro spacing rest _
      cases elements with
      | nil => exact (scan_openArray _).trans (congrArg _ (scan_closeArray rest))
      | cons element elements =>
          obtain ⟨first, others⟩ := List.forall_mem_cons.mp scans
          have behind : Delimits (spacing.lineBreak ++ ']' :: rest) :=
            delimits_lineBreak spacing (.cons rfl)
          simp only [print, tokens, List.cons_append, List.append_assoc, List.nil_append,
            scan_openArray, scan_closeArray, scan_lineBreak,
            scan_printElements others spacing.deeper behind,
            first spacing.deeper _ (delimits_printElements spacing.deeper elements behind)]
  | @object _ members _ scans =>
      intro spacing rest _
      cases members with
      | nil => exact (scan_openObject _).trans (congrArg _ (scan_closeObject rest))
      | cons member members =>
          obtain ⟨first, others⟩ := List.forall_mem_cons.mp scans
          have behind : Delimits (spacing.lineBreak ++ '\x7d' :: rest) :=
            delimits_lineBreak spacing (.cons rfl)
          simp only [print, tokens, List.cons_append, List.append_assoc, List.nil_append,
            scan_openObject, scan_closeObject, scan_lineBreak, scan_write, scan_colon,
            scan_printMembers others spacing.deeper behind,
            first spacing.deeper _ (delimits_printMembers spacing.deeper members behind)]

end FixedLayout.Json
