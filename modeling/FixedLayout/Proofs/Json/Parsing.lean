import FixedLayout.Json.Outline
import FixedLayout.Proofs.Json.Tokens

/-!
# Trees are parsed from their tokens

`Json.Nests.fill_tokens` follows the tokens of a tree through the outline, in any place
that is not too deep for it and in front of any tokens. From it, `Json.IsText.parse_eq_ok`
reads a tree from every text that is cut into its tokens, whatever its numbers are, and
`Json.Plain.parse_print` reads a printed plain tree back, however it is spaced.
-/

namespace FixedLayout.Json

/-- A tree whose brackets nest no deeper than given. -/
inductive Nests : Nat → Json → Prop where
  | null {depth} : Nests depth .null
  | bool {depth value} : Nests depth (.bool value)
  | number {depth value} : Nests depth (.number value)
  | string {depth value} : Nests depth (.string value)
  | array {depth elements} (nests : ∀ element ∈ elements, Nests depth element) :
      Nests (depth + 1) (.array elements)
  | object {depth members} (nests : ∀ member ∈ members, Nests depth member.2) :
      Nests (depth + 1) (.object members)

/-- A plain tree nests as deep as it is plain. -/
theorem Plain.nests {depth : Nat} {tree : Json} (plain : tree.Plain depth) : tree.Nests depth := by
  induction plain with
  | null => exact .null
  | bool => exact .bool
  | number => exact .number
  | string => exact .string
  | array _ nests => exact .array nests
  | object _ nests => exact .object nests

namespace Outline

/-- An accepted token leads to the outline that the tokens behind it fill. -/
theorem fill_cons {outline next : Outline} {token : Token} {rest : List Token}
    (stepped : outline.step token = some next) :
    outline.fill (token :: rest) = next.fill rest := by
  rw [fill, stepped]

/-- Where a container may be opened, its opening bracket is read. -/
theorem step_openArray {path : List Place} (room : path.length < greatestDepth) :
    (beforeValue path).step .openArray = some (afterOpenArray path) :=
  if_pos room

/-- Where a container may be opened, its opening brace is read. -/
theorem step_openObject {path : List Place} (room : path.length < greatestDepth) :
    (beforeValue path).step .openObject = some (afterOpenObject path) :=
  if_pos room

/-- A place that leaves room for a container leaves room inside the container. -/
theorem room_cons {place : Place} {path : List Place} {depth : Nat}
    (room : path.length + (depth + 1) ≤ greatestDepth) :
    (place :: path).length + depth ≤ greatestDepth := by
  rw [List.length_cons]
  omega

/-- Behind an opening bracket, every token but the closing one starts an element. -/
theorem step_afterOpenArray {path : List Place} {token : Token} (other : token ≠ .closeArray) :
    (afterOpenArray path).step token = (beforeValue (.element [] :: path)).step token := by
  cases token
  case closeArray => exact absurd rfl other
  all_goals rfl

end Outline

open Outline

/-- A tree starts with a token that can stand wherever there is room for the tree. -/
theorem Nests.exists_step {depth : Nat} {tree : Json} (nests : tree.Nests depth)
    {path : List Place} (room : path.length + depth ≤ greatestDepth) :
    ∃ token others next, tree.tokens = token :: others ∧ token ≠ .closeArray ∧
      (beforeValue path).step token = some next := by
  cases nests with
  | null => exact ⟨.null, _, _, rfl, nofun, rfl⟩
  | @bool _ value => exact ⟨.bool value, _, _, rfl, nofun, rfl⟩
  | @number _ value => exact ⟨.number value, _, _, rfl, nofun, rfl⟩
  | @string _ value => exact ⟨.string value, _, _, rfl, nofun, rfl⟩
  | @array depth elements =>
      have opening : (beforeValue path).step .openArray = some (afterOpenArray path) :=
        step_openArray (by omega)
      cases elements <;> exact ⟨.openArray, _, _, rfl, nofun, opening⟩
  | @object depth members =>
      have opening : (beforeValue path).step .openObject = some (afterOpenObject path) :=
        step_openObject (by omega)
      cases members <;> exact ⟨.openObject, _, _, rfl, nofun, opening⟩

/-- The first element of an array is read as any other value. -/
theorem Nests.fill_afterOpenArray {depth : Nat} {tree : Json} (nests : tree.Nests depth)
    {path : List Place} (room : path.length + (depth + 1) ≤ greatestDepth) (rest : List Token) :
    (afterOpenArray path).fill (tree.tokens ++ rest) =
      (beforeValue (.element [] :: path)).fill (tree.tokens ++ rest) := by
  obtain ⟨token, others, next, split, other, stepped⟩ := nests.exists_step (room_cons room)
  rw [split, List.cons_append, fill_cons stepped,
    fill_cons ((step_afterOpenArray other).trans stepped)]

/-- In any place that leaves room for it, the tokens of the tree fill the place with it. -/
def Fills (depth : Nat) (tree : Json) : Prop :=
  ∀ (path : List Place) (rest : List Token), path.length + depth ≤ greatestDepth →
    (beforeValue path).fill (tree.tokens ++ rest) = (put path tree).fill rest

/-- The tokens of further elements add these to the array, if each element fills its place. -/
theorem fill_elementTokens {depth : Nat} {elements : List Json}
    (fills : ∀ element ∈ elements, element.Fills depth) (before : List Json) {path : List Place}
    (rest : List Token) (room : path.length + (depth + 1) ≤ greatestDepth) :
    (afterElement before path).fill (elementTokens elements ++ rest) =
      (afterElement (before ++ elements) path).fill rest := by
  induction elements generalizing before with
  | nil => rw [elementTokens, List.nil_append, List.append_nil]
  | cons element elements inductionHypothesis =>
      obtain ⟨first, others⟩ := List.forall_mem_cons.mp fills
      rw [elementTokens, List.cons_append, List.cons_append, List.append_assoc, fill_cons rfl,
        first _ _ (room_cons room), put, inductionHypothesis others, List.append_assoc,
        List.singleton_append]

/-- The tokens of further members add these to the object, if each value fills its place. -/
theorem fill_memberTokens {depth : Nat} {members : List (String × Json)}
    (fills : ∀ member ∈ members, member.2.Fills depth) (before : List (String × Json))
    {path : List Place} (rest : List Token) (room : path.length + (depth + 1) ≤ greatestDepth) :
    (afterMember before path).fill (memberTokens members ++ rest) =
      (afterMember (before ++ members) path).fill rest := by
  induction members generalizing before with
  | nil => rw [memberTokens, List.nil_append, List.append_nil]
  | cons member members inductionHypothesis =>
      obtain ⟨first, others⟩ := List.forall_mem_cons.mp fills
      rw [memberTokens]
      simp only [List.cons_append, List.append_assoc]
      rw [fill_cons rfl, fill_cons rfl, fill_cons rfl, first _ _ (room_cons room), put,
        inductionHypothesis others, List.append_assoc, List.singleton_append]

/-- The tokens of a tree fill a place with it that is not too deep for it. -/
theorem Nests.fill_tokens {depth : Nat} {tree : Json} (nests : tree.Nests depth) :
    tree.Fills depth := by
  induction nests with
  | null => exact fun _ _ _ => fill_cons rfl
  | bool => exact fun _ _ _ => fill_cons rfl
  | number => exact fun _ _ _ => fill_cons rfl
  | string => exact fun _ _ _ => fill_cons rfl
  | @array depth elements nests fills =>
      intro path rest room
      have opening : (beforeValue path).step .openArray = some (afterOpenArray path) :=
        step_openArray (by omega)
      cases elements with
      | nil =>
          rw [tokens, List.cons_append, fill_cons opening, List.cons_append, fill_cons rfl,
            List.nil_append]
      | cons element elements =>
          obtain ⟨first, others⟩ := List.forall_mem_cons.mp fills
          rw [tokens]
          simp only [List.cons_append, List.append_assoc]
          rw [fill_cons opening,
            (nests element List.mem_cons_self).fill_afterOpenArray room,
            first _ _ (room_cons room), put,
            fill_elementTokens others _ _ room, fill_cons rfl]
          rfl
  | @object depth members _ fills =>
      intro path rest room
      have opening : (beforeValue path).step .openObject = some (afterOpenObject path) :=
        step_openObject (by omega)
      cases members with
      | nil =>
          rw [tokens, List.cons_append, fill_cons opening, List.cons_append, fill_cons rfl,
            List.nil_append]
      | cons member members =>
          obtain ⟨first, others⟩ := List.forall_mem_cons.mp fills
          rw [tokens]
          simp only [List.cons_append, List.append_assoc]
          rw [fill_cons opening, fill_cons rfl, fill_cons rfl, first _ _ (room_cons room), put,
            fill_memberTokens others _ _ room, fill_cons rfl]
          rfl

/-- A text of a tree is cut into the tokens of the tree, whose brackets nest no deeper than they
may. -/
structure IsText (tree : Json) (text : String) : Prop where
  nests : tree.Nests greatestDepth
  scanned : Token.scan text.toList = tree.tokens

/-- A tree is read from every text of it. -/
theorem IsText.parse_eq_ok {tree : Json} {text : String} (isText : tree.IsText text) :
    parse text = .ok tree := by
  have filled := isText.nests.fill_tokens [] [] (Nat.le_of_eq (Nat.zero_add _))
  rw [List.append_nil] at filled
  rw [parse, isText.scanned, filled]
  rfl

/-- A printed plain tree is a text of it, in either form. -/
theorem Plain.isText_print {tree : Json} (plain : tree.Plain greatestDepth) (spacing : Spacing) :
    tree.IsText (String.ofList (tree.print spacing)) := by
  have scanned := plain.scan_print spacing [] .nil
  have nothing : Token.scan [] = [] := by rw [Token.scan]
  rw [nothing, List.append_nil, List.append_nil] at scanned
  refine ⟨plain.nests, ?_⟩
  rw [String.toList_ofList, scanned]

/-- A printed plain tree is read back, in either form. -/
theorem Plain.parse_print {tree : Json} (plain : tree.Plain greatestDepth) (spacing : Spacing) :
    parse (String.ofList (tree.print spacing)) = .ok tree :=
  (plain.isText_print spacing).parse_eq_ok

end FixedLayout.Json
