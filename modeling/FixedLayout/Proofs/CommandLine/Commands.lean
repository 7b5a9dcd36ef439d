import FixedLayout.CommandLine.Run
import FixedLayout.Proofs.Base64
import FixedLayout.Proofs.Json.Parsing
import FixedLayout.Proofs.Registry.Registration

/-!
# What the commands on a type answer

A command is a sequence of attempts. The laws below open those that encode and decode
once, into the attempts that all have to succeed for an answer, and say that every
registry the commands may work on is reachable by registrations. `ReadsAs` says which
tree an answer is the text of.
-/

namespace FixedLayout.CommandLine

section Attempts

variable {Result : Type} {attempt : Except LayoutError Result} {result : Result}

/-- A command succeeds where what it asks of a layout does. -/
theorem ofLayout_eq_ok_iff : ofLayout attempt = .ok result ↔ attempt = .ok result := by
  cases attempt <;> simp [ofLayout]

end Attempts

section Answers

/-- A text is read as a tree, where of a repeated key the last value counts. -/
def ReadsAs (text : String) (tree : Json) : Prop :=
  (Json.parse text).map Json.settle = .ok tree

/-- What is read of a text is the tree it is parsed as, settled. -/
theorem readsAs_iff {text : String} {tree : Json} :
    ReadsAs text tree ↔ ∃ parsed, Json.parse text = .ok parsed ∧ parsed.settle = tree :=
  map_eq_ok_iff

/-- A printed tree that repeats no key is read again. -/
theorem readsAs_print {tree : Json} (plain : tree.Plain Json.Outline.greatestDepth)
    (settled : tree.settle = tree) (spacing : Json.Spacing) :
    ReadsAs (String.ofList (tree.print spacing)) tree :=
  readsAs_iff.mpr ⟨tree, plain.parse_print spacing, settled⟩

/-- A text is read as one tree only. -/
theorem ReadsAs.unique {text : String} {tree other : Json} (read : ReadsAs text tree)
    (again : ReadsAs text other) : tree = other :=
  Except.ok.inj (read.symm.trans again)

end Answers

/-- What is loaded for a command was registered. -/
theorem reachable_of_loadRegistry {contentOf : String → Except FileFault String}
    {file : Option String} {registry : Registry}
    (loaded : loadRegistry contentOf file = .ok registry) : registry.Reachable := by
  cases file with
  | none =>
      rw [loadRegistry, ofLayout_eq_ok_iff] at loaded
      exact Registry.reachable_of_ofLayouts loaded
  | some file =>
      rw [loadRegistry] at loaded
      split at loaded
      · cases loaded
      · next text content =>
          split at loaded
          · next described =>
              cases loaded
              exact Registry.reachable_of_ofText described
          · cases loaded

/-- The registry of the commands that name no file. -/
def bundled : Registry := Registry.finish TestProgram.layouts Registry.empty

/-- A type of a reachable registry has a well-formed layout of its name. -/
theorem wellFormed_of_get {registry : Registry} (reachable : registry.Reachable) {type : String}
    {layout : Layout} (known : registry.get type = .ok layout) :
    layout.WellFormed ∧ layout.name = type := by
  obtain ⟨member, named⟩ := reachable.sound.get_eq_ok_iff.mp known
  exact ⟨reachable.sound.wellFormed member, named⟩

section Commands

variable {registry : Registry} {type text answer : String} {layout : Layout}

/-- A value is encoded when its tree is read as a value that can be encoded. -/
theorem encodeTree_eq_ok_iff {tree : Json} {bytes : List UInt8} :
    encodeTree layout tree = .ok bytes ↔
      ∃ value, Value.ofTree layout tree = .ok value ∧ layout.encode value = .ok bytes := by
  rw [encodeTree]
  rcases read : Value.ofTree layout tree with fault | value
  · cases fault <;> simp
  · simp [ofLayout_eq_ok_iff]

/-- The command that encodes answers with the encoding of the value that the text describes. -/
theorem run_encode_eq_ok_iff :
    run registry (.encode type text) = .ok answer ↔
      ∃ layout tree value bytes, registry.get type = .ok layout ∧ Json.parse text = .ok tree ∧
        Value.ofTree layout tree.settle = .ok value ∧ layout.encode value = .ok bytes ∧
          answer = String.ofList (Base64.encode bytes) := by
  rw [run, encodeAnswer, bind_eq_ok_iff]
  simp only [ofLayout_eq_ok_iff]
  refine exists_congr fun layout => ?_
  rcases Json.parse text with fault | tree
  · constructor
    · rintro ⟨_, impossible⟩
      cases impossible
    · rintro ⟨_, _, _, _, impossible, _⟩
      cases impossible
  · simp only [bind_eq_ok_iff, encodeTree_eq_ok_iff]
    constructor
    · rintro ⟨known, bytes, ⟨value, read, accepted⟩, answered⟩
      cases answered
      exact ⟨tree, value, bytes, known, rfl, read, accepted, rfl⟩
    · rintro ⟨_, value, bytes, known, same, read, accepted, rfl⟩
      cases same
      exact ⟨known, bytes, ⟨value, read, accepted⟩, rfl⟩

/-- The tree of a decoded value with the bytes behind it. -/
def recordTree (value : Value) (rest : List UInt8) : Json :=
  .object [("value", value.toTree), ("remainder", .string (String.ofList (Base64.encode rest)))]

/-- The command that decodes one record answers with its value and the bytes behind it. -/
theorem run_decode_eq_ok_iff :
    run registry (.decode type text false) = .ok answer ↔
      ∃ layout data value rest, registry.get type = .ok layout ∧
        Base64.decode (Text.trim text.toList) = some data ∧
          layout.decode data = .ok (value, rest) ∧ answer = (recordTree value rest).pretty := by
  rw [run, decodeAnswer, bind_eq_ok_iff]
  simp only [ofLayout_eq_ok_iff]
  refine exists_congr fun layout => ?_
  rcases Base64.decode (Text.trim text.toList) with _ | data
  · constructor
    · rintro ⟨_, impossible⟩
      cases impossible
    · rintro ⟨_, _, _, _, impossible, _⟩
      cases impossible
  · simp only [Bool.false_eq_true, if_false, decodeFirst, bind_eq_ok_iff, ofLayout_eq_ok_iff]
    constructor
    · rintro ⟨known, tree, ⟨⟨value, rest⟩, decoded, same⟩, answered⟩
      cases same
      cases answered
      exact ⟨data, value, rest, known, rfl, decoded, rfl⟩
    · rintro ⟨_, value, rest, known, same, decoded, rfl⟩
      cases same
      exact ⟨known, _, ⟨(value, rest), decoded, rfl⟩, rfl⟩

/-- The command that decodes all records answers with their values. -/
theorem run_decodeAll {data : List UInt8} (known : registry.get type = .ok layout)
    (read : Base64.decode (Text.trim text.toList) = some data) :
    run registry (.decode type text true) =
      (decodeRecords layout data).map fun values =>
        (Json.array (values.map Value.toTree)).pretty := by
  rw [run, decodeAnswer, known, read]
  change (decodeRecords layout data >>= _) = _
  cases decodeRecords layout data <;> rfl

/-- What was encoded is the data of a command that decodes. -/
theorem decode_trim_encode (data : List UInt8) :
    Base64.decode (Text.trim (String.ofList (Base64.encode data)).toList) = some data := by
  rw [String.toList_ofList, Text.trim_of_solid Base64.isBlank_of_mem_encode,
    Base64.decode_encode]

end Commands

end FixedLayout.CommandLine
