import FixedLayout.Proofs.CommandLine.Commands
import FixedLayout.Proofs.Value.Tree

/-!
# Nothing is lost between decoding and encoding on the command line

A value that is decoded on the command line goes through its tree, the text of the tree,
the tree that is read from the text and the value that is read from it before it is
encoded again. `encodes_of_decode` follows it all the way; `lossless_of_loadRegistry`
states what comes of it for both orders of the commands on every loaded registry.
-/

namespace FixedLayout.CommandLine

/-- A tree has texts, and every text of it is encoded under a type as the given characters. -/
structure Encodes (registry : Registry) (type : String) (tree : Json) (answer : String) : Prop where
  /-- However the tree is printed, it is read again. -/
  printed : ∀ spacing, ReadsAs (String.ofList (tree.print spacing)) tree
  /-- The command that encodes answers with the characters on any text of the tree. -/
  answers : ∀ text, ReadsAs text tree → run registry (.encode type text) = .ok answer

/-- Nothing is lost on the way through the commands that decode and encode a type. -/
structure Lossless (registry : Registry) (type : String) : Prop where
  /-- A decoded value is encoded as the bytes in front of the remainder. -/
  decoded : ∀ data answer,
    run registry (.decode type (String.ofList (Base64.encode data)) false) = .ok answer →
      ∃ value remainder taken left,
        ReadsAs answer (.object [("value", value), ("remainder", .string remainder)]) ∧
          Base64.decode remainder.toList = some left ∧ taken ++ left = data ∧
            Encodes registry type value (String.ofList (Base64.encode taken))
  /-- An encoded value is decoded without a remainder, to a value of the same encoding. -/
  encoded : ∀ text answer, run registry (.encode type text) = .ok answer →
    ∃ told value, run registry (.decode type answer false) = .ok told ∧
      ReadsAs told (.object [("value", value), ("remainder", .string "")]) ∧
        Encodes registry type value answer

section Decoded

variable {layout : Layout} {data rest : List UInt8} {value : Value}

/-- The answer to a decoding is read as the tree of the record. -/
theorem readsAs_recordTree (distinct : value.Distinct) (rest : List UInt8) :
    ReadsAs (recordTree value rest).pretty (recordTree value rest) := by
  have inner : value.toTree.Plain (124 + 2) := distinct.plain_toTree
  have plain : (recordTree value rest).Plain Json.Outline.greatestDepth :=
    .object (by simp [Json.Plain.string, inner])
  have settled : (recordTree value rest).settle = recordTree value rest :=
    Json.settle_object (by simp [distinct.settle_toTree, Json.settle]) (by simp)
  exact readsAs_print plain settled (.indented 0)

/-- What was decoded is encoded from any text of its tree as the bytes it was decoded from. -/
theorem encodes_of_decode {registry : Registry} {type : String}
    (known : registry.get type = .ok layout) (wellFormed : layout.WellFormed)
    (decoded : layout.decode data = .ok (value, rest)) :
    value.Distinct ∧ ∃ taken, taken ++ rest = data ∧
      Encodes registry type value.toTree (String.ofList (Base64.encode taken)) := by
  have verdict := Layout.verdict_of_decode_eq decoded
  have shown := verdict.shows
  have distinct := shown.distinct wellFormed
  have plain : value.toTree.Plain (125 + 2) := distinct.plain_toTree
  obtain ⟨_, taken, specified, joined⟩ := verdict.restore wellFormed
  refine ⟨distinct, taken, joined, readsAs_print plain distinct.settle_toTree, ?answers⟩
  case answers =>
    intro text read
    obtain ⟨tree, parsed, settled⟩ := readsAs_iff.mp read
    rw [run_encode_eq_ok_iff]
    refine ⟨layout, tree, value, taken, known, parsed, ?_, specified.encode_eq, rfl⟩
    rw [settled]
    exact shown.ofTree_toTree wellFormed

end Decoded

/-- On a reachable registry nothing is lost. -/
theorem lossless_of_reachable {registry : Registry} (reachable : registry.Reachable)
    (type : String) : Lossless registry type := by
  constructor
  case decoded =>
    intro data answer answered
    obtain ⟨layout, given, value, rest, known, read, decoded, rfl⟩ :=
      run_decode_eq_ok_iff.mp answered
    rw [decode_trim_encode] at read
    cases read
    obtain ⟨distinct, taken, joined, encodes⟩ :=
      encodes_of_decode known (wellFormed_of_get reachable known).1 decoded
    refine ⟨value.toTree, String.ofList (Base64.encode rest), taken, rest,
      readsAs_recordTree distinct rest, ?_, joined, encodes⟩
    rw [String.toList_ofList, Base64.decode_encode]
  case encoded =>
    intro text answer answered
    obtain ⟨layout, tree, value, bytes, known, _, _, accepted, rfl⟩ :=
      run_encode_eq_ok_iff.mp answered
    -- The bytes are decoded to the canonical form of the value, with nothing behind it.
    obtain ⟨canonical, _, decodes⟩ := (Layout.outcome_of_encode_eq accepted).decode_append
    have decoded := decodes []
    rw [List.append_nil] at decoded
    obtain ⟨distinct, taken, joined, encodes⟩ :=
      encodes_of_decode known (wellFormed_of_get reachable known).1 decoded
    rw [List.append_nil] at joined
    subst joined
    have told := run_decode_eq_ok_iff.mpr
      ⟨layout, taken, canonical, [], known, decode_trim_encode taken, decoded, rfl⟩
    exact ⟨_, canonical.toTree, told, readsAs_recordTree distinct [], encodes⟩

/-- On every loaded registry nothing is lost between decoding and encoding, under any type. -/
theorem lossless_of_loadRegistry {contentOf : String → Except FileFault String}
    {file : Option String} {registry : Registry}
    (loaded : loadRegistry contentOf file = .ok registry) (type : String) :
    Lossless registry type :=
  lossless_of_reachable (reachable_of_loadRegistry loaded) type

/-- Without a file the bundled types are loaded; a greeting in front of another byte is decoded, and
a greeting is encoded as one zero. -/
theorem lossless_of_loadRegistry_bundled :
    loadRegistry (fun _ => .error .notFound) none = .ok bundled ∧
      Lossless bundled "TestProgramInstruction" ∧
        (∃ answer, run bundled (.decode "TestProgramInstruction"
          (String.ofList (Base64.encode [0, 255])) false) = .ok answer) ∧
          run bundled (.encode "TestProgramInstruction" (Json.string "HelloWorld").compact) =
            .ok "AA==" := by
  have loaded : loadRegistry (fun _ => .error .notFound) none = .ok bundled := rfl
  have known : bundled.get "TestProgramInstruction" =
      .ok (.enum TestProgram.Instruction.declared) := rfl
  have parsed : Json.parse (Json.string "HelloWorld").compact = .ok (.string "HelloWorld") :=
    Json.Plain.string.parse_print .compact
  have told := run_decode_eq_ok_iff.mpr
    ⟨_, [0, 255], .enum "HelloWorld" none, [255], known, decode_trim_encode [0, 255], rfl, rfl⟩
  have answered := run_encode_eq_ok_iff.mpr
    ⟨_, _, .enum "HelloWorld" none, [0], known, parsed, rfl, rfl, rfl⟩
  exact ⟨loaded, lossless_of_loadRegistry loaded _, ⟨_, told⟩, answered⟩

end FixedLayout.CommandLine
